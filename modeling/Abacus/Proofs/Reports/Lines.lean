import Abacus.Text.Line

/-!
# The line of a byte

A text is a row of bytes, and its lines are the runs of bytes up to and with a newline. `lineAt?`
walks over the lines and subtracts their lengths; here the line that it finds is described in the
text itself.

* `bytes`, `count_bytes` — the bytes of a text. A newline is one byte, and that byte occurs in no
  other character.
* `IsLine` — a line in its text: where it starts and where it ends. `splitLines` cuts a text into
  its lines (`isLines_splitLines`).
* `findLine_spec` — the line that is found, by induction on the lines before it.
* `lineAt?_exact` — the line of every offset: one inside the text, its end, and one past it.
-/

namespace Abacus.Text

/-! ## Bytes -/

/-- The bytes of the UTF-8 form. -/
def bytes (chars : List Char) : List UInt8 := chars.flatMap String.utf8EncodeChar

/-- The byte of a newline. -/
def newlineByte : UInt8 := 0x0A

@[simp]
theorem bytes_append (as bs : List Char) : bytes (as ++ bs) = bytes as ++ bytes bs := by
  simp [bytes]

@[simp]
theorem length_bytes (chars : List Char) : (bytes chars).length = byteLength chars := by
  induction chars with
  | nil => rfl
  | cons c cs ih =>
    have hcons : bytes (c :: cs) = String.utf8EncodeChar c ++ bytes cs := rfl
    rw [hcons, List.length_append, String.length_utf8EncodeChar, ih, byteLength_cons]

theorem toUTF8_eq_bytes (text : String) : text.toUTF8.data.toList = bytes text.toList := by
  rw [String.toUTF8_eq_toByteArray, ← String.utf8Encode_toList, List.utf8Encode,
    List.data_toByteArray]
  rfl

theorem utf8ByteSize_eq_byteLength (text : String) :
    text.utf8ByteSize = byteLength text.toList := by
  have hsize := congrArg List.length (toUTF8_eq_bytes text)
  rw [length_bytes] at hsize
  exact hsize

theorem le_toNat_or (x m : UInt8) : m.toNat ≤ (x ||| m).toNat := by
  rw [UInt8.toNat_or]
  exact Nat.right_le_or

/-- All bytes of a character of several bytes have the high bit. -/
theorem high_of_mem_utf8EncodeChar {c : Char} (hsize : c.utf8Size ≠ 1) {b : UInt8}
    (hb : b ∈ String.utf8EncodeChar c) : 0x80 ≤ b.toNat := by
  have high : ∀ x m : UInt8, 0x80 ≤ m.toNat → 0x80 ≤ (x ||| m).toNat :=
    fun x m hm => Nat.le_trans hm (le_toNat_or x m)
  rcases Char.utf8Size_eq c with h | h | h | h
  · exact absurd h hsize
  · rw [String.utf8EncodeChar_eq_cons_cons h] at hb
    simp only [List.mem_cons, List.not_mem_nil, or_false] at hb
    rcases hb with rfl | rfl <;> exact high _ _ (by decide)
  · rw [String.utf8EncodeChar_eq_cons_cons_cons h] at hb
    simp only [List.mem_cons, List.not_mem_nil, or_false] at hb
    rcases hb with rfl | rfl | rfl <;> exact high _ _ (by decide)
  · rw [String.utf8EncodeChar_eq_cons_cons_cons_cons h] at hb
    simp only [List.mem_cons, List.not_mem_nil, or_false] at hb
    rcases hb with rfl | rfl | rfl | rfl <;> exact high _ _ (by decide)

/-- No other character has the byte of a newline. -/
theorem eq_of_newlineByte_mem {c : Char} (h : newlineByte ∈ String.utf8EncodeChar c) :
    c = '\n' := by
  have hsize : c.utf8Size = 1 := by
    by_cases hsize : c.utf8Size = 1
    · exact hsize
    · exact absurd (high_of_mem_utf8EncodeChar hsize h) (by decide)
  rw [String.utf8EncodeChar_eq_singleton hsize, List.mem_singleton] at h
  have hle : c.val.toNat ≤ 127 := UInt32.le_iff_toNat_le.mp (Char.utf8Size_eq_one_iff.mp hsize)
  have hmod : (10 : Nat) = c.val.toNat % 256 :=
    (congrArg UInt8.toNat h).trans (UInt32.toNat_toUInt8 _)
  apply Char.ext
  apply UInt32.toNat.inj
  rw [Nat.mod_eq_of_lt (by omega)] at hmod
  exact hmod.symm

/-- **The newline bytes of a text are its newlines.** -/
theorem count_bytes (chars : List Char) : (bytes chars).count newlineByte = chars.count '\n' := by
  induction chars with
  | nil => rfl
  | cons c cs ih =>
    have hcons : bytes (c :: cs) = String.utf8EncodeChar c ++ bytes cs := rfl
    rw [hcons, List.count_append, ih]
    by_cases hc : c = '\n'
    · subst hc
      rw [List.count_cons_self, Nat.add_comm]
      rfl
    · rw [List.count_cons_of_ne hc, List.count_eq_zero.mpr fun h => hc (eq_of_newlineByte_mem h),
        Nat.zero_add]

/-! ## Lines -/

/-- `line` is a line between `before` and `after`. -/
structure IsLine (before line after : List Char) : Prop where
  /-- It starts the text or follows a newline. -/
  starts : before = [] ∨ ∃ front, before = front ++ ['\n']
  /-- It runs through its first newline, or has none and runs to the end. It is not empty. -/
  ends : ∃ visible, '\n' ∉ visible ∧
    (line = visible ++ ['\n'] ∨ line = visible ∧ line ≠ [] ∧ after = [])

/-- The lines up to the end of a text: only the last one may lack a newline. -/
inductive IsLines : List (List Char) → Prop
  | nil : IsLines []
  | last {line : List Char} (hne : line ≠ []) (h : '\n' ∉ line) : IsLines [line]
  | cons {visible : List Char} {lines : List (List Char)} (h : '\n' ∉ visible)
      (hlines : IsLines lines) : IsLines ((visible ++ ['\n']) :: lines)

theorem flatten_splitLines (text : List Char) : (splitLines text).flatten = text := by
  fun_induction splitLines text with
  | case1 => rfl
  | case2 cs ih => simp [ih]
  | case3 c cs hc hnil ih => simp_all
  | case4 c cs hc line lines hlines ih => simp_all

theorem isLines_splitLines (text : List Char) : IsLines (splitLines text) := by
  fun_induction splitLines text with
  | case1 => exact .nil
  | case2 cs ih => exact @IsLines.cons [] _ List.not_mem_nil ih
  | case3 c cs hc hnil ih => exact .last (List.cons_ne_nil c []) (by simpa using Ne.symm hc)
  | case4 c cs hc line lines hlines ih =>
    have hcons : ∀ chars : List Char, '\n' ∉ chars → '\n' ∉ c :: chars := by
      intro chars h
      simp [h, Ne.symm hc]
    rw [hlines] at ih
    cases ih with
    | last _ h => exact .last (List.cons_ne_nil c line) (hcons line h)
    | cons h hrest => exact .cons (hcons _ h) hrest

theorem withoutNewline_eq_takeWhile (chars : List Char) :
    withoutNewline chars = chars.takeWhile (· != '\n') := by
  induction chars with
  | nil => rfl
  | cons c cs ih =>
    by_cases hc : c = '\n'
    · simp [withoutNewline, hc]
    · simp [withoutNewline, hc, ih]

/-- The part before a newline, or before the end if there is none. -/
theorem withoutNewline_append {visible rest : List Char} (h : '\n' ∉ visible)
    (hrest : withoutNewline rest = []) : withoutNewline (visible ++ rest) = visible := by
  have hvisible : ∀ c ∈ visible, (c != '\n') = true := by
    intro c hc
    exact bne_iff_ne.mpr fun heq => h (heq ▸ hc)
  rw [withoutNewline_eq_takeWhile] at hrest ⊢
  rw [List.takeWhile_append_of_pos hvisible, hrest, List.append_nil]

section IsLine

variable {before line after : List Char}

/-- A line stays one behind further lines. -/
theorem IsLine.behind (h : IsLine before line after) (visible : List Char) :
    IsLine ((visible ++ ['\n']) ++ before) line after := by
  refine ⟨.inr ?_, h.ends⟩
  rcases h.starts with rfl | ⟨front, rfl⟩
  · exact ⟨visible, List.append_nil _⟩
  · exact ⟨(visible ++ ['\n']) ++ front, (List.append_assoc _ _ _).symm⟩

theorem count_behind {visible : List Char} (h : '\n' ∉ visible) (before : List Char) :
    ((visible ++ ['\n']) ++ before).count '\n' = before.count '\n' + 1 := by
  rw [List.count_append, List.count_append, List.count_eq_zero.mpr h, List.count_singleton_self]
  omega

/-- What is left of a line without its newline. -/
theorem IsLine.withoutNewline (h : IsLine before line after) :
    '\n' ∉ withoutNewline line ∧
      (line = Text.withoutNewline line ∨ line = Text.withoutNewline line ++ ['\n']) := by
  obtain ⟨visible, hvisible, rfl | ⟨rfl, -, -⟩⟩ := h.ends
  · rw [withoutNewline_append hvisible rfl]
    exact ⟨hvisible, .inr rfl⟩
  · have hwhole := withoutNewline_append hvisible (show Text.withoutNewline [] = [] from rfl)
    rw [List.append_nil] at hwhole
    rw [hwhole]
    exact ⟨hvisible, .inl rfl⟩

/-- No newline comes before a byte of a line. -/
theorem IsLine.count_take (h : IsLine before line after) {n : Nat} (hn : n < byteLength line) :
    ((bytes line).take n).count newlineByte = 0 := by
  obtain ⟨visible, hvisible, hline⟩ := h.ends
  have hzero : (bytes visible).count newlineByte = 0 := by
    rw [count_bytes, List.count_eq_zero.mpr hvisible]
  have htake : (bytes line).take n = (bytes visible).take n := by
    rcases hline with rfl | ⟨rfl, -, -⟩
    · have hle : n ≤ (bytes visible).length := by
        rw [byteLength_append] at hn
        have hone : byteLength ['\n'] = 1 := rfl
        rw [length_bytes]
        omega
      rw [bytes_append, List.take_append_of_le_length hle]
    · rfl
  rw [htake]
  have hle := (List.take_sublist n (bytes visible)).count_le newlineByte
  omega

end IsLine

/-! ## Finding a line -/

/-- **The line of a byte**, by induction on the lines before it. -/
theorem findLine_spec {lines : List (List Char)} (h : IsLines lines) {p : Nat}
    (hp : p < byteLength lines.flatten) (number : Nat) :
    ∃ line before after, findLine number p lines = some line ∧
      lines.flatten = before ++ (line.chars ++ after) ∧ IsLine before line.chars after ∧
      byteLength before + line.offset = p ∧ line.offset < byteLength line.chars ∧
      line.number = number + before.count '\n' := by
  induction h generalizing p number with
  | nil => simp at hp
  | @last line hne h =>
    rw [List.flatten_singleton] at hp
    refine ⟨⟨number, line, p⟩, [], [], ?_, by simp, ⟨.inl rfl, line, h, .inr ⟨rfl, hne, rfl⟩⟩,
      by simp, hp, by simp⟩
    rw [findLine, if_pos hp]
  | @cons visible lines h hlines ih =>
    by_cases hfirst : p < byteLength (visible ++ ['\n'])
    · refine ⟨⟨number, visible ++ ['\n'], p⟩, [], lines.flatten, ?_, by simp,
        ⟨.inl rfl, visible, h, .inl rfl⟩, by simp, hfirst, by simp⟩
      rw [findLine, if_pos hfirst]
    · rw [List.flatten_cons, byteLength_append] at hp
      obtain ⟨line, before, after, hfind, htext, hline, hoffset, hlt, hnumber⟩ :=
        @ih (p - byteLength (visible ++ ['\n'])) (by omega) (number + 1)
      refine ⟨line, (visible ++ ['\n']) ++ before, after, ?_, ?_, hline.behind visible, ?_, hlt, ?_⟩
      · rw [findLine, if_neg hfirst, hfind]
      · simp [htext]
      · rw [byteLength_append]
        omega
      · rw [hnumber, count_behind h]
        omega

theorem findLine_eq_none {lines : List (List Char)} {p : Nat} (hp : byteLength lines.flatten ≤ p)
    (number : Nat) : findLine number p lines = none := by
  induction lines generalizing p number with
  | nil => rfl
  | cons line lines ih =>
    rw [List.flatten_cons, byteLength_append] at hp
    rw [findLine, if_neg (by omega), ih (by omega)]

/-- **The last line**, and how many come before it. -/
theorem getLast?_spec {lines : List (List Char)} (h : IsLines lines) (hne : lines ≠ []) :
    ∃ line before, lines.getLast? = some line ∧ lines.flatten = before ++ line ∧
      IsLine before line [] ∧ lines.length = before.count '\n' + 1 := by
  induction h with
  | nil => exact absurd rfl hne
  | @last line hline h =>
    exact ⟨line, [], rfl, by simp, ⟨.inl rfl, line, h, .inr ⟨rfl, hline, rfl⟩⟩, rfl⟩
  | @cons visible lines h hlines ih =>
    by_cases hnil : lines = []
    · subst hnil
      exact ⟨visible ++ ['\n'], [], rfl, by simp, ⟨.inl rfl, visible, h, .inl rfl⟩, rfl⟩
    · obtain ⟨line, before, hlast, htext, hline, hlength⟩ := ih hnil
      refine ⟨line, (visible ++ ['\n']) ++ before, ?_, ?_, hline.behind visible, ?_⟩
      · rw [List.getLast?_cons, hlast, Option.getD_some]
      · simp [htext]
      · rw [List.length_cons, hlength, count_behind h]

/-! ## The line of an offset -/

/-- **The line holds the byte `p` of the text.** -/
structure HoldsByte (text : String) (p : Nat) (line : Line) : Prop where
  /-- It is a line of the text, and the byte is the one after `line.offset` bytes of it. -/
  cut : ∃ before after, text.toList = before ++ (line.chars ++ after) ∧
    IsLine before line.chars after ∧ byteLength before + line.offset = p
  offset_lt : line.offset < byteLength line.chars
  /-- Its number is one more than that of the newline bytes before the byte. -/
  number : line.number = (text.toUTF8.data.toList.take p).count newlineByte + 1

/-- **The line is the last one of the text**, with the place after its visible part. -/
structure EndsText (text : String) (line : Line) : Prop where
  /-- Nothing follows it, and each line before it has one newline. -/
  cut : ∃ before, text.toList = before ++ line.chars ∧ IsLine before line.chars [] ∧
    line.number = before.count '\n' + 1
  offset : ∃ visible, '\n' ∉ visible ∧
    (line.chars = visible ∨ line.chars = visible ++ ['\n']) ∧ line.offset = byteLength visible

theorem exists_holdsByte {text : String} {p : Nat} (hp : p < text.utf8ByteSize) :
    ∃ line, lineAt? text.toList p = some line ∧ HoldsByte text p line := by
  rw [utf8ByteSize_eq_byteLength] at hp
  have hflat := flatten_splitLines text.toList
  obtain ⟨line, before, after, hfind, htext, hline, hoffset, hlt, hnumber⟩ :=
    findLine_spec (isLines_splitLines text.toList) (by rwa [hflat]) 1
  rw [hflat] at htext
  refine ⟨line, ?_, ⟨before, after, htext, hline, hoffset⟩, hlt, ?_⟩
  · rw [lineAt?, if_neg (Nat.ne_of_lt hp), hfind]
  · have hsplit : (bytes text.toList).take p =
        bytes before ++ (bytes line.chars).take line.offset := by
      rw [htext, ← hoffset, bytes_append, bytes_append, ← length_bytes, List.take_length_add_append,
        List.take_append_of_le_length]
      rw [length_bytes]
      exact Nat.le_of_lt hlt
    rw [toUTF8_eq_bytes, hsplit, List.count_append, count_bytes, hline.count_take hlt, hnumber]
    omega

theorem exists_endsText {text : String} (hne : text ≠ "") :
    ∃ line, lineAt? text.toList text.utf8ByteSize = some line ∧ EndsText text line := by
  have hflat := flatten_splitLines text.toList
  have hlines : splitLines text.toList ≠ [] := by
    intro hnil
    rw [hnil, List.flatten_nil] at hflat
    exact hne (String.toList_inj.mp hflat.symm)
  obtain ⟨line, before, hlast, htext, hline, hlength⟩ :=
    getLast?_spec (isLines_splitLines text.toList) hlines
  rw [hflat] at htext
  obtain ⟨hvisible, hchars⟩ := hline.withoutNewline
  refine ⟨⟨(splitLines text.toList).length, line, byteLength (withoutNewline line)⟩, ?_,
    ⟨before, htext, hline, hlength⟩, withoutNewline line, hvisible, hchars, rfl⟩
  rw [lineAt?, if_pos (utf8ByteSize_eq_byteLength text), lastLine?, hlast]
  rfl

theorem lineAt?_eq_none_iff {text : String} {p : Nat} :
    lineAt? text.toList p = none ↔ text.utf8ByteSize < p ∨ text = "" := by
  constructor
  · intro hnone
    by_cases hempty : text = ""
    · exact .inr hempty
    · refine .inl (Nat.lt_of_not_le fun hle => ?_)
      have hsome : ∃ line, lineAt? text.toList p = some line := by
        rcases Nat.lt_or_eq_of_le hle with hlt | rfl
        · obtain ⟨line, hline, -⟩ := exists_holdsByte hlt
          exact ⟨line, hline⟩
        · obtain ⟨line, hline, -⟩ := exists_endsText hempty
          exact ⟨line, hline⟩
      obtain ⟨line, hline⟩ := hsome
      rw [hnone] at hline
      cases hline
  · rintro (hlt | rfl)
    · rw [utf8ByteSize_eq_byteLength] at hlt
      rw [lineAt?, if_neg (Nat.ne_of_gt hlt), findLine_eq_none]
      rw [flatten_splitLines]
      exact Nat.le_of_lt hlt
    · unfold lineAt?
      split <;> rfl

/-- **The line of every offset.** There is none past the end and none in the empty text; a byte has
the line that holds it, and the end of the text has the last line. -/
theorem lineAt?_exact (text : String) (p : Nat) :
    (lineAt? text.toList p = none ↔ text.utf8ByteSize < p ∨ text = "") ∧
    (p < text.utf8ByteSize → ∃ line, lineAt? text.toList p = some line ∧ HoldsByte text p line) ∧
    (p = text.utf8ByteSize → text ≠ "" →
      ∃ line, lineAt? text.toList p = some line ∧ EndsText text line) := by
  refine ⟨lineAt?_eq_none_iff, exists_holdsByte, ?_⟩
  rintro rfl hne
  exact exists_endsText hne

/-- An offset inside a character of two bytes, and the end of a text that ends with a newline. -/
theorem lineAt?_exact_inside_character :
    (∃ line, lineAt? "x\ngröße\n".toList 5 = some line ∧ HoldsByte "x\ngröße\n" 5 line ∧
      line = ⟨2, "größe\n".toList, 3⟩) ∧
    (∃ line, lineAt? "x\ngröße\n".toList 10 = some line ∧ EndsText "x\ngröße\n" line ∧
      line = ⟨2, "größe\n".toList, 7⟩) := by
  have hinside : lineAt? "x\ngröße\n".toList 5 = some ⟨2, "größe\n".toList, 3⟩ := by decide +kernel
  have hend : lineAt? "x\ngröße\n".toList 10 = some ⟨2, "größe\n".toList, 7⟩ := by decide +kernel
  obtain ⟨line, hline, hholds⟩ := (lineAt?_exact "x\ngröße\n" 5).2.1 (by decide +kernel)
  obtain ⟨last, hlast, hends⟩ :=
    (lineAt?_exact "x\ngröße\n" 10).2.2 (by decide +kernel) (by decide +kernel)
  exact ⟨⟨line, hline, hholds, Option.some.inj (hline.symm.trans hinside)⟩,
    ⟨last, hlast, hends, Option.some.inj (hlast.symm.trans hend)⟩⟩

end Abacus.Text
