import Abacus.Proofs.Lexing.Segmentation
import Abacus.Proofs.Lexing.Watching

/-!
# Texts with blanks between them

Words and numerals run on as far as they can, so two texts in a row need not have the tokens of the
one and then those of the other. Blanks between them keep them apart: no lexeme goes on over a blank
(`parts_of_isBlank`).

* `Cursor.next_extend` — where a token starts, what is read does not depend on a text that follows
  and cannot run into it.
* `Cursor.tokens_extend_of_ok`, `Cursor.tokens_extend_of_error` — so the tokens of a text stay when
  such a text follows, and so does its failure.
* `Cursor.tokens_shift` — a text that starts further on has the same tokens, further on.
* `tokenize_append_blanks` — the tokens of two texts with blanks between them.
-/

namespace Abacus

open Text

/-! ## Further on -/

/-- The span `n` bytes further on. -/
def Span.shift (n : Nat) (s : Span) : Span :=
  ⟨s.start + n.toUInt32, s.stop + n.toUInt32, s.file⟩

/-- The token `n` bytes further on. -/
def Token.shift (n : Nat) (t : Token) : Token := { t with span := t.span.shift n }

/-- The diagnostic `n` bytes further on. -/
def Diagnostic.shift (n : Nat) (d : Diagnostic) : Diagnostic :=
  { d with position := ⟨d.position.offset + n.toUInt32, d.position.file⟩ }

namespace Cursor

variable {c : Cursor} {ch : Char} {rest more : List Char}

/-- The cursor with the same rest `n` bytes further on. -/
def shift (n : Nat) (c : Cursor) : Cursor := { c with offset := c.offset + n }

theorem skipBlanks_shift (n : Nat) (c : Cursor) :
    (c.shift n).skipBlanks = c.skipBlanks.shift n := by
  simp only [skipBlanks, shift, Nat.add_right_comm]

theorem past_shift (n : Nat) (c : Cursor) (chars : List Char) :
    (c.shift n).past chars = (c.past chars).shift n := by
  simp only [past, shift, Nat.add_right_comm]

theorem position_shift (n : Nat) (c : Cursor) :
    (c.shift n).position = ⟨c.position.offset + n.toUInt32, c.position.file⟩ := by
  simp only [position, shift, Nat.toUInt32_eq, UInt32.ofNat_add]

theorem token_shift (n : Nat) (c : Cursor) (kind : TokenKind) (chars : List Char) :
    (c.shift n).token kind chars = (c.token kind chars).shift n := by
  simp only [token, shift, Token.shift, Span.shift, Span.ofLength, Nat.add_right_comm _ n,
    Nat.toUInt32_eq, UInt32.ofNat_add]

/-- The offset of a cursor decides where its token is, and nothing else. -/
theorem next_shift (n : Nat) (c : Cursor) :
    (c.shift n).next =
      ((c.next.1.map (Token.shift n)).mapError (Diagnostic.shift n), c.next.2.shift n) := by
  have hsame : (c.shift n).skipBlanks.rest = c.skipBlanks.rest := by rw [skipBlanks_shift]; rfl
  rcases c.next_cases with
    ⟨hrest, hn⟩ | ⟨ch, rest, kind, chars, hrest, hlex, hn⟩ | ⟨ch, rest, fault, hrest, hlex, hn⟩
  · rw [hn, next_of_skipBlanks_nil (hsame.trans hrest), skipBlanks_shift, token_shift]
    rfl
  · rw [hn, next_of_skipBlanks_ok (hsame.trans hrest) hlex, skipBlanks_shift, token_shift,
      past_shift]
    rfl
  · rw [hn, next_of_skipBlanks_error (hsame.trans hrest) hlex, skipBlanks_shift, position_shift]
    rfl

/-- **A text that starts further on has the same tokens, further on.** -/
theorem tokens_shift (n : Nat) (c : Cursor) :
    (c.shift n).tokens =
      (c.tokens.map (List.map (Token.shift n))).mapError (Diagnostic.shift n) := by
  have hn := next_shift n c
  fun_induction produced c with
  | case1 c d c' hc =>
    rw [hc] at hn
    rw [tokens_of_error hc, tokens_of_error hn]
    rfl
  | case2 c t c' hc ht =>
    rw [hc] at hn
    rw [tokens_of_eof hc ht, tokens_of_eof hn ht]
    rfl
  | case3 c t c' hc ht _ ih =>
    rw [hc] at hn
    rw [tokens_of_ok hc ht, tokens_of_ok hn ht, ih (next_shift n c')]
    cases c'.tokens <;> rfl

/-! ## What follows -/

/-- The cursor with more text after the rest. -/
def extend (more : List Char) (c : Cursor) : Cursor := { c with rest := c.rest ++ more }

theorem blank_rest_iff : Blank c.rest ↔ c.skipBlanks.rest = [] := by
  rw [skipBlanks, List.dropWhile_eq_nil_iff]
  rfl

theorem skipBlanks_extend (h : c.skipBlanks.rest = ch :: rest) (more : List Char) :
    (c.extend more).skipBlanks = c.skipBlanks.extend more := by
  have hblank : Blank (c.rest.takeWhile isBlank) := fun b hb => List.mem_takeWhile_imp hb
  have hhead : ∀ d ∈ (c.skipBlanks.rest ++ more).head?, isBlank d = false := by
    have hskip := head?_dropWhile_eq_false isBlank c.rest
    rw [h, List.cons_append]
    rwa [show c.rest.dropWhile isBlank = ch :: rest from h] at hskip
  have hrest : (c.extend more).rest = c.rest.takeWhile isBlank ++ (c.skipBlanks.rest ++ more) := by
    rw [← List.append_assoc, skipBlanks, List.takeWhile_append_dropWhile]
    rfl
  exact skipBlanks_of_append hblank hhead hrest

end Cursor

/-- A lexeme ends before a character that continues none. -/
theorem takeWhile_continues_append {more : List Char} (hmore : Parts more) (ch : Char)
    (rest : List Char) :
    (rest ++ more).takeWhile (continues ch) = rest.takeWhile (continues ch) := by
  have hnone : more.takeWhile (continues ch) = [] := by
    cases more with
    | nil => rfl
    | cons d ds =>
      have hd := continues_of_parts hmore ch d rfl
      rw [List.takeWhile_cons_of_neg (by rw [hd]; exact Bool.false_ne_true)]
  rw [List.takeWhile_append, hnone, List.append_nil]
  split
  · rename_i hall
    exact ((List.takeWhile_prefix _).eq_of_length hall).symm
  · rfl

namespace Cursor

variable {c c' : Cursor} {ts : List Token} {t e : Token} {d : Diagnostic} {more : List Char}

/-- **Where a token starts, what is read does not depend on what follows** and cannot run into
it. -/
theorem next_extend (hmore : Parts more) (h : ¬ Blank c.rest) :
    (c.extend more).next = (c.next.1, c.next.2.extend more) := by
  obtain ⟨ch, rest, hrest⟩ := List.exists_cons_of_ne_nil (mt blank_rest_iff.mpr h)
  have hskip := skipBlanks_extend hrest more
  have hrest' : (c.extend more).skipBlanks.rest = ch :: (rest ++ more) := by
    rw [hskip, extend, hrest, List.cons_append]
  have hsame : lexeme ch (rest ++ more) = lexeme ch rest :=
    lexeme_congr (takeWhile_continues_append hmore ch rest)
  cases hlex : lexeme ch rest with
  | error fault =>
    rw [next_of_skipBlanks_error hrest hlex, next_of_skipBlanks_error hrest' (hsame.trans hlex),
      hskip]
    rfl
  | ok found =>
    obtain ⟨kind, chars⟩ := found
    have hlength : chars.length ≤ c.skipBlanks.rest.length := by
      rw [lexeme_chars hlex, hrest, List.length_cons, List.length_cons]
      exact Nat.succ_le_succ (List.takeWhile_prefix _).length_le
    rw [next_of_skipBlanks_ok hrest hlex, next_of_skipBlanks_ok hrest' (hsame.trans hlex), hskip]
    simp only [past, extend, List.drop_append_of_le_length hlength]
    rfl

/-- Blanks before a token change nothing but its place. -/
theorem next_of_blanks {blanks rest : List Char} (hb : Blank blanks)
    (hc : c.rest = blanks ++ rest) :
    c.next = (⟨c.file, c.offset + byteLength blanks, rest⟩ : Cursor).next := by
  induction blanks generalizing c with
  | nil =>
    obtain ⟨file, offset, chars⟩ := c
    obtain rfl : chars = rest := hc
    rfl
  | cons b blanks ih =>
    obtain ⟨hb, hblanks⟩ := List.forall_mem_cons.mp hb
    rw [List.cons_append] at hc
    rw [next_of_blank hb hc, ih (c := ⟨c.file, _, _⟩) hblanks rfl, byteLength_cons, Nat.add_assoc]

/-- The cursor past the rest, before what follows. -/
def pastRest (more : List Char) (c : Cursor) : Cursor :=
  ⟨c.file, c.offset + byteLength c.rest, more⟩

theorem pastRest_next (c : Cursor) (more : List Char) :
    c.next.2.pastRest more = c.pastRest more := by
  obtain ⟨chars, hrest, hoffset, hfile⟩ := c.exists_rest_eq_append
  rw [pastRest, pastRest, hoffset, hfile, Nat.add_assoc, ← byteLength_append, ← hrest]

theorem blank_rest_of_next_eof (h : c.next = (.ok t, c')) (ht : t.kind = .eof) : Blank c.rest :=
  blank_rest_iff.mpr (of_next_eof h ht).1

theorem not_blank_rest_of_next_ok (h : c.next = (.ok t, c')) (ht : t.kind ≠ .eof) :
    ¬ Blank c.rest := by
  obtain ⟨ch, rest, _, _, hrest, -⟩ := of_next_ok h ht
  rw [blank_rest_iff, hrest]
  exact List.cons_ne_nil ch rest

theorem not_blank_rest_of_next_error (h : c.next = (.error d, c')) : ¬ Blank c.rest := by
  obtain ⟨ch, rest, _, hrest, -⟩ := of_next_error h
  rw [blank_rest_iff, hrest]
  exact List.cons_ne_nil ch rest

/-- **The tokens of a text stay when another follows**, and then come those of the other. -/
theorem tokens_extend_of_ok (hmore : Parts more) (h : c.tokens = .ok (ts ++ [e])) :
    (c.extend more).tokens = (c.pastRest more).tokens.map (ts ++ ·) := by
  fun_induction produced c generalizing ts with
  | case1 c d c' hc => rw [tokens_of_error hc] at h; cases h
  | case2 c t c' hc ht =>
    rw [tokens_of_eof hc ht, ← List.nil_append [t]] at h
    obtain ⟨rfl, -⟩ := List.append_inj' (Except.ok.inj h) rfl
    rw [tokens_congr (next_of_blanks (blank_rest_of_next_eof hc ht) rfl)]
    show (c.pastRest more).tokens = _
    cases (c.pastRest more).tokens <;> rfl
  | case3 c t c' hc ht _ ih =>
    have hn := next_extend hmore (not_blank_rest_of_next_ok hc ht)
    have hend := c.pastRest_next more
    rw [hc] at hn hend
    rw [tokens_of_ok hc ht] at h
    cases hts : c'.tokens with
    | error d => rw [hts] at h; cases h
    | ok ts' =>
      -- The end is the last token of `c'` too, so `t` is among those before it.
      obtain ⟨us, e', rfl, -, -⟩ := spelled_of_tokens hts
      rw [hts] at h
      have hsame : (t :: us) ++ [e'] = ts ++ [e] := Except.ok.inj h
      obtain ⟨rfl, hlast⟩ := List.append_inj' hsame rfl
      rw [tokens_of_ok hn ht, ih (hlast ▸ hts), hend]
      cases (c.pastRest more).tokens <;> rfl

/-- **The failure of a text stays when another follows.** -/
theorem tokens_extend_of_error (hmore : Parts more) (h : c.tokens = .error d) :
    (c.extend more).tokens = .error d := by
  fun_induction produced c with
  | case1 c d' c' hc =>
    have hn := next_extend hmore (not_blank_rest_of_next_error hc)
    rw [hc] at hn
    rw [tokens_of_error hn, ← h, tokens_of_error hc]
  | case2 c t c' hc ht => rw [tokens_of_eof hc ht] at h; cases h
  | case3 c t c' hc ht _ ih =>
    have hn := next_extend hmore (not_blank_rest_of_next_ok hc ht)
    rw [hc] at hn
    rw [tokens_of_ok hc ht] at h
    cases hts : c'.tokens with
    | error d' =>
      rw [hts] at h
      rw [tokens_of_ok hn ht, ih (hts.trans h)]
      rfl
    | ok ts' => rw [hts] at h; cases h

end Cursor

/-! ## Blanks between texts -/

theorem isNumeric_of_isBlank {c : Char} (h : isBlank c = true) : isNumeric c = false :=
  inRanges_eq_false_of_apart (by decide +kernel) h

/-- No lexeme goes on over a blank. -/
theorem parts_of_isBlank {b : Char} (hb : isBlank b = true) (chars : List Char) :
    Parts (b :: chars) := by
  rintro _ ⟨⟩
  constructor
  · rw [isWordPart, isAlphabetic_of_isBlank hb, isNumeric_of_isBlank hb, Bool.or_false]
  · have hdot : b ≠ '.' := by
      rintro rfl
      exact absurd hb (by decide)
    rw [isNumeralPart, isDigit_of_isBlank hb, beq_eq_false_iff_ne.mpr hdot, Bool.or_false]

/-- Blanks and then a text: the tokens of the text, further on. -/
theorem Cursor.tokens_pastRest {a w b : String} {file : Option String} (hblank : Blank w.toList) :
    ((Cursor.ofText a file).pastRest (w.toList ++ b.toList)).tokens =
      ((Cursor.ofText b file).shift (byteLength (a ++ w).toList)).tokens := by
  rw [tokens_congr (next_of_blanks hblank rfl)]
  simp [pastRest, ofText, shift]

/-- **Texts with blanks between them are read one after the other.** If the first is read, its
tokens are followed by those of the second, further on by what stands before it, or by its failure;
if the first fails, both fail with it. -/
theorem tokenize_append_blanks (a w b : String) (file : Option String) (hw : w ≠ "")
    (hblank : Blank w.toList) :
    (∀ ta e, tokenize a file = .ok (ta ++ [e]) →
      (∀ tb, tokenize b file = .ok tb →
        tokenize (a ++ w ++ b) file =
          .ok (ta ++ tb.map (Token.shift (byteLength (a ++ w).toList)))) ∧
      ∀ d, tokenize b file = .error d →
        tokenize (a ++ w ++ b) file = .error (d.shift (byteLength (a ++ w).toList))) ∧
    ∀ d, tokenize a file = .error d → tokenize (a ++ w ++ b) file = .error d := by
  have hwhole : Cursor.ofText (a ++ w ++ b) file =
      (Cursor.ofText a file).extend (w.toList ++ b.toList) := by
    simp [Cursor.ofText, Cursor.extend]
  have hmore : Parts (w.toList ++ b.toList) := by
    cases hlist : w.toList with
    | nil => exact absurd (String.toList_eq_nil_iff.mp hlist) hw
    | cons c cs => exact parts_of_isBlank (hblank c (hlist ▸ List.mem_cons_self)) _
  unfold tokenize
  rw [hwhole]
  refine ⟨fun ta e ha => ?_, fun d ha => Cursor.tokens_extend_of_error hmore ha⟩
  rw [Cursor.tokens_extend_of_ok hmore ha, Cursor.tokens_pastRest hblank, Cursor.tokens_shift]
  constructor
  · intro tb hb
    rw [hb]
    rfl
  · intro d hb
    rw [hb]
    rfl

/-- A numeral before a blank of two bytes, and a letter of two bytes at the seam. -/
theorem tokenize_append_blanks_wide :
    tokenize "x 1.5" none = .ok [⟨.ident, "x", ⟨0, 1, "shell"⟩⟩,
        ⟨.floatConst, "1.5", ⟨2, 5, "shell"⟩⟩, ⟨.eof, "", ⟨5, 5, "shell"⟩⟩] ∧
      Blank "\u00a0".toList ∧
      tokenize ("x 1.5" ++ "\u00a0" ++ "ö 2") none = .ok [⟨.ident, "x", ⟨0, 1, "shell"⟩⟩,
        ⟨.floatConst, "1.5", ⟨2, 5, "shell"⟩⟩, ⟨.ident, "ö", ⟨7, 9, "shell"⟩⟩,
        ⟨.intConst, "2", ⟨10, 11, "shell"⟩⟩, ⟨.eof, "", ⟨11, 11, "shell"⟩⟩] := by
  have ha : tokenize "x 1.5" none = .ok ([⟨.ident, "x", ⟨0, 1, "shell"⟩⟩,
      ⟨.floatConst, "1.5", ⟨2, 5, "shell"⟩⟩] ++ [⟨.eof, "", ⟨5, 5, "shell"⟩⟩]) := by
    decide +kernel
  have hb : tokenize "ö 2" none = .ok [⟨.ident, "ö", ⟨0, 2, "shell"⟩⟩,
      ⟨.intConst, "2", ⟨3, 4, "shell"⟩⟩, ⟨.eof, "", ⟨4, 4, "shell"⟩⟩] := by decide +kernel
  have hblank : Blank "\u00a0".toList := List.forall_mem_singleton.mpr (by decide +kernel)
  exact ⟨ha, hblank,
    ((tokenize_append_blanks "x 1.5" "\u00a0" "ö 2" none (by decide) hblank).1 _ _ ha).1 _ hb⟩

end Abacus
