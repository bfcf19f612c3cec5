import Abacus.Proofs.Grammar.Basic
import Abacus.Proofs.Reading.Stream
import Mathlib.Data.List.TakeWhile

/-!
# Spelled texts

A terminal is *spelled* by its lexeme if the lexeme, standing alone, is read whole and with the kind
of the terminal. `Spells chars xs` says that a text consists of the lexemes of `xs` in order, with
blanks between them where one likes, each lexeme followed by a character that does not continue it.

* `Cursor.spelled_of_tokens` — every token that is read is spelled, up to the `eof` at the end.
* `Cursor.tokens_of_spells` — a text that spells `xs` is read as `xs` and the end, from any file and
  offset.

Both rest on one fact: a lexeme is its first character and the longest run of characters that
continue it (`lexeme_chars`), and nothing else of the text decides its kind (`lexeme_takeWhile`).
-/

namespace Abacus

open Text

/-! ## Character classes -/

/-- Sets of ranges that lie apart have no code point in common. -/
theorem Text.inRanges_eq_false_of_apart {as bs : List CodeRange}
    (h : ∀ r ∈ as, ∀ s ∈ bs, r.2 < s.1 ∨ s.2 < r.1) {n : Nat} (hn : inRanges n as = true) :
    inRanges n bs = false := by
  cases hb : inRanges n bs with
  | false => rfl
  | true =>
    obtain ⟨r, hr, hrn⟩ := mem_of_inRanges hn
    obtain ⟨s, hs, hsn⟩ := mem_of_inRanges hb
    have := h r hr s hs
    omega

theorem isAlphabetic_of_isBlank {c : Char} (h : isBlank c = true) : isAlphabetic c = false :=
  inRanges_eq_false_of_apart (by decide +kernel) h

theorem inRanges_of_isDigit {c : Char} (h : c.isDigit = true) :
    inRanges c.toNat [('0'.toNat, '9'.toNat)] = true := by
  have hc := Char.isDigit_iff_toNat.mp h
  simp only [inRanges, Bool.or_false]
  rw [if_neg (by omega), decide_eq_true hc.2]

theorem isDigit_of_isBlank {c : Char} (h : isBlank c = true) : c.isDigit = false := by
  cases hd : c.isDigit with
  | false => rfl
  | true =>
    have hb : inRanges c.toNat blankRanges = false :=
      inRanges_eq_false_of_apart (by decide) (inRanges_of_isDigit hd)
    cases h.symm.trans hb

/-- Marks belong to no other class. -/
theorem class_of_markKind? {c : Char} {kind : TokenKind} (h : markKind? c = some kind) :
    isBlank c = false ∧ isAlphabetic c = false ∧ c.isDigit = false := by
  unfold markKind? at h
  split at h
  case h_12 => cases h
  all_goals decide

/-! ## Lexemes -/

/-- What may go on after the first character of a lexeme. -/
def continues (c : Char) : Char → Bool :=
  if isAlphabetic c then isWordPart
  else if c.isDigit then isNumeralPart
  else fun _ => false

section Lexemes

variable {c : Char} {cs rest chars : List Char} {kind : TokenKind}

/-- A lexeme is as long as the characters continue it. -/
theorem lexeme_chars (h : lexeme c rest = .ok (kind, chars)) :
    chars = c :: rest.takeWhile (continues c) := by
  unfold lexeme at h
  unfold continues
  simp only at h
  split at h <;> rename_i ha
  · simp only [Except.ok.injEq, Prod.mk.injEq] at h
    rw [if_pos ha, ← h.2]
  · split at h <;> rename_i hd
    · split at h
      · simp only [Except.ok.injEq, Prod.mk.injEq] at h
        rw [if_neg ha, if_pos hd, ← h.2]
      · cases h
    · split at h
      · simp only [Except.ok.injEq, Prod.mk.injEq] at h
        rw [if_neg ha, if_neg hd, ← h.2]
        cases rest <;> simp
      · cases h

/-- Characters that do not continue the lexeme have no say in it. -/
theorem lexeme_takeWhile (c : Char) (rest : List Char) :
    lexeme c (rest.takeWhile (continues c)) = lexeme c rest := by
  unfold lexeme continues
  by_cases ha : isAlphabetic c
  · simp only [if_pos ha, List.takeWhile_idem]
  · by_cases hd : c.isDigit
    · simp only [if_neg ha, if_pos hd, List.takeWhile_idem]
    · simp only [if_neg ha, if_neg hd]

theorem lexeme_congr {rest' : List Char}
    (h : rest.takeWhile (continues c) = rest'.takeWhile (continues c)) :
    lexeme c rest = lexeme c rest' := by
  rw [← lexeme_takeWhile, h, lexeme_takeWhile]

/-- No lexeme starts with a blank. -/
theorem isBlank_of_lexeme (h : lexeme c rest = .ok (kind, chars)) : isBlank c = false := by
  cases hb : isBlank c with
  | false => rfl
  | true =>
    unfold lexeme at h
    simp only [isAlphabetic_of_isBlank hb, isDigit_of_isBlank hb, Bool.false_eq_true, if_false] at h
    split at h
    · rename_i hm
      cases hb.symm.trans (class_of_markKind? hm).1
    · cases h

theorem lexeme_of_markKind? (h : markKind? c = some kind) : lexeme c rest = .ok (kind, [c]) := by
  obtain ⟨-, ha, hd⟩ := class_of_markKind? h
  simp only [lexeme, ha, hd, h, Bool.false_eq_true, if_false]

theorem continues_of_markKind? (h : markKind? c = some kind) (d : Char) :
    continues c d = false := by
  obtain ⟨-, ha, hd⟩ := class_of_markKind? h
  simp only [continues, ha, hd, Bool.false_eq_true, if_false]

end Lexemes

/-! ## Spelled terminals -/

namespace Terminal

/-- The lexeme, standing alone, is read whole and with the kind. -/
def Spelled (x : Terminal) : Prop :=
  ∃ c cs, x.lexeme.toList = c :: cs ∧ Abacus.lexeme c cs = .ok (x.kind, c :: cs)

/-- What follows does not continue the lexeme. -/
def EndsBefore (x : Terminal) (rest : List Char) : Prop :=
  ∀ c ∈ x.lexeme.toList.head?, ∀ d ∈ rest.head?, continues c d = false

theorem spelled_of_lexeme {c : Char} {rest chars : List Char} {kind : TokenKind}
    (h : Abacus.lexeme c rest = .ok (kind, chars)) : Spelled ⟨kind, String.ofList chars⟩ := by
  have hchars := lexeme_chars h
  refine ⟨c, rest.takeWhile (continues c), ?_, ?_⟩
  · rw [hchars, String.toList_ofList]
  · rw [lexeme_takeWhile, h, hchars]

/-- A spelled lexeme is read again wherever it ends. -/
theorem Spelled.lexeme_append {x : Terminal} {rest : List Char} (hx : x.Spelled)
    (hends : x.EndsBefore rest) : ∃ c cs, x.lexeme.toList = c :: cs ∧
      Abacus.lexeme c (cs ++ rest) = .ok (x.kind, c :: cs) := by
  obtain ⟨c, cs, hchars, hlex⟩ := hx
  refine ⟨c, cs, hchars, ?_⟩
  have hcs : cs = cs.takeWhile (continues c) := (List.cons.inj (lexeme_chars hlex)).2
  have hin : ∀ d ∈ cs, continues c d := List.takeWhile_eq_self_iff.mp hcs.symm
  have hout : rest.takeWhile (continues c) = [] := by
    cases rest with
    | nil => rfl
    | cons d rest =>
      have := hends c (by rw [hchars]; rfl) d rfl
      rw [List.takeWhile_cons_of_neg (by rw [this]; simp)]
  rw [← hlex]
  refine lexeme_congr ?_
  rw [List.takeWhile_append_of_pos hin, hout, List.append_nil, ← hcs]

end Terminal

namespace Cursor

variable {c c' : Cursor} {t : Token} {x : Terminal} {rest : List Char}

/-- Blanks before a token change nothing but its place. -/
theorem next_of_blank {b : Char} (hb : isBlank b = true) (hrest : c.rest = b :: rest) :
    c.next = (⟨c.file, c.offset + b.utf8Size, rest⟩ : Cursor).next := by
  have hskip : c.skipBlanks = (⟨c.file, c.offset + b.utf8Size, rest⟩ : Cursor).skipBlanks := by
    simp only [skipBlanks, hrest, List.takeWhile_cons_of_pos hb, List.dropWhile_cons_of_pos hb,
      byteLength_cons, Nat.add_assoc]
  simp only [next, hskip]

/-- Where a spelled lexeme stands, it is the next token. -/
theorem next_of_spelled (hx : x.Spelled) (hends : x.EndsBefore rest)
    (hrest : c.rest = x.lexeme.toList ++ rest) :
    ∃ t c', c.next = (.ok t, c') ∧ t.terminal = x ∧ c'.rest = rest := by
  obtain ⟨ch, cs, hchars, hlex⟩ := hx.lexeme_append hends
  rw [hchars, List.cons_append] at hrest
  have hskip : c.skipBlanks = c := by
    have hb : ¬ isBlank ch = true := by rw [isBlank_of_lexeme hlex]; simp
    obtain ⟨file, offset, chars⟩ := c
    subst hrest
    simp only [skipBlanks, List.takeWhile_cons_of_neg hb, List.dropWhile_cons_of_neg hb,
      byteLength_nil, Nat.add_zero]
  refine ⟨c.token x.kind (ch :: cs), c.past (ch :: cs), ?_, ?_, ?_⟩
  · simp only [next, hskip]
    split
    · simp_all
    · rename_i ch' rest' hrest'
      rw [hrest] at hrest'
      obtain ⟨rfl, rfl⟩ := List.cons.inj hrest'
      rw [hlex]
  · rw [Token.terminal, token, ← hchars, String.ofList_toList]
  · rw [past, hrest]
    simp

/-- Every token but `eof` is spelled. -/
theorem spelled_of_next (h : c.next = (.ok t, c')) (ht : t.kind ≠ .eof) : t.terminal.Spelled := by
  obtain ⟨_, _, _, _, -, hlex, rfl, -⟩ := of_next_ok h ht
  exact Terminal.spelled_of_lexeme hlex

/-- **What is read is spelled**: the tokens of a text are spelled ones and then the end. -/
theorem spelled_of_tokens {ts : List Token} (h : c.tokens = .ok ts) :
    ∃ us e, ts = us ++ [e] ∧ e.kind = .eof ∧ ∀ t ∈ us, t.terminal.Spelled := by
  fun_induction produced c generalizing ts with
  | case1 c d c' hn => rw [tokens_of_error hn] at h; cases h
  | case2 c t c' hn ht =>
    rw [tokens_of_eof hn ht] at h
    cases h
    exact ⟨[], t, rfl, ht, List.forall_mem_nil _⟩
  | case3 c t c' hn ht _ ih =>
    rw [tokens_of_ok hn ht] at h
    cases hts : c'.tokens with
    | error d => rw [hts] at h; cases h
    | ok ts' =>
      rw [hts] at h
      cases h
      obtain ⟨us, e, rfl, he, hus⟩ := ih hts
      exact ⟨t :: us, e, rfl, he, List.forall_mem_cons.mpr ⟨spelled_of_next hn ht, hus⟩⟩

end Cursor

/-! ## Spelled texts -/

/-- The characters are the lexemes of the terminals, in order and with blanks around them. -/
inductive Spells : List Char → List Terminal → Prop
  | nil : Spells [] []
  | blank {b : Char} {chars : List Char} {xs : List Terminal} (hb : isBlank b = true)
      (h : Spells chars xs) : Spells (b :: chars) xs
  | lexeme {x : Terminal} {chars : List Char} {xs : List Terminal} (hx : x.Spelled)
      (hends : x.EndsBefore chars) (h : Spells chars xs) :
      Spells (x.lexeme.toList ++ chars) (x :: xs)

/-- A character that continues no lexeme stands first, if any does. -/
def Parts (chars : List Char) : Prop :=
  ∀ d ∈ chars.head?, isWordPart d = false ∧ isNumeralPart d = false

theorem continues_of_parts {chars : List Char} (h : Parts chars) (c : Char) :
    ∀ d ∈ chars.head?, continues c d = false := by
  intro d hd
  unfold continues
  split
  · exact (h d hd).1
  · split
    · exact (h d hd).2
    · rfl

theorem Terminal.endsBefore_of_parts {chars : List Char} (h : Parts chars) (x : Terminal) :
    x.EndsBefore chars :=
  fun c _ => continues_of_parts h c

namespace Spells

variable {x : Terminal} {chars : List Char} {xs : List Terminal}

theorem word (hx : x.Spelled) (hparts : Parts chars) (h : Spells chars xs) :
    Spells (x.lexeme.toList ++ chars) (x :: xs) :=
  .lexeme hx (x.endsBefore_of_parts hparts) h

/-- Anything may follow a mark. -/
theorem mark {m : Char} (hx : x.lexeme.toList = [m]) (hm : markKind? m = some x.kind)
    (h : Spells chars xs) : Spells (m :: chars) (x :: xs) := by
  have hends : x.EndsBefore chars := by
    intro c hc d _
    rw [hx] at hc
    cases hc
    exact continues_of_markKind? hm d
  have hx' : x.Spelled := ⟨m, [], hx, lexeme_of_markKind? hm⟩
  have := Spells.lexeme hx' hends h
  rwa [hx] at this

end Spells

namespace Cursor

theorem tokens_congr {c c' : Cursor} (h : c.next = c'.next) : c.tokens = c'.tokens := by
  rcases hn : c.next with ⟨d | t, c''⟩ <;> have hn' := h.symm.trans hn
  · rw [tokens_of_error hn, tokens_of_error hn']
  · by_cases ht : t.kind = .eof
    · rw [tokens_of_eof hn ht, tokens_of_eof hn' ht]
    · exact (tokens_of_ok hn ht).trans (tokens_of_ok hn' ht).symm

/-- **A spelled text is read as what it spells**, whatever its file and offset. -/
theorem tokens_of_spells {c : Cursor} {xs : List Terminal} (h : Spells c.rest xs) :
    ∃ ts, c.tokens = .ok ts ∧ terminals ts = xs ++ [⟨.eof, ""⟩] := by
  generalize hrest : c.rest = chars at h
  induction h generalizing c with
  | nil => exact ⟨_, tokens_of_eof (next_of_rest_nil hrest) rfl, rfl⟩
  | blank hb _ ih =>
    obtain ⟨ts, hts, hxs⟩ := ih (c := ⟨c.file, _, _⟩) rfl
    exact ⟨ts, by rw [tokens_congr (next_of_blank hb hrest), hts], hxs⟩
  | @lexeme x chars xs hx hends _ ih =>
    obtain ⟨t, c', hn, rfl, hrest'⟩ := next_of_spelled hx hends hrest
    obtain ⟨ts, hts, hxs⟩ := ih hrest'
    have ht : t.kind ≠ .eof := by
      obtain ⟨ch, cs, -, hlex⟩ := hx
      exact lexeme_kind_ne_eof hlex
    exact ⟨t :: ts, by rw [tokens_of_ok hn ht, hts]; rfl, congrArg (t.terminal :: ·) hxs⟩

end Cursor

end Abacus
