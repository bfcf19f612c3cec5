import Abacus.Proofs.Lexing.Numerals
import Abacus.Proofs.Writing.Spelling

/-!
# The classes of lexemes

`IsLexeme kind text` says what the texts of each kind of token are, by their characters alone: the
two words for types, the other words, the numerals of either type, and the eleven marks. `NoLexeme`
says how a text can go on with none of them.

* `isLexeme_of_lexeme` — what is read as a lexeme is one, of the kind of its class.
* `lexeme_eq_error_iff` — a text without one is at fault as `NoLexeme` says, and no other is.
* `Terminal.spelled_iff` — the spelled terminals are the lexemes.
-/

namespace Abacus

open Text

/-! ## Classes -/

/-- A letter, and then letters and numbers. -/
def IsWord : List Char → Prop
  | [] => False
  | c :: cs => isAlphabetic c = true ∧ ∀ d ∈ cs, isAlphabetic d = true ∨ isNumeric d = true

instance : DecidablePred IsWord
  | [] => inferInstanceAs (Decidable False)
  | _ :: cs => @instDecidableAnd _ _ _ (List.decidableBAll _ cs)

/-- A word that names no type. -/
def IsIdentifier (name : String) : Prop :=
  IsWord name.toList ∧ name ≠ "int" ∧ name ≠ "float"

instance : DecidablePred IsIdentifier := fun _ => inferInstanceAs (Decidable (_ ∧ _))

/-- A numeral with at most one dot. It is an `int` iff it has no dot and fits into 64 bits with a
sign, and a `float` otherwise. -/
def IsLiteral (type : NumType) (text : String) : Prop :=
  IsDecimal text.toList ∧ text.toList.count '.' ≤ 1 ∧
    (type = .int ↔ '.' ∉ text.toList ∧ decimalValue text.toList < 2 ^ 63)

instance (type : NumType) : DecidablePred (IsLiteral type) :=
  fun _ => inferInstanceAs (Decidable (_ ∧ _))

/-- The marks and their kinds. -/
def marks : List (Char × TokenKind) :=
  [('=', .assign), ('\x7b', .lbrace), ('\x7d', .rbrace), (',', .comma), (';', .semi), ('/', .div),
    ('*', .mul), ('+', .add), ('-', .sub), ('(', .lparen), (')', .rparen)]

/-- The texts of each kind of token. -/
inductive IsLexeme : TokenKind → String → Prop
  | keyword (type : NumType) : IsLexeme type.keyword type.name
  | identifier {name : String} (h : IsIdentifier name) : IsLexeme .ident name
  | numeral {type : NumType} {text : String} (h : IsLiteral type text) : IsLexeme type.numeral text
  | mark {c : Char} {kind : TokenKind} (h : (c, kind) ∈ marks) : IsLexeme kind (String.ofList [c])

/-- No lexeme starts with this character before these: it is of no class, or it starts a numeral
with two dots or more. -/
inductive NoLexeme (c : Char) (rest : List Char) : Fault → Prop
  | unsupported (hblank : isBlank c = false) (hletter : isAlphabetic c = false)
      (hdigit : c.isDigit = false) (hmark : ∀ kind, (c, kind) ∉ marks) :
      NoLexeme c rest (.unsupported (String.ofList [c]))
  | malformed (hdigit : c.isDigit = true)
      (hdots : 2 ≤ (c :: rest.takeWhile isNumeralPart).count '.') :
      NoLexeme c rest (.malformedNumeral (String.ofList (c :: rest.takeWhile isNumeralPart)))

/-- What follows is not part of the lexeme: no letter or number after a word, no digit or dot after
a numeral. -/
def Ends (text : String) (rest : List Char) : Prop :=
  ∀ d ∈ rest.head?,
    (IsWord text.toList → isAlphabetic d = false ∧ isNumeric d = false) ∧
      (IsDecimal text.toList → d.isDigit = false ∧ d ≠ '.')

/-! ## The tests of the cursor -/

theorem isWordPart_iff {d : Char} :
    isWordPart d = true ↔ isAlphabetic d = true ∨ isNumeric d = true := by
  rw [isWordPart, Bool.or_eq_true]

theorem isNumeralPart_iff {d : Char} : isNumeralPart d = true ↔ d.isDigit = true ∨ d = '.' := by
  rw [isNumeralPart, Bool.or_eq_true, beq_iff_eq]

theorem markKind?_eq_some_iff {c : Char} {kind : TokenKind} :
    markKind? c = some kind ↔ (c, kind) ∈ marks := by
  constructor
  · intro h
    unfold markKind? at h
    split at h
    case h_12 => cases h
    all_goals
      cases h
      decide
  · have hall : ∀ m ∈ marks, markKind? m.1 = some m.2 := by decide
    exact hall (c, kind)

theorem isAlphabetic_of_isDigit {c : Char} (h : c.isDigit = true) : isAlphabetic c = false :=
  inRanges_eq_false_of_apart (by decide +kernel) (inRanges_of_isDigit h)

section Lexemes

variable {c : Char} {cs rest chars : List Char} {kind : TokenKind} {type : NumType} {text : String}
  {fault : Fault}

theorem wordKind_of_isIdentifier (h : IsIdentifier text) : wordKind text = .ident := by
  rw [wordKind, if_neg h.2.1, if_neg h.2.2]

theorem isLexeme_of_isWord (h : IsWord text.toList) : IsLexeme (wordKind text) text := by
  unfold wordKind
  split
  · rename_i hint
    rw [hint]
    exact .keyword .int
  · split
    · rename_i hfloat
      rw [hfloat]
      exact .keyword .float
    · rename_i hint hfloat
      exact .identifier ⟨h, hint, hfloat⟩

/-- A numeral that has a kind is a literal of the type of that kind. -/
theorem isLiteral_of_numeralKind? (h : IsDecimal text.toList) (hk : numeralKind? text = some kind) :
    ∃ type : NumType, kind = type.numeral ∧ IsLiteral type text := by
  have hkind := numeralKind?_of_isDecimal h
  rw [String.ofList_toList, hk] at hkind
  split at hkind
  · rename_i hint
    cases hkind
    have hdots : text.toList.count '.' ≤ 1 := by
      rw [List.count_eq_zero.mpr hint.1]
      exact Nat.zero_le 1
    exact ⟨.int, rfl, h, hdots, iff_of_true rfl hint⟩
  · rename_i hint
    split at hkind
    · rename_i hdots
      cases hkind
      exact ⟨.float, rfl, h, hdots, iff_of_false nofun hint⟩
    · cases hkind

theorem numeralKind?_of_isLiteral (h : IsLiteral type text) :
    numeralKind? text = some type.numeral := by
  obtain ⟨hdecimal, hdots, htype⟩ := h
  have hkind := numeralKind?_of_isDecimal hdecimal
  rw [String.ofList_toList] at hkind
  rw [hkind]
  cases type with
  | int => rw [if_pos (htype.mp rfl)]; rfl
  | float => rw [if_neg (fun hint => nomatch htype.mpr hint), if_pos hdots]; rfl

theorem numeralKind?_eq_none_iff (h : IsDecimal chars) :
    numeralKind? (String.ofList chars) = none ↔ 2 ≤ chars.count '.' := by
  rw [numeralKind?_of_isDecimal h]
  by_cases hint : '.' ∉ chars ∧ decimalValue chars < 2 ^ 63
  · rw [if_pos hint, List.count_eq_zero.mpr hint.1]
    simp
  · rw [if_neg hint]
    split <;> simp <;> omega

/-! ## The longest run -/

theorem continues_of_isWord (h : IsWord chars) : ∃ c ∈ chars.head?, continues c = isWordPart := by
  cases chars with
  | nil => exact h.elim
  | cons c cs => exact ⟨c, rfl, by rw [continues, if_pos h.1]⟩

theorem continues_of_isDecimal (h : IsDecimal chars) :
    ∃ c ∈ chars.head?, continues c = isNumeralPart := by
  cases chars with
  | nil => exact h.elim
  | cons c cs =>
    refine ⟨c, rfl, ?_⟩
    rw [continues, isAlphabetic_of_isDigit h.1, if_neg Bool.false_ne_true, if_pos h.1]

theorem isWord_takeWhile (h : isAlphabetic c = true) (rest : List Char) :
    IsWord (c :: rest.takeWhile isWordPart) :=
  ⟨h, fun _ hd => isWordPart_iff.mp (List.mem_takeWhile_imp hd)⟩

theorem isDecimal_takeWhile (h : c.isDigit = true) (rest : List Char) :
    IsDecimal (c :: rest.takeWhile isNumeralPart) :=
  ⟨h, fun _ hd => isNumeralPart_iff.mp (List.mem_takeWhile_imp hd)⟩

/-- What is read as a lexeme is one. -/
theorem isLexeme_of_lexeme (h : lexeme c rest = .ok (kind, chars)) :
    IsLexeme kind (String.ofList chars) := by
  unfold lexeme at h
  simp only at h
  split at h
  · rename_i hletter
    simp only [Except.ok.injEq, Prod.mk.injEq] at h
    rw [← h.1, ← h.2]
    refine isLexeme_of_isWord ?_
    rw [String.toList_ofList]
    exact isWord_takeWhile hletter rest
  · split at h
    · rename_i hdigit
      have hdecimal := isDecimal_takeWhile hdigit rest
      split at h
      · rename_i hkind
        simp only [Except.ok.injEq, Prod.mk.injEq] at h
        rw [← h.1, ← h.2]
        obtain ⟨type, rfl, hliteral⟩ :=
          isLiteral_of_numeralKind? (by rwa [String.toList_ofList]) hkind
        exact .numeral hliteral
      · cases h
    · split at h
      · rename_i hmark
        simp only [Except.ok.injEq, Prod.mk.injEq] at h
        rw [← h.1, ← h.2]
        exact .mark (markKind?_eq_some_iff.mp hmark)
      · cases h

/-- Where no lexeme can be read, there is none. -/
theorem lexeme_eq_error_iff (hblank : isBlank c = false) :
    lexeme c rest = .error fault ↔ NoLexeme c rest fault := by
  have hmark : markKind? c = none ↔ ∀ kind, (c, kind) ∉ marks := by
    simp only [← markKind?_eq_some_iff]
    rw [Option.eq_none_iff_forall_ne_some]
  constructor
  · intro h
    unfold lexeme at h
    simp only at h
    split at h
    · cases h
    · rename_i hletter
      split at h
      · rename_i hdigit
        split at h
        · cases h
        · rename_i hkind
          cases h
          have hdecimal := isDecimal_takeWhile hdigit rest
          exact .malformed hdigit ((numeralKind?_eq_none_iff hdecimal).mp hkind)
      · rename_i hdigit
        split at h
        · cases h
        · rename_i hnone
          cases h
          exact .unsupported hblank (Bool.eq_false_of_not_eq_true hletter)
            (Bool.eq_false_of_not_eq_true hdigit) (hmark.mp hnone)
  · intro h
    cases h with
    | unsupported _ hletter hdigit hnone =>
      simp only [lexeme, hletter, hdigit, hmark.mpr hnone, Bool.false_eq_true, if_false]
    | malformed hdigit hdots =>
      have hkind := (numeralKind?_eq_none_iff (isDecimal_takeWhile hdigit rest)).mpr hdots
      simp only [lexeme, isAlphabetic_of_isDigit hdigit, hdigit, hkind, Bool.false_eq_true,
        if_false, if_true]

end Lexemes

theorem NoLexeme.isBlank {c : Char} {rest : List Char} {fault : Fault}
    (h : NoLexeme c rest fault) : isBlank c = false := by
  cases h with
  | unsupported hblank _ _ _ => exact hblank
  | malformed hdigit _ =>
    cases hb : Text.isBlank c with
    | false => rfl
    | true => cases (isDigit_of_isBlank hb).symm.trans hdigit

/-! ## Spelled terminals -/

namespace Terminal

variable {x : Terminal} {rest : List Char}

theorem spelled_of_isWord {text : String} (h : IsWord text.toList) :
    Spelled ⟨wordKind text, text⟩ := by
  cases htext : text.toList with
  | nil => rw [htext] at h; exact h.elim
  | cons c cs =>
    rw [htext] at h
    have hcs : cs.takeWhile isWordPart = cs :=
      List.takeWhile_eq_self_iff.mpr fun d hd => isWordPart_iff.mpr (h.2 d hd)
    refine ⟨c, cs, htext, ?_⟩
    simp only [Abacus.lexeme, h.1, if_true, hcs]
    rw [← htext, String.ofList_toList]

theorem spelled_of_isLiteral {type : NumType} {text : String} (h : IsLiteral type text) :
    Spelled ⟨type.numeral, text⟩ := by
  have hkind := numeralKind?_of_isLiteral h
  obtain ⟨hdecimal, -⟩ := h
  cases htext : text.toList with
  | nil => rw [htext] at hdecimal; exact hdecimal.elim
  | cons c cs =>
    rw [htext] at hdecimal
    have hcs : cs.takeWhile isNumeralPart = cs :=
      List.takeWhile_eq_self_iff.mpr fun d hd => isNumeralPart_iff.mpr (hdecimal.2 d hd)
    refine ⟨c, cs, htext, ?_⟩
    simp only [Abacus.lexeme, isAlphabetic_of_isDigit hdecimal.1, hdecimal.1, Bool.false_eq_true,
      if_false, if_true, hcs]
    rw [← htext, String.ofList_toList, hkind]

/-- **The spelled terminals are the lexemes.** -/
theorem spelled_iff : x.Spelled ↔ IsLexeme x.kind x.lexeme := by
  obtain ⟨kind, text⟩ := x
  constructor
  · rintro ⟨c, cs, htext, hlex⟩
    have h := isLexeme_of_lexeme hlex
    rwa [← htext, String.ofList_toList] at h
  · intro h
    cases h with
    | keyword type => cases type <;> exact spelled_of_isWord (by decide)
    | identifier h =>
      have hspelled := spelled_of_isWord h.1
      rwa [wordKind_of_isIdentifier h] at hspelled
    | numeral h => exact spelled_of_isLiteral h
    | mark h =>
      exact ⟨_, [], String.toList_ofList, lexeme_of_markKind? (markKind?_eq_some_iff.mpr h)⟩

theorem Spelled.isWord (hx : x.Spelled) {c : Char} (hc : c ∈ x.lexeme.toList.head?)
    (hletter : isAlphabetic c = true) : IsWord x.lexeme.toList := by
  obtain ⟨c', cs, htext, hlex⟩ := hx
  rw [htext] at hc ⊢
  cases hc
  have hchars := lexeme_chars hlex
  rw [continues, if_pos hletter] at hchars
  rw [hchars]
  exact isWord_takeWhile hletter cs

theorem Spelled.isDecimal (hx : x.Spelled) {c : Char} (hc : c ∈ x.lexeme.toList.head?)
    (hdigit : c.isDigit = true) : IsDecimal x.lexeme.toList := by
  obtain ⟨c', cs, htext, hlex⟩ := hx
  rw [htext] at hc ⊢
  cases hc
  have hchars := lexeme_chars hlex
  rw [continues, isAlphabetic_of_isDigit hdigit, if_neg Bool.false_ne_true, if_pos hdigit] at hchars
  rw [hchars]
  exact isDecimal_takeWhile hdigit cs

/-- A lexeme ends where the next character is not of its class. -/
theorem Spelled.endsBefore_iff (hx : x.Spelled) : x.EndsBefore rest ↔ Ends x.lexeme rest := by
  constructor
  · intro h d hd
    constructor
    · intro hword
      obtain ⟨c, hc, hcontinues⟩ := continues_of_isWord hword
      have hstop := h c hc d hd
      rwa [hcontinues, isWordPart, Bool.or_eq_false_iff] at hstop
    · intro hdecimal
      obtain ⟨c, hc, hcontinues⟩ := continues_of_isDecimal hdecimal
      have hstop := h c hc d hd
      rwa [hcontinues, isNumeralPart, Bool.or_eq_false_iff, beq_eq_false_iff_ne] at hstop
  · intro h c hc d hd
    unfold continues
    split
    · rename_i hletter
      obtain ⟨hd₁, hd₂⟩ := (h d hd).1 (hx.isWord hc hletter)
      rw [isWordPart, hd₁, hd₂, Bool.or_false]
    · split
      · rename_i hdigit
        obtain ⟨hd₁, hd₂⟩ := (h d hd).2 (hx.isDecimal hc hdigit)
        rw [isNumeralPart, hd₁, beq_eq_false_iff_ne.mpr hd₂, Bool.or_false]
      · rfl

end Terminal

end Abacus
