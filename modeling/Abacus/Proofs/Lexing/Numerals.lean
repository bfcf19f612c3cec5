import Abacus.Token.Cursor
import Mathlib.Data.Nat.Digits.Defs

/-!
# Numerals

A numeral is a digit followed by digits and dots. How it is classed depends on two things only: the
number of its dots, and the value of its digits if it has none.

* `readInt?_of_isDecimal` — it is read as a whole number iff it has no dot and is below `2 ^ 63`,
  and then as its value in base ten.
* `isSome_readNumeral?_iff` — it is read as a number at all iff it has at most one dot.
* `numeralKind?_of_isDecimal` — so it is an integer, a float or malformed.
-/

namespace Abacus

open Decimal

/-- A digit, and then digits and dots. -/
def IsDecimal : List Char → Prop
  | [] => False
  | c :: cs => c.isDigit = true ∧ ∀ d ∈ cs, d.isDigit = true ∨ d = '.'

instance : DecidablePred IsDecimal
  | [] => inferInstanceAs (Decidable False)
  | _ :: cs => @instDecidableAnd _ _ _ (List.decidableBAll _ cs)

/-- The value of digits in base ten, the last one counting least. -/
def decimalValue (digits : List Char) : Nat :=
  Nat.ofDigits 10 (digits.reverse.map fun c => c.toNat - '0'.toNat)

/-- Folding over the digits computes the value in base ten. -/
theorem digitsValue_eq (digits : List Char) : digitsValue digits = decimalValue digits := by
  rw [decimalValue, Nat.ofDigits_eq_foldr, List.foldr_map, List.foldr_reverse, digitsValue]
  congr 1
  funext n c
  simp only [Nat.cast_id]
  omega

/-! ## Digits and dots -/

/-- A run ends at a character that is not of its class. -/
theorem head?_dropWhile_eq_false (p : Char → Bool) (chars : List Char) :
    ∀ d ∈ (chars.dropWhile p).head?, p d = false := by
  intro d hd
  have hhead := List.head?_dropWhile_not p chars
  rw [Option.mem_def.mp hd] at hhead
  simpa using hhead

theorem not_isDigit_dot : ('.' : Char).isDigit = false := rfl

section Decimal

variable {c : Char} {cs chars : List Char}

theorem IsDecimal.isDigit_or_dot (h : IsDecimal chars) :
    ∀ d ∈ chars, d.isDigit = true ∨ d = '.' := by
  cases chars with
  | nil => exact h.elim
  | cons c cs => exact List.forall_mem_cons.mpr ⟨Or.inl h.1, h.2⟩

/-- Without a dot there are only digits. -/
theorem all_isDigit_iff (h : ∀ d ∈ chars, d.isDigit = true ∨ d = '.') :
    chars.all Char.isDigit = true ↔ '.' ∉ chars := by
  rw [List.all_eq_true]
  constructor
  · intro hall hdot
    exact absurd (hall _ hdot) (by simp [not_isDigit_dot])
  · intro hdot d hd
    rcases h d hd with hdigit | rfl
    · exact hdigit
    · exact absurd hd hdot

/-- Digits and dots are a run of digits, and then nothing or a dot and the rest. -/
theorem dropWhile_isDigit_of_dots (h : ∀ d ∈ chars, d.isDigit = true ∨ d = '.') :
    chars.dropWhile Char.isDigit = [] ∧ '.' ∉ chars ∨
      ∃ rest, chars.dropWhile Char.isDigit = '.' :: rest ∧
        chars.count '.' = rest.count '.' + 1 ∧ ∀ d ∈ rest, d.isDigit = true ∨ d = '.' := by
  induction chars with
  | nil => exact Or.inl ⟨rfl, List.not_mem_nil⟩
  | cons c cs ih =>
    obtain ⟨hc, hcs⟩ := List.forall_mem_cons.mp h
    rcases hc with hdigit | rfl
    · have hne : c ≠ '.' := by
        rintro rfl
        cases not_isDigit_dot.symm.trans hdigit
      rw [List.dropWhile_cons_of_pos hdigit, List.count_cons_of_ne hne, List.mem_cons, not_or]
      rcases ih hcs with ⟨hnil, hdot⟩ | hrest
      · exact Or.inl ⟨hnil, hne.symm, hdot⟩
      · exact Or.inr hrest
    · refine Or.inr ⟨cs, ?_, List.count_cons_self, hcs⟩
      rw [List.dropWhile_cons_of_neg (by simp [not_isDigit_dot])]

/-! ## Reading -/

theorem splitSign_of_isDigit (h : c.isDigit = true) (cs : List Char) :
    splitSign (c :: cs) = (false, c :: cs) := by
  have hminus : c ≠ '-' := by rintro rfl; cases h
  have hplus : c ≠ '+' := by rintro rfl; cases h
  rw [splitSign, if_neg hminus, if_neg hplus]

theorem toLower_of_isDigit (h : c.isDigit = true) : c.toLower = c := by
  have hdigit := Char.isDigit_iff_toNat.mp h
  unfold Char.toLower
  refine dif_neg fun hupper => ?_
  have hle : 'A'.toNat ≤ c.toNat := UInt32.le_iff_toNat_le.mp hupper.1
  exact absurd (Nat.le_trans hle hdigit.2) (by decide)

/-- **A whole number** has no dot and fits; it is read as its value. -/
theorem readInt?_of_isDecimal (h : IsDecimal chars) :
    readInt? (String.ofList chars) =
      if '.' ∉ chars ∧ decimalValue chars < 2 ^ 63 then some (decimalValue chars : Int)
      else none := by
  have hall := all_isDigit_iff h.isDigit_or_dot
  cases chars with
  | nil => exact h.elim
  | cons c cs =>
    rw [readInt?, String.toList_ofList, readSigned?, splitSign_of_isDigit h.1]
    simp only [readNat?, List.isEmpty_cons, Bool.false_eq_true, if_false]
    by_cases hdot : '.' ∈ c :: cs
    · rw [if_neg (mt hall.mp (not_not_intro hdot)), if_neg fun hand => hand.1 hdot]
      rfl
    · rw [if_pos (hall.mpr hdot), digitsValue_eq, Option.map_some, Option.filter_some]
      have hfits : fitsInt64 (signed false (decimalValue (c :: cs))) =
          decide (decimalValue (c :: cs) < 2 ^ 63) := by
        simp only [fitsInt64, signed, Bool.false_eq_true, if_false]
        rw [Bool.eq_iff_iff, Bool.and_eq_true, decide_eq_true_iff, decide_eq_true_iff,
          decide_eq_true_iff]
        omega
      rw [hfits]
      simp only [hdot, not_false_eq_true, true_and, decide_eq_true_eq]
      rfl

/-- No exponent follows digits and dots. -/
theorem isSome_readExponent?_iff (h : ∀ d ∈ chars, d.isDigit = true ∨ d = '.')
    (hhead : ∀ d ∈ chars.head?, d.isDigit = false) :
    (readExponent? chars).isSome ↔ chars = [] := by
  cases chars with
  | nil => simp [readExponent?]
  | cons d ds =>
    have hd : d = '.' := by
      rcases h d List.mem_cons_self with hdigit | hdot
      · cases (hhead d rfl).symm.trans hdigit
      · exact hdot
    rw [hd]
    simp [readExponent?]

/-- Digits with at most one dot are read to their end. -/
theorem isSome_readFinite?_iff (h : IsDecimal chars) :
    (readFinite? false chars).isSome ↔ chars.count '.' ≤ 1 := by
  have hwhole : (chars.takeWhile Char.isDigit).isEmpty = false := by
    cases chars with
    | nil => exact h.elim
    | cons c cs => rw [List.takeWhile_cons_of_pos h.1]; rfl
  rcases dropWhile_isDigit_of_dots h.isDigit_or_dot with ⟨hnil, hdot⟩ | ⟨rest, hrest, hcount, hdots⟩
  · simp only [readFinite?, hnil, hwhole, Bool.false_and, Bool.false_eq_true, if_false]
    simp [readExponent?, List.count_eq_zero.mpr hdot]
  · simp only [readFinite?, hrest, hwhole, Bool.false_and, Bool.false_eq_true, if_false,
      Option.isSome_map]
    have htail : ∀ d ∈ rest.dropWhile Char.isDigit, d.isDigit = true ∨ d = '.' :=
      fun d hd => hdots d ((List.dropWhile_suffix _).subset hd)
    rw [isSome_readExponent?_iff htail (head?_dropWhile_eq_false Char.isDigit rest), hcount]
    rcases dropWhile_isDigit_of_dots hdots with ⟨hnil, hdot⟩ | ⟨rest', hrest', hcount', -⟩
    · simp [hnil, List.count_eq_zero.mpr hdot]
    · simp [hrest', hcount']

/-- **A number** has at most one dot. -/
theorem isSome_readNumeral?_iff (h : IsDecimal chars) :
    (readNumeral? (String.ofList chars)).isSome ↔ chars.count '.' ≤ 1 := by
  have hfinite := isSome_readFinite?_iff h
  cases chars with
  | nil => exact h.elim
  | cons c cs =>
    -- The words for infinity and for no number do not start with a digit.
    have hword : ∀ w : String, (w.toList.head?.all fun d => !d.isDigit) = true →
        String.ofList ((c :: cs).map Char.toLower) ≠ w := by
      rintro w hw rfl
      rw [String.toList_ofList, List.map_cons, toLower_of_isDigit h.1] at hw
      simp [h.1] at hw
    rw [readNumeral?, String.toList_ofList, splitSign_of_isDigit h.1]
    simp only
    rw [if_neg (not_or.mpr ⟨hword "inf" rfl, hword "infinity" rfl⟩), if_neg (hword "nan" rfl)]
    exact hfinite

/-- **The class of a numeral** depends on its dots and its value. -/
theorem numeralKind?_of_isDecimal (h : IsDecimal chars) :
    numeralKind? (String.ofList chars) =
      if '.' ∉ chars ∧ decimalValue chars < 2 ^ 63 then some .intConst
      else if chars.count '.' ≤ 1 then some .floatConst
      else none := by
  have hint : (readInt? (String.ofList chars)).isSome ↔
      '.' ∉ chars ∧ decimalValue chars < 2 ^ 63 := by
    rw [readInt?_of_isDecimal h]
    split <;> simp_all
  rw [numeralKind?]
  simp only [hint, isSome_readNumeral?_iff h]

end Decimal

end Abacus
