import Abacus.Proofs.Lexing.Numerals
import Abacus.Proofs.Numbers.Doubles

/-!
# Whole numbers are written exactly

A whole `int` value is written by one of two routes: through a 64-bit integer within the range of
those, and from its exact digits beyond. `Value.text_of_whole` says that they follow one rule. For
every bit pattern of a whole number the text is its decimal numeral and the only one
(`IsNumeralOf`), the first route is taken exactly from `-2 ^ 63` to below `2 ^ 63`, and the cast on
it loses nothing.

The numeral is stated on the text: digits that have the number as their value in base ten, no zero
before another digit, and a minus sign for a negative number only, so both zeros are `0`.
-/

namespace Abacus

namespace Decimal

/-! ## Numerals -/

/-- The decimal digits of a natural number, without a needless zero. -/
structure IsDigitsOf (n : Nat) (digits : List Char) : Prop where
  ne_nil : digits ≠ []
  isDigit : ∀ c ∈ digits, c.isDigit = true
  eq_zero_of_head : digits.head? = some '0' → digits = ['0']
  value : decimalValue digits = n

/-- The decimal numeral of a whole number: its digits, after a minus sign if it is negative. -/
def IsNumeralOf (z : ℤ) (text : String) : Prop :=
  ∃ digits, IsDigitsOf z.natAbs digits ∧ text.toList = if z < 0 then '-' :: digits else digits

theorem decimalValue_toDigits (n : Nat) : decimalValue (Nat.toDigits 10 n) = n := by
  rw [← digitsValue_eq]
  exact Nat.ofDigitChars_ten_toDigits

theorem decimalValue_nil : decimalValue [] = 0 := rfl

theorem decimalValue_concat (digits : List Char) (c : Char) :
    decimalValue (digits ++ [c]) = 10 * decimalValue digits + (c.toNat - '0'.toNat) := by
  rw [← digitsValue_eq, ← digitsValue_eq, digitsValue, digitsValue, List.foldl_append]
  rfl

/-- Only the digits of zero begin with a zero. -/
theorem eq_zero_of_head?_toDigits {n : Nat} (h : (Nat.toDigits 10 n).head? = some '0') :
    n = 0 := by
  induction n using Nat.strongRecOn with
  | ind n ih =>
    by_cases hn : n < 10
    · rw [Nat.toDigits_of_lt_base hn, List.head?_cons, Option.some_inj,
        Nat.digitChar_eq_zero] at h
      exact h
    · rw [Nat.toDigits_of_base_le (by decide) (by omega),
        List.head?_append, Option.or_of_isSome (by simp [Nat.toDigits_ne_nil])] at h
      have := ih (n / 10) (by omega) h
      omega

theorem isDigitsOf_toDigits (n : Nat) : IsDigitsOf n (Nat.toDigits 10 n) where
  ne_nil := Nat.toDigits_ne_nil
  isDigit _ hc := Nat.isDigit_of_mem_toDigits (by decide) (by decide) hc
  eq_zero_of_head h := by rw [eq_zero_of_head?_toDigits h, Nat.toDigits_zero]
  value := decimalValue_toDigits n

theorem digitChar_of_isDigit {c : Char} (h : c.isDigit) :
    c.toNat - '0'.toNat < 10 ∧ (c.toNat - '0'.toNat).digitChar = c := by
  have hbounds := Char.isDigit_iff_toNat.mp h
  have hzero : '0'.toNat = 48 := rfl
  have hnine : '9'.toNat = 57 := rfl
  have hlt : c.toNat - '0'.toNat < 10 := by omega
  refine ⟨hlt, ?_⟩
  rw [← Char.toNat_inj, Nat.toNat_digitChar_of_lt_ten hlt]
  omega

theorem IsDigitsOf.eq_toDigits {n : Nat} {digits : List Char} (h : IsDigitsOf n digits) :
    digits = Nat.toDigits 10 n := by
  obtain ⟨hne, hdigit, hhead, rfl⟩ := h
  induction digits using List.reverseRecOn with
  | nil => exact absurd rfl hne
  | append_singleton front c ih =>
    obtain ⟨hlt, hchar⟩ := digitChar_of_isDigit (hdigit c (by simp))
    have hlast : Nat.toDigits 10 (c.toNat - '0'.toNat) = [c] := by
      rw [Nat.toDigits_of_lt_base hlt, hchar]
    rw [decimalValue_concat]
    cases front with
    | nil =>
      rw [decimalValue_nil, Nat.mul_zero, Nat.zero_add, hlast]
      rfl
    | cons d ds =>
      have hd : d ≠ '0' := by
        rintro rfl
        simpa using hhead rfl
      have hfront := ih (List.cons_ne_nil _ _) (fun e he => hdigit e (List.mem_append_left _ he))
        fun h => absurd (Option.some.inj h) hd
      have hpos : 0 < decimalValue (d :: ds) := by
        apply Nat.pos_of_ne_zero
        intro hzero
        rw [hzero, Nat.toDigits_zero] at hfront
        exact hd (List.cons.inj hfront).1
      rw [← Nat.toDigits_append_toDigits (by decide) hpos hlt, ← hfront, hlast]

theorem isDigitsOf_iff {n : Nat} {digits : List Char} :
    IsDigitsOf n digits ↔ digits = Nat.toDigits 10 n :=
  ⟨IsDigitsOf.eq_toDigits, fun h => h ▸ isDigitsOf_toDigits n⟩

theorem toString_of_nonneg {z : ℤ} (h : 0 ≤ z) : toString z = toString z.natAbs := by
  obtain ⟨n, rfl⟩ := Int.eq_ofNat_of_zero_le h
  rfl

theorem toString_of_neg {z : ℤ} (h : z < 0) : toString z = "-" ++ toString z.natAbs := by
  obtain ⟨n, rfl⟩ := Int.eq_negSucc_of_lt_zero h
  rfl

/-- Writing a whole number gives its numeral, and there is no other. -/
theorem isNumeralOf_iff {z : ℤ} {text : String} : IsNumeralOf z text ↔ text = toString z := by
  have hlist : text = toString z ↔
      text.toList = if z < 0 then '-' :: Nat.toDigits 10 z.natAbs
        else Nat.toDigits 10 z.natAbs := by
    have hdigits : (toString z.natAbs).toList = Nat.toDigits 10 z.natAbs := Nat.toList_repr
    rw [← String.toList_inj]
    split
    case isTrue hz =>
      rw [toString_of_neg hz, String.toList_append, hdigits]
      rfl
    case isFalse hz => rw [toString_of_nonneg (not_lt.mp hz), hdigits]
  simp only [IsNumeralOf, isDigitsOf_iff, exists_eq_left, hlist]

end Decimal

/-! ## Values -/

namespace Value

open Abacus.Decimal

variable {bits : UInt64} {z : ℤ}

theorem natAbs_eq {negative : Bool} {m : Nat} {q : ℤ}
    (h : (z : ℚ) = signFactor negative * (m * 2 ^ q)) : (z.natAbs : ℚ) = m * 2 ^ q := by
  have hsign : |signFactor negative| = 1 := by
    cases negative
    · exact abs_one
    · rw [signFactor_true, abs_neg, abs_one]
  rw [Nat.cast_natAbs, Int.cast_abs, h, abs_mul, hsign, one_mul, abs_of_nonneg (by positivity)]

/-- A sign and a magnitude spell a number that is not zero. -/
theorem signText_append {negative : Bool} {m : Nat} {q : ℤ}
    (h : (z : ℚ) = signFactor negative * (m * 2 ^ q)) (hz : z ≠ 0) :
    signText negative ++ toString z.natAbs = toString z := by
  have hm : (0 : ℚ) ≤ m * 2 ^ q := by positivity
  cases negative with
  | false =>
    rw [signFactor_false, one_mul] at h
    have hnonneg : 0 ≤ z := by exact_mod_cast h ▸ hm
    rw [toString_of_nonneg hnonneg]
    exact String.empty_append
  | true =>
    rw [signFactor_true, neg_one_mul] at h
    have hnonpos : z ≤ 0 := by exact_mod_cast h ▸ neg_nonpos.mpr hm
    rw [toString_of_neg (lt_of_le_of_ne hnonpos hz)]
    rfl

theorem withinInt64_ofBits (h : numberOf? bits = some (z : ℚ)) :
    withinInt64 (Float.ofBits bits) = true ↔ -2 ^ 63 ≤ z ∧ z < 2 ^ 63 := by
  have hiff := withinInt64_iff (stands_ofBits h)
  norm_cast at hiff

/-- The two routes write the same text. -/
theorem text_eq_toString (h : numberOf? bits = some (z : ℚ)) :
    (⟨.int, Float.ofBits bits⟩ : Value).text = toString z := by
  obtain ⟨m, q, hbits, hz⟩ := ofBits_of_numberOf? h
  rw [text, intText, toBits_ofBits h, hbits]
  simp only [whole?_of_whole (natAbs_eq hz)]
  split
  case isTrue hin =>
    obtain ⟨hlow, hhigh⟩ := (withinInt64_ofBits h).mp hin
    change toString (toInt64 _).toInt = _
    rw [toInt_toInt64 (stands_ofBits h) hlow hhigh]
  case isFalse hout =>
    refine signText_append hz ?_
    rintro rfl
    exact hout ((withinInt64_ofBits h).mpr (by decide))

/-- **A whole number is written exactly**, on either side of the range of 64-bit integers. -/
theorem text_of_whole (h : numberOf? bits = some (z : ℚ)) :
    (∀ text, IsNumeralOf z text ↔ text = (⟨.int, Float.ofBits bits⟩ : Value).text) ∧
      (withinInt64 (Float.ofBits bits) = true ↔ -2 ^ 63 ≤ z ∧ z < 2 ^ 63) ∧
      (-2 ^ 63 ≤ z → z < 2 ^ 63 → (toInt64 (Float.ofBits bits)).toInt = z) := by
  refine ⟨?_, withinInt64_ofBits h, toInt_toInt64 (stands_ofBits h)⟩
  intro text
  rw [text_eq_toString h, isNumeralOf_iff]

/-- Both bounds of the range and the negative zero: the upper bound is just outside. -/
theorem text_of_whole_bounds :
    IsNumeralOf (2 ^ 63) (⟨.int, Float.ofBits 0x43e0000000000000⟩ : Value).text ∧
      withinInt64 (Float.ofBits 0x43e0000000000000) = false ∧
      IsNumeralOf (-2 ^ 63) (⟨.int, Float.ofBits 0xc3e0000000000000⟩ : Value).text ∧
      (toInt64 (Float.ofBits 0xc3e0000000000000)).toInt = -2 ^ 63 ∧
      IsNumeralOf 0 (⟨.int, Float.ofBits 0x8000000000000000⟩ : Value).text := by
  have habove : numberOf? 0x43e0000000000000 = some ((2 ^ 63 : ℤ) : ℚ) := by decide +kernel
  have hbelow : numberOf? 0xc3e0000000000000 = some ((-2 ^ 63 : ℤ) : ℚ) := by decide +kernel
  have hzero : numberOf? 0x8000000000000000 = some ((0 : ℤ) : ℚ) := by decide +kernel
  obtain ⟨habove_text, habove_within, -⟩ := text_of_whole habove
  obtain ⟨hbelow_text, -, hbelow_cast⟩ := text_of_whole hbelow
  refine ⟨(habove_text _).mpr rfl, ?_, (hbelow_text _).mpr rfl, hbelow_cast (by decide) (by decide),
    ((text_of_whole hzero).1 _).mpr rfl⟩
  rw [← Bool.not_eq_true, habove_within]
  decide

end Value

end Abacus
