import Abacus.Value
import Mathlib

/-!
# Doubles are the numbers of their bit patterns

`numberOf?` reads a bit pattern as the binary64 format lays it down, as an exact rational. It is
stated on the fields of the pattern and shares nothing with the arithmetic of doubles, which packs
and unpacks patterns into a sign, a significand and an exponent.

* `stands_unpack`: what a pattern is unpacked to stands for its number. `Stands` also holds the
  significand to its range, without which comparing exponents first would be wrong.
* `toBits_ofBits`: the double of a finite pattern has that pattern.
* `Stands.compare_eq`, `Stands.toInt_eq`: comparing is comparing the numbers, and cutting off keeps
  a whole number.

From these, the range check of `Value.withinInt64` holds exactly from `-2 ^ 63` to below `2 ^ 63`
(`withinInt64_iff`), although the upper bound is rounded up on its way to a double, and the cast
behind it is exact (`toInt_toInt64`).

That packing undoes unpacking is a lemma of the library (`UnpackedFloat.pack_unpack`). No part of
the library leads to it, so the whole of it is imported.
-/

namespace Abacus.Decimal

open Float.Model (Format UnpackedFloat)
open Float.Model.UnpackedFloat (Sign ExtendedMantissa unpack unpackSign unpackExponent roundToInt)

/-! ## The format -/

/-- The eleven bits of exponent in a pattern. -/
def exponentField (bits : UInt64) : Nat := (bits.toBitVec.extractLsb 62 52).toNat

/-- The fifty-two bits of fraction in a pattern. -/
def fractionField (bits : UInt64) : Nat := (bits.toBitVec.extractLsb 51 0).toNat

/-- The factor of a sign. -/
def signFactor (negative : Bool) : ℚ := if negative then -1 else 1

theorem signFactor_false : signFactor false = 1 := rfl

theorem signFactor_true : signFactor true = -1 := rfl

/-- The number of a bit pattern: the fraction after a leading one, scaled by the exponent. The least
exponent has no leading one and counts as the second; the greatest is for no numbers. -/
def numberOf? (bits : UInt64) : Option ℚ :=
  let sign := signFactor bits.toBitVec.msb
  let fraction : ℚ := fractionField bits / 2 ^ 52
  if exponentField bits = 2047 then none
  else if exponentField bits = 0 then some (sign * 2 ^ (-1022 : ℤ) * fraction)
  else some (sign * 2 ^ (exponentField bits - 1023 : ℤ) * (1 + fraction))

/-- A significand of at most fifty-three bits, and of fewer only with the least exponent. -/
structure Canonical (m : Nat) (q : ℤ) : Prop where
  lt : m < 2 ^ 53
  le : -1074 ≤ q
  normal : q = -1074 ∨ 2 ^ 52 ≤ m

/-- An unpacked double stands for a number. -/
inductive Stands : UnpackedFloat → ℚ → Prop
  | zero (sign : Sign) : Stands (.zero sign) 0
  | positive {m : Nat} {q : ℤ} (hm : 0 < m) (hc : Canonical m q) :
    Stands (.finite .positive m q hm) (m * 2 ^ q)
  | negative {m : Nat} {q : ℤ} (hm : 0 < m) (hc : Canonical m q) :
    Stands (.finite .negative m q hm) (-(m * 2 ^ q))

variable {m m' n : Nat} {q q' z : ℤ} {u u' : UnpackedFloat} {v v' : ℚ} {bits : UInt64} {x y : Float}

theorem Stands.finite (negative : Bool) (hm : 0 < m) (hc : Canonical m q) :
    Stands (.finite (if negative then .negative else .positive) m q hm)
      (signFactor negative * (m * 2 ^ q)) := by
  cases negative with
  | false =>
    rw [signFactor_false, one_mul]
    exact .positive hm hc
  | true =>
    rw [signFactor_true, neg_one_mul]
    exact .negative hm hc

theorem mul_div_two_pow (s x : ℚ) (k : ℤ) : s * 2 ^ k * (x / 2 ^ 52) = s * (x * 2 ^ (k - 52)) := by
  have hk : (2 : ℚ) ^ k = 2 ^ (k - 52) * 2 ^ 52 := by
    rw [← zpow_natCast, ← zpow_add₀ two_ne_zero]
    norm_num
  rw [hk]
  field_simp

/-- The number of a pattern is its significand, scaled, with its sign. -/
theorem numberOf?_cases (h : numberOf? bits = some v) :
    ∃ (m : Nat) (q : ℤ), v = signFactor bits.toBitVec.msb * (m * 2 ^ q) ∧ Canonical m q ∧
      (exponentField bits = 0 ∧ m = fractionField bits ∧ q = -1074 ∨
        exponentField bits ≠ 0 ∧ exponentField bits ≠ 2047 ∧ m = 2 ^ 52 + fractionField bits ∧
          q = exponentField bits - 1075) := by
  have hfraction : fractionField bits < 2 ^ 52 := (bits.toBitVec.extractLsb 51 0).isLt
  rw [numberOf?] at h
  split at h
  case isTrue => cases h
  case isFalse hinf =>
    split at h
    case isTrue hzero =>
      obtain rfl := Option.some.inj h
      refine ⟨fractionField bits, -1074, ?_, ⟨by omega, by omega, .inl rfl⟩, .inl ⟨hzero, rfl, rfl⟩⟩
      exact mul_div_two_pow _ _ _
    case isFalse hzero =>
      obtain rfl := Option.some.inj h
      refine ⟨2 ^ 52 + fractionField bits, exponentField bits - 1075, ?_,
        ⟨by omega, by omega, .inr (by omega)⟩, .inr ⟨hzero, hinf, rfl, rfl⟩⟩
      have hone : (1 + fractionField bits / 2 ^ 52 : ℚ) =
          (2 ^ 52 + fractionField bits) / 2 ^ 52 := by
        field_simp
      rw [hone, mul_div_two_pow]
      push_cast
      congr 3
      omega

/-! ## Unpacking -/

theorem toNat_one_append (b : BitVec n) : (1#1 ++ b).toNat = 2 ^ n + b.toNat := by
  rw [BitVec.toNat_append, ← Nat.shiftLeft_add_eq_or_of_lt b.isLt, BitVec.toNat_one (by decide),
    Nat.one_shiftLeft]

theorem sign_ofBitVec (b : BitVec 64) :
    Sign.ofBitVec (@unpackSign .binary64 b) = if b.msb then .negative else .positive := by
  have hsign : @unpackSign .binary64 b = BitVec.ofBool b.msb := by
    apply BitVec.eq_of_getLsbD_eq
    intro i hi
    obtain rfl : i = 0 := by omega
    rw [BitVec.msb_eq_getLsbD_last, unpackSign, BitVec.getLsbD_cast, BitVec.getLsbD_extractLsb,
      BitVec.getLsbD_ofBool]
    rfl
  rw [hsign]
  cases b.msb <;> rfl

theorem unpackExponent_ne (h : numberOf? bits = some v) :
    @unpackExponent .binary64 bits.toBitVec ≠ -1#11 := by
  intro heq
  have hmax : exponentField bits = 2047 := congrArg BitVec.toNat heq
  rw [numberOf?, if_pos hmax] at h
  cases h

/-- A pattern is unpacked to its number. -/
theorem stands_unpack (h : numberOf? bits = some v) :
    Stands (unpack .binary64 bits.toBitVec) v := by
  have hinf := unpackExponent_ne h
  obtain ⟨m, q, rfl, hc, ⟨he, hm, hq⟩ | ⟨he, -, hm, hq⟩⟩ := numberOf?_cases h
  · have hzero : @unpackExponent .binary64 bits.toBitVec = 0#11 := BitVec.eq_of_toNat_eq he
    rw [unpack, if_neg hinf, if_pos hzero, sign_ofBitVec]
    split
    case isTrue hm0 =>
      obtain rfl : m = 0 := hm.trans (congrArg BitVec.toNat hm0)
      rw [Nat.cast_zero, zero_mul, mul_zero]
      exact .zero _
    case isFalse hm0 =>
      subst hm hq
      rw [hzero]
      exact Stands.finite _ _ hc
  · have hzero : @unpackExponent .binary64 bits.toBitVec ≠ 0#11 :=
      fun h0 => he (congrArg BitVec.toNat h0)
    have hq' : exponentField bits - (Format.binary64.exponentBias + 52 : ℤ) = q := by
      rw [hq]
      rfl
    rw [unpack, if_neg hinf, if_neg hzero, sign_ofBitVec]
    simp only [toNat_one_append]
    subst hm
    rw [← hq'] at hc ⊢
    exact Stands.finite _ _ hc

/-- The double of a pattern has that pattern. -/
theorem toBits_ofBits (h : numberOf? bits = some v) : (Float.ofBits bits).toBits = bits := by
  have hnan : ¬ @UnpackedFloat.isNaNBits .binary64 bits.toBitVec = true :=
    fun hnan => unpackExponent_ne h (of_decide_eq_true hnan).1
  have hpack : UnpackedFloat.pack .binary64 (unpack .binary64 bits.toBitVec) = bits.toBitVec := by
    rw [UnpackedFloat.pack_unpack, if_neg hnan]
  change UInt64.ofBitVec (UnpackedFloat.pack .binary64 (unpack .binary64 bits.toBitVec)) = bits
  rw [hpack]

theorem stands_ofBits (h : numberOf? bits = some v) :
    Stands (Float.ofBits bits).toModel.unpack v := by
  have hbits : (Float.ofBits bits).toModel.toBits = bits := toBits_ofBits h
  rw [Float.Model.unpack, hbits]
  exact stands_unpack h

/-! ## Comparing -/

/-- Of two canonical pairs, the one with the greater exponent is the greater number. -/
theorem Canonical.lt_of_exponent_lt (h : Canonical m q) (h' : Canonical m' q') (hq : q < q') :
    (m * 2 ^ q : ℚ) < m' * 2 ^ q' := by
  have hlt : (m : ℚ) < 2 ^ 53 := by exact_mod_cast h.lt
  have hnormal : 2 ^ 52 ≤ m' := h'.normal.resolve_left (by have := h.le; omega)
  have hge : (2 ^ 52 : ℚ) ≤ m' := by exact_mod_cast hnormal
  calc (m * 2 ^ q : ℚ) < 2 ^ 53 * 2 ^ q := by gcongr
    _ = 2 ^ 52 * 2 ^ (q + 1) := by rw [zpow_add_one₀ two_ne_zero]; ring
    _ ≤ m' * 2 ^ q' := by
      gcongr
      · norm_num
      · omega

theorem Canonical.compare_eq (h : Canonical m q) (h' : Canonical m' q') :
    (compare q q').then (compare m m') = cmp (m * 2 ^ q : ℚ) (m' * 2 ^ q') := by
  obtain hq | rfl | hq := lt_trichotomy q q'
  · rw [compare_lt_iff_lt.mpr hq, (cmp_eq_lt_iff _ _).mpr (h.lt_of_exponent_lt h' hq)]
    rfl
  · rw [compare_eq_iff_eq.mpr rfl, cmp_mul_pos_right (by positivity),
      Nat.strictMono_cast.cmp_map_eq, cmp_eq_compare]
    rfl
  · rw [compare_gt_iff_gt.mpr hq, (cmp_eq_gt_iff _ _).mpr (h'.lt_of_exponent_lt h hq)]
    rfl

theorem magnitude_pos (q : ℤ) (hm : 0 < m) : (0 : ℚ) < m * 2 ^ q := by positivity

/-- **Comparing doubles compares their numbers.** -/
theorem Stands.compare_eq (h : Stands u v) (h' : Stands u' v') :
    u.compare u' = some (cmp v v') := by
  cases h with
  | zero =>
    cases h' with
    | zero => rw [(cmp_eq_eq_iff _ _).mpr rfl]; rfl
    | positive hm' => rw [(cmp_eq_lt_iff _ _).mpr (magnitude_pos _ hm')]; rfl
    | negative hm' => rw [(cmp_eq_gt_iff _ _).mpr (neg_lt_zero.mpr (magnitude_pos _ hm'))]; rfl
  | @positive m q hm hc =>
    have hpos := magnitude_pos q hm
    cases h' with
    | zero => rw [(cmp_eq_gt_iff _ _).mpr hpos]; rfl
    | positive _ hc' => rw [← hc.compare_eq hc']; rfl
    | @negative m' q' hm' _ =>
      have hneg := neg_lt_zero.mpr (magnitude_pos q' hm')
      rw [(cmp_eq_gt_iff _ _).mpr (hneg.trans hpos)]
      rfl
  | @negative m q hm hc =>
    have hneg := neg_lt_zero.mpr (magnitude_pos q hm)
    cases h' with
    | zero => rw [(cmp_eq_lt_iff _ _).mpr hneg]; rfl
    | positive hm' =>
      rw [(cmp_eq_lt_iff _ _).mpr (hneg.trans (magnitude_pos _ hm'))]
      rfl
    | negative _ hc' =>
      have hanti : StrictAnti fun w : ℚ => -w := fun _ _ => neg_lt_neg
      rw [hanti.cmp_map_eq, ← cmp_swap, ← hc.compare_eq hc']
      rfl

theorem lt_iff (hx : Stands x.toModel.unpack v) (hy : Stands y.toModel.unpack v') :
    x < y ↔ v < v' := by
  change decide ((x.toModel.unpack.compare y.toModel.unpack == some .lt) = true) = true ↔ _
  rw [decide_eq_true_iff, hx.compare_eq hy, beq_iff_eq, Option.some_inj, cmp_eq_lt_iff]

theorem le_iff (hx : Stands x.toModel.unpack v) (hy : Stands y.toModel.unpack v') :
    x ≤ y ↔ v ≤ v' := by
  change decide ((x.toModel.unpack.compare y.toModel.unpack).any (·.isLE) = true) = true ↔ _
  rw [decide_eq_true_iff, hx.compare_eq hy, Option.any_some, ← not_lt, ← cmp_eq_gt_iff]
  cases cmp v v' <;> decide

/-! ## Cutting off -/

/-- A whole magnitude, cleared of its power of two. -/
theorem mul_two_pow_of_whole (h : (n : ℚ) = m * 2 ^ q) :
    n * 2 ^ (-q).toNat = m * 2 ^ q.toNat := by
  have hq : q + (-q).toNat = q.toNat := by omega
  have hcleared : (n * 2 ^ (-q).toNat : ℚ) = m * 2 ^ q.toNat := by
    rw [h, mul_assoc, ← zpow_natCast, ← zpow_add₀ two_ne_zero, hq, zpow_natCast]
  exact_mod_cast hcleared

theorem mantissa_shiftRight (em : ExtendedMantissa) (k : Nat) :
    (em >>> k).mantissa = em.mantissa / 2 ^ k := by
  change (k.repeat ExtendedMantissa.shiftRightOne em).mantissa = _
  induction k with
  | zero => simp [Nat.repeat]
  | succ k ih =>
    rw [Nat.repeat, ExtendedMantissa.shiftRightOne, ih, Nat.div_div_eq_div_mul, pow_succ]

theorem roundToInt_of_whole (sign : Sign) (h : (n : ℚ) = m * 2 ^ q) :
    roundToInt sign m q = sign.apply n := by
  have hshift : (0 - (q - q.toNat)).toNat = (-q).toNat := by omega
  simp only [roundToInt, UnpackedFloat.decreaseExponent, UnpackedFloat.shiftToExponent,
    mantissa_shiftRight, ExtendedMantissa.ofMantissaAndAccuracy, Nat.shiftLeft_eq, Int.sub_zero,
    hshift]
  rw [← mul_two_pow_of_whole h, Nat.mul_div_cancel _ (by positivity)]

/-- **Cutting off keeps a whole number.** -/
theorem Stands.toInt_eq (h : Stands u z) (low high : ℤ) : u.toInt low high = z := by
  generalize hv : (z : ℚ) = v at h
  cases h with
  | zero => exact (Int.cast_eq_zero.mp hv).symm
  | @positive m q hm _ =>
    have hz : 0 < z := by exact_mod_cast hv ▸ magnitude_pos q hm
    obtain ⟨n, rfl⟩ := Int.eq_ofNat_of_zero_le hz.le
    exact roundToInt_of_whole .positive (by exact_mod_cast hv)
  | @negative m q hm _ =>
    have hz : z < 0 := by exact_mod_cast hv ▸ neg_lt_zero.mpr (magnitude_pos q hm)
    obtain ⟨n, hn⟩ := Int.eq_ofNat_of_zero_le (neg_nonneg.mpr hz.le)
    obtain rfl : z = -n := by omega
    refine roundToInt_of_whole .negative ?_
    rw [← neg_inj, ← hv]
    push_cast
    rfl

/-! ## The range of 64-bit integers -/

theorem stands_minValue : Stands (Float.ofInt Int64.minValue.toInt).toModel.unpack (-2 ^ 63) := by
  have hbits : (Float.ofInt Int64.minValue.toInt).toModel.toBits = 0xc3e0000000000000 := by
    decide +kernel
  rw [Float.Model.unpack, hbits]
  apply stands_unpack
  decide +kernel

/-- The greatest 64-bit integer is no double, and is rounded up. -/
theorem stands_maxValue : Stands (Float.ofInt Int64.maxValue.toInt).toModel.unpack (2 ^ 63) := by
  have hbits : (Float.ofInt Int64.maxValue.toInt).toModel.toBits = 0x43e0000000000000 := by
    decide +kernel
  rw [Float.Model.unpack, hbits]
  apply stands_unpack
  decide +kernel

/-- **The range check is exact.** -/
theorem withinInt64_iff (h : Stands x.toModel.unpack v) :
    Value.withinInt64 x = true ↔ -2 ^ 63 ≤ v ∧ v < 2 ^ 63 := by
  rw [Value.withinInt64, Bool.and_eq_true, decide_eq_true_iff, decide_eq_true_iff,
    le_iff stands_minValue h, lt_iff h stands_maxValue]

/-- **The cast is exact within the range.** -/
theorem toInt_toInt64 (h : Stands x.toModel.unpack z) (hlow : -2 ^ 63 ≤ z) (hhigh : z < 2 ^ 63) :
    (Value.toInt64 x).toInt = z := by
  change (Int64.ofIntClamp (x.toModel.unpack.toInt _ _)).toInt = z
  rw [h.toInt_eq]
  apply Int64.toInt_ofIntClamp
  · exact hlow
  · exact Int.le_of_lt_add_one hhigh

/-! ## Exact numbers -/

theorem fractionField_eq (bits : UInt64) : fractionField bits = bits.toNat % 0x10000000000000 := by
  rw [fractionField, BitVec.extractLsb_toNat]
  rfl

theorem exponentField_eq (bits : UInt64) :
    exponentField bits = bits.toNat / 0x10000000000000 % 0x800 := by
  rw [exponentField, BitVec.extractLsb_toNat, Nat.shiftRight_eq_div_pow]
  rfl

/-- A pattern is read as its sign, significand and exponent. -/
theorem ofBits_of_numberOf? (h : numberOf? bits = some v) :
    ∃ (m : Nat) (q : ℤ), Binary64.ofBits bits = .finite bits.toBitVec.msb m q ∧
      v = signFactor bits.toBitVec.msb * (m * 2 ^ q) := by
  obtain ⟨m, q, hv, -, hfields⟩ := numberOf?_cases h
  refine ⟨m, q, ?_, hv⟩
  have hsign : decide (0x8000000000000000 ≤ bits.toNat) = bits.toBitVec.msb :=
    (BitVec.msb_eq_decide bits.toBitVec).symm
  rw [Binary64.ofBits, ← fractionField_eq, ← exponentField_eq]
  obtain ⟨he, rfl, rfl⟩ | ⟨he, hinf, rfl, rfl⟩ := hfields
  · simp [he, hsign]
  · simp [he, hinf, hsign]

theorem whole?_of_whole (h : (n : ℚ) = m * 2 ^ q) : Binary64.whole? m q = some n := by
  have hclear := mul_two_pow_of_whole h
  rw [Binary64.whole?, pow, pow, Nat.pow_eq, Nat.pow_eq]
  by_cases hq : 0 ≤ q
  · rw [if_pos hq, ← hclear, Int.toNat_of_nonpos (by omega), pow_zero, mul_one]
  · rw [Int.toNat_of_nonpos (by omega : q ≤ 0), pow_zero, mul_one] at hclear
    rw [if_neg hq, ← hclear, Nat.mul_mod_left, if_pos rfl, Nat.mul_div_cancel _ (by positivity)]

end Abacus.Decimal
