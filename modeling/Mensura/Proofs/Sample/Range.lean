import Mensura.Proofs.Binary64.Neutral
import Mensura.Sample.Stream

namespace Mensura

open Float.Model (UnpackedFloat)
open Float.Model.UnpackedFloat

/-- A number from 1 up to 2 out of the bits behind its point. -/
theorem parts_ofBits_fraction {bits : UInt64} (small : bits.toNat < 2 ^ 52) :
    parts (Float.ofBits (bits ||| 0x3ff0000000000000)) =
      .finite .positive (2 ^ 52 + bits.toNat) (-52) (by omega) := by
  have together : (bits ||| 0x3ff0000000000000).toBitVec.toNat = 1023 * 2 ^ 52 + bits.toNat := by
    change bits.toNat ||| 1023 <<< 52 = _
    rw [Nat.lor_comm, ← Nat.shiftLeft_add_eq_or_of_lt small, Nat.shiftLeft_eq]
  have field : (1023 * 2 ^ 52 + bits.toNat) / twoPow 52 % twoPow 11 = 1023 := by
    change (1023 * 2 ^ 52 + bits.toNat) / 4503599627370496 % 2048 = 1023
    omega
  have behind : (1023 * 2 ^ 52 + bits.toNat) % twoPow 52 = bits.toNat := by
    change (1023 * 2 ^ 52 + bits.toNat) % 4503599627370496 = _
    omega
  have sign : (1023 * 2 ^ 52 + bits.toNat) / twoPow 63 ≠ 1 := by
    change (1023 * 2 ^ 52 + bits.toNat) / 9223372036854775808 ≠ 1
    omega
  have canonical : Canonical (2 ^ 52 + bits.toNat) (-52) := ⟨by omega, by omega, by decide, Or.inl (by omega)⟩
  have unpacked : unpack .binary64 (bits ||| 0x3ff0000000000000).toBitVec =
      .finite .positive (2 ^ 52 + bits.toNat) (-52) canonical.positive := by
    apply Binary64.ofParts_injective
    rw [ofParts_unpack, unpackExponent_toNat, unpackMantissa_toNat, unpackSign_negative, together, field,
      behind, decide_eq_false sign]
    rfl
  change unpack .binary64 (pack .binary64 (unpack .binary64 _)) = _
  rw [unpacked]
  exact canonical.unpack_pack (by decide)

theorem parts_sub (x y : Float) :
    parts (x - y) = unpack .binary64 (pack .binary64 (UnpackedFloat.sub .binary64 (parts x) (parts y))) :=
  rfl

/-- The parts of a multiple of the step behind 1 that is below 1. The digits of
the multiple are moved up until they fill the mantissa. -/
inductive BelowOne : UnpackedFloat → Prop
  | zero : BelowOne (.zero .positive)
  | steps {f k : Nat} {positive : 0 < f * 2 ^ k} : f < 2 ^ 52 → k ≤ 52 →
      Canonical (f * 2 ^ k) (-52 - k) → BelowOne (.finite .positive (f * 2 ^ k) (-52 - k) positive)

/-- The parts of a number from 0 up to 100. -/
inductive BelowHundred : UnpackedFloat → Prop
  | zero : BelowHundred (.zero .positive)
  | finite {mantissa : Nat} {exponent : Int} {positive : 0 < mantissa} : Canonical mantissa exponent →
      exponent < -46 ∨ exponent = -46 ∧ mantissa < 100 * 2 ^ 46 →
      BelowHundred (.finite .positive mantissa exponent positive)

variable {a : UnpackedFloat} {x : Float}

theorem belowOne_normalize {f : Nat} (small : f < 2 ^ 52) :
    BelowOne (UnpackedFloat.normalize .binary64 f (-52) .positive) := by
  rcases f.eq_zero_or_pos with rfl | positive
  · exact .zero
  · have low := Nat.log2_self_le positive.ne'
    have high := Nat.lt_log2_self (n := f)
    have places : f.log2 < 52 := (Nat.log2_lt positive.ne').mpr small
    obtain ⟨k, filled⟩ := Nat.exists_eq_add_of_le places.le
    have full : 2 ^ 52 ≤ f * 2 ^ k := by
      rw [filled, Nat.pow_add]
      exact Nat.mul_le_mul_right _ low
    have bounded : f * 2 ^ k < 2 ^ 53 := by
      rw [show 53 = f.log2 + 1 + k by omega, Nat.pow_add]
      exact Nat.mul_lt_mul_of_pos_right high (Nat.two_pow_pos k)
    have canonical : Canonical (f * 2 ^ k) (-52 - k) := ⟨by omega, bounded, by omega, Or.inl full⟩
    have above : compare (f : Int) 0 = .gt := Int.compare_eq_gt.mpr (by omega)
    unfold UnpackedFloat.normalize
    rw [above]
    dsimp only
    rw [Int.toNat_natCast, round_exact canonical full]
    exact .steps small (by omega) canonical

/-- What is left of a number from 1 up to 2 without its one. -/
theorem belowOne_sub_one {f : Nat} {positive : 0 < 2 ^ 52 + f} (small : f < 2 ^ 52) :
    BelowOne (UnpackedFloat.sub .binary64 (.finite .positive (2 ^ 52 + f) (-52) positive) (parts 1.0)) := by
  have rest : UnpackedFloat.sub .binary64 (.finite .positive (2 ^ 52 + f) (-52) positive) (parts 1.0) =
      UnpackedFloat.normalize .binary64 f (-52) .positive := by
    rw [parts_one]
    unfold UnpackedFloat.sub
    simp [decreaseExponent, Sign.apply]
  rw [rest]
  exact belowOne_normalize small

theorem BelowOne.unpack_pack (below : BelowOne a) : unpack .binary64 (pack .binary64 a) = a := by
  cases below with
  | zero => exact unpack_packedZero
  | steps _ _ canonical => exact canonical.unpack_pack (by omega)

theorem parts_hundred : parts 100.0 = .finite .positive (100 * 2 ^ 46) (-46) (by decide) :=
  rfl

/-- A hundred times a number below 1 stays below 100. The largest multiple of the
step misses 1 by more than rounding can add. -/
theorem BelowOne.mul_hundred (below : BelowOne a) : BelowHundred (UnpackedFloat.mul .binary64 a (parts 100.0)) := by
  rw [parts_hundred]
  cases below with
  | zero => exact .zero
  | @steps f k positive small few =>
    have wide : 2 ^ 52 ≤ f * 2 ^ k * (100 * 2 ^ 46) := by omega
    have largest : f * (100 * 2 ^ 46) ≤ (100 * 2 ^ 46 - 1) * 2 ^ 52 := by omega
    have below : f * 2 ^ k * (100 * 2 ^ 46) ≤ (100 * 2 ^ 46 - 1) * 2 ^ (52 + k) := by
      calc f * 2 ^ k * (100 * 2 ^ 46) = f * (100 * 2 ^ 46) * 2 ^ k := Nat.mul_right_comm ..
        _ ≤ (100 * 2 ^ 46 - 1) * 2 ^ 52 * 2 ^ k := Nat.mul_le_mul_right _ largest
        _ = (100 * 2 ^ 46 - 1) * 2 ^ (52 + k) := by rw [Nat.mul_assoc, Nat.pow_add]
    have bound : Canonical (100 * 2 ^ 46 - 1) (-52 - (k : Int) + -46 + (52 + k : Nat)) :=
      ⟨by decide, by decide, by omega, Or.inl (by decide)⟩
    obtain ⟨mantissa, exponent, positive, rounded, result, order⟩ :=
      roundWithAccuracy_le .positive (by omega) wide bound below
    change BelowHundred (roundWithAccuracy .binary64 .positive (f * 2 ^ k * (100 * 2 ^ 46))
      (-52 - (k : Int) + -46) .exact)
    rw [rounded]
    exact .finite result (by omega)

theorem BelowHundred.unpack_pack (below : BelowHundred a) : unpack .binary64 (pack .binary64 a) = a := by
  cases below with
  | zero => exact unpack_packedZero
  | finite canonical => exact canonical.unpack_pack (by omega)

theorem BelowHundred.unsigned (below : BelowHundred a) : UnsignedParts a := by
  cases below with
  | zero => exact .degenerate .zero
  | finite => exact .finite

theorem BelowHundred.range (below : BelowHundred (parts x)) : 0.0 ≤ x ∧ x < 100.0 := by
  rw [float_le_iff, float_lt_iff, parts_zero, parts_hundred]
  generalize parts x = a at below
  cases below with
  | zero => exact ⟨rfl, rfl⟩
  | @finite mantissa exponent _ _ order =>
    refine ⟨rfl, ?_⟩
    change some ((compare exponent (-46)).then (compare mantissa (100 * 2 ^ 46))) = some .lt
    rcases order with smaller | ⟨rfl, smaller⟩
    · rw [Int.compare_eq_lt.mpr smaller]
      rfl
    · rw [Int.compare_eq_eq.mpr rfl, Nat.compare_eq_lt.mpr smaller]
      rfl

/-- Whatever the two words are, the mass lies in the range. -/
theorem massOfWords_range (low high : UInt32) : 0.0 ≤ massOfWords low high ∧ massOfWords low high < 100.0 := by
  unfold massOfWords
  dsimp only
  generalize low.toUInt64 ||| (high.toUInt64 <<< 32) = bits
  have small : (bits >>> 12).toNat < 2 ^ 52 := by
    have bounded := bits.toNat_lt
    change bits.toNat >>> 12 < _
    rw [Nat.shiftRight_eq_div_pow]
    omega
  generalize bits >>> 12 = fraction at small
  have one : BelowOne (parts (Float.ofBits (fraction ||| 0x3ff0000000000000) - 1.0)) := by
    rw [parts_sub, parts_ofBits_fraction small, (belowOne_sub_one small).unpack_pack]
    exact belowOne_sub_one small
  have hundred : BelowHundred (parts ((Float.ofBits (fraction ||| 0x3ff0000000000000) - 1.0) * 100.0)) := by
    rw [parts_mul, one.mul_hundred.unpack_pack]
    exact one.mul_hundred
  rw [float_add_zero hundred.unsigned]
  exact hundred.range

/-- The largest mass is two steps below 100. -/
example : massOfWords 0xffffffff 0xffffffff = 99.99999999999997 := rfl

end Mensura
