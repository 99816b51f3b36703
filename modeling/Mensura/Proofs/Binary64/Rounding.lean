import Mensura.Proofs.Binary64.Degenerate

namespace Mensura

open Float.Model (Format UnpackedFloat totalExponent)
open Float.Model.UnpackedFloat

section Shift

variable {mantissa bound k : Nat}

/-- A mantissa that nothing was shifted out of. -/
def wholeMantissa (mantissa : Nat) : ExtendedMantissa :=
  ⟨mantissa, false, false⟩

/-- Zeros are shifted out of a mantissa without a trace. -/
theorem wholeMantissa_shift (mantissa k : Nat) :
    wholeMantissa (mantissa * 2 ^ k) >>> k = wholeMantissa mantissa := by
  induction k generalizing mantissa with
  | zero =>
    rw [Nat.pow_zero, Nat.mul_one]
    rfl
  | succ k ih =>
    have inner : mantissa * 2 ^ (k + 1) = mantissa * 2 * 2 ^ k := by
      rw [Nat.pow_succ]
      ring
    change (wholeMantissa (mantissa * 2 ^ (k + 1)) >>> k).shiftRightOne = _
    rw [inner, ih]
    simp [ExtendedMantissa.shiftRightOne, wholeMantissa]

theorem shiftRight_mantissa (em : ExtendedMantissa) (k : Nat) :
    (em >>> k).mantissa = em.mantissa / 2 ^ k := by
  induction k with
  | zero => exact (Nat.div_one _).symm
  | succ k ih =>
    change (em >>> k).mantissa / 2 = _
    rw [ih, Nat.div_div_eq_div_mul, Nat.pow_succ]

theorem roundedMantissa_bounds (em : ExtendedMantissa) :
    em.mantissa ≤ em.roundedMantissa ∧ em.roundedMantissa ≤ em.mantissa + 1 := by
  rcases em with ⟨mantissa, _ | _, _ | _⟩ <;>
    simp only [ExtendedMantissa.roundedMantissa, ExtendedMantissa.accuracy, Accuracy.roundToNearestEven] <;>
    omega

/-- What is rounded does not pass a whole number that it did not pass before. -/
theorem roundedMantissa_le (below : mantissa ≤ bound * 2 ^ k) :
    (wholeMantissa mantissa >>> k).roundedMantissa ≤ bound := by
  rcases below.eq_or_lt with rfl | less
  · rw [wholeMantissa_shift]
    exact Nat.le_refl bound
  · have whole : mantissa / 2 ^ k < bound := Nat.div_lt_of_lt_mul (Nat.mul_comm bound _ ▸ less)
    have rounded := (roundedMantissa_bounds (wholeMantissa mantissa >>> k)).2
    rw [shiftRight_mantissa] at rounded
    exact rounded.trans whole

theorem le_roundedMantissa (above : bound * 2 ^ k ≤ mantissa) :
    bound ≤ (wholeMantissa mantissa >>> k).roundedMantissa := by
  have rounded := (roundedMantissa_bounds (wholeMantissa mantissa >>> k)).1
  rw [shiftRight_mantissa] at rounded
  exact ((Nat.le_div_iff_mul_le (Nat.two_pow_pos k)).mpr above).trans rounded

end Shift

section Round

variable {mantissa : Nat} {exponent : Int} {sign : Sign}

theorem targetExponent_eq (mantissa : Nat) (exponent : Int) :
    Format.binary64.targetExponent (totalExponent mantissa exponent) =
      max (mantissa.log2 + exponent - 52) (-1074) := by
  change max ((mantissa.log2 : Int) + 1 + exponent - 53) (-1074) = _
  omega

theorem shiftToTargetExponent_exact {k : Nat}
    (steps : (max (mantissa.log2 + exponent - 52) (-1074) - exponent).toNat = k) :
    shiftToTargetExponent .binary64 mantissa exponent .exact = (wholeMantissa mantissa >>> k, exponent + k) := by
  unfold shiftToTargetExponent shiftToExponent
  dsimp only
  rw [targetExponent_eq, steps]
  rfl

theorem log2_mul_pow (positive : 0 < mantissa) (k : Nat) :
    (mantissa * 2 ^ k).log2 = mantissa.log2 + k := by
  have low := Nat.mul_le_mul_right (2 ^ k) (Nat.log2_self_le positive.ne')
  have high := Nat.mul_lt_mul_of_pos_right (Nat.lt_log2_self (n := mantissa)) (Nat.two_pow_pos k)
  rw [← Nat.pow_add] at low high
  rw [Nat.log2_eq_iff (Nat.mul_pos positive (Nat.two_pow_pos k)).ne']
  exact ⟨low, by rwa [Nat.add_right_comm]⟩

/-- The parts of a number are those that rounding aims at, also with zeros behind
the mantissa. -/
theorem Canonical.shift (canonical : Canonical mantissa exponent) (k : Nat) :
    shiftToTargetExponent .binary64 (mantissa * 2 ^ k) (exponent - k) .exact =
      (wholeMantissa mantissa, exponent) := by
  have small : mantissa.log2 < 53 := (Nat.log2_lt canonical.positive.ne').mpr canonical.small
  have full : 52 ≤ mantissa.log2 ∨ exponent = -1074 :=
    canonical.full.imp_left (Nat.le_log2 canonical.positive.ne').mpr
  have low := canonical.low
  have digits := log2_mul_pow canonical.positive k
  rw [shiftToTargetExponent_exact (k := k) (by omega), wholeMantissa_shift, Int.sub_add_cancel]

/-- Rounding is a first shift, a whole mantissa and a second shift, which takes
back the carry of the first. -/
theorem roundWithAccuracy_of_shift {given : Nat} {start exponent' : Int} {accuracy : Accuracy} {k : Nat}
    {em : ExtendedMantissa} (first : shiftToTargetExponent .binary64 given start accuracy = (em, exponent'))
    (canonical : Canonical mantissa exponent) (rounded : em.roundedMantissa = mantissa * 2 ^ k)
    (carry : exponent' = exponent - k) :
    roundWithAccuracy .binary64 sign given start accuracy =
      .finite sign mantissa exponent canonical.positive := by
  unfold roundWithAccuracy
  dsimp only
  rw [first]
  dsimp only
  rw [rounded, carry, canonical.shift]
  exact dif_neg canonical.positive.ne'

theorem roundWithAccuracy_exact (sign : Sign) (canonical : Canonical mantissa exponent) (k : Nat) :
    roundWithAccuracy .binary64 sign (mantissa * 2 ^ k) (exponent - k) .exact =
      .finite sign mantissa exponent canonical.positive :=
  roundWithAccuracy_of_shift (k := 0) (canonical.shift k) canonical (Nat.mul_one _).symm
    (Int.sub_zero _).symm

/-- A number with fewer digits than the mantissa has places is filled up with zeros. -/
theorem round_exact {k : Nat} (canonical : Canonical (mantissa * 2 ^ k) (exponent - k))
    (full : 2 ^ 52 ≤ mantissa * 2 ^ k) :
    UnpackedFloat.round .binary64 sign mantissa exponent =
      .finite sign (mantissa * 2 ^ k) (exponent - k) canonical.positive := by
  have positive : 0 < mantissa := Nat.pos_of_mul_pos_right canonical.positive
  have low := canonical.low
  have digits : mantissa.log2 + k = 52 := by
    rw [← log2_mul_pow positive, Nat.log2_eq_iff canonical.positive.ne']
    exact ⟨full, canonical.small⟩
  have steps : (exponent - Format.binary64.targetExponent (totalExponent mantissa exponent)).toNat = k := by
    rw [targetExponent_eq]
    omega
  have exact := roundWithAccuracy_exact sign canonical 0
  rw [Nat.pow_zero, Nat.mul_one, Nat.cast_zero, Int.sub_zero] at exact
  unfold UnpackedFloat.round decreaseExponent
  dsimp only
  rw [steps, Nat.shiftLeft_eq, exact]

/-- Rounding does not lead past a number that the exact value does not pass. Of two
numbers the one with the smaller exponent is the smaller one. -/
theorem roundWithAccuracy_le (sign : Sign) {bound k : Nat} (normal : -1074 ≤ exponent) (wide : 2 ^ 52 ≤ mantissa)
    (canonical : Canonical bound (exponent + k)) (below : mantissa ≤ bound * 2 ^ k) :
    ∃ mantissa' exponent' positive,
      roundWithAccuracy .binary64 sign mantissa exponent .exact =
        .finite sign mantissa' exponent' positive ∧ Canonical mantissa' exponent' ∧
      (exponent' < exponent + k ∨ exponent' = exponent + k ∧ mantissa' ≤ bound) := by
  have notZero : mantissa ≠ 0 := by omega
  obtain ⟨s, digits⟩ := Nat.exists_eq_add_of_le ((Nat.le_log2 notZero).mpr wide)
  have low : 2 ^ 52 * 2 ^ s ≤ mantissa := by
    rw [← Nat.pow_add, ← digits]
    exact Nat.log2_self_le notZero
  have high : mantissa ≤ 2 ^ 53 * 2 ^ s := by
    rw [← Nat.pow_add, show 53 + s = mantissa.log2 + 1 by omega]
    exact Nat.lt_log2_self.le
  have within : s ≤ k := by
    by_contra beyond
    have powers : 2 ^ 53 * 2 ^ k ≤ 2 ^ 52 * 2 ^ s := by
      rw [← Nat.pow_add, ← Nat.pow_add]
      exact Nat.pow_le_pow_right (by decide) (by omega)
    have passed := Nat.mul_lt_mul_of_pos_right canonical.small (Nat.two_pow_pos k)
    omega
  obtain ⟨left, rfl⟩ := Nat.exists_eq_add_of_le within
  have first : shiftToTargetExponent .binary64 mantissa exponent .exact =
      (wholeMantissa mantissa >>> s, exponent + s) := shiftToTargetExponent_exact (by omega)
  have lower := le_roundedMantissa low
  have upper := roundedMantissa_le high
  have limit : (wholeMantissa mantissa >>> s).roundedMantissa ≤ bound * 2 ^ left :=
    roundedMantissa_le (by rwa [Nat.mul_assoc, ← Nat.pow_add, Nat.add_comm left])
  generalize rounded : (wholeMantissa mantissa >>> s).roundedMantissa = r at lower upper limit
  have small := canonical.small
  -- A mantissa that is rounded up to the next power of two carries into the exponent.
  rcases upper.lt_or_eq with inside | rfl
  · have result : Canonical r (exponent + s) := ⟨by omega, inside, by omega, Or.inl lower⟩
    refine ⟨r, exponent + s, result.positive, roundWithAccuracy_of_shift (k := 0) first result
      (rounded.trans (Nat.mul_one r).symm) (Int.sub_zero _).symm, result, ?_⟩
    cases left with
    | zero => exact Or.inr ⟨rfl, by simpa using limit⟩
    | succ left => exact Or.inl (by omega)
  · have result : Canonical (2 ^ 52) (exponent + s + 1) := ⟨by decide, by decide, by omega, Or.inl le_rfl⟩
    refine ⟨2 ^ 52, exponent + s + 1, result.positive, roundWithAccuracy_of_shift (k := 1) first result
      rounded (Int.add_sub_cancel _ 1).symm, result, ?_⟩
    rcases left with _ | _ | left
    · omega
    · exact Or.inr ⟨by omega, by omega⟩
    · exact Or.inl (by omega)

end Round

theorem ofParts_components (sign : Sign) (field : BitVec 11) (fraction : BitVec 52) :
    Binary64.ofParts (unpack .binary64 (packComponents .binary64 sign field fraction)) =
      if field.toNat = 2047 then
        if fraction.toNat = 0 then .infinite (sign == .negative) else .nan
      else if field.toNat = 0 then .finite (sign == .negative) fraction.toNat (-1074)
      else .finite (sign == .negative) (twoPow 52 + fraction.toNat) (field.toNat - 1075) := by
  rw [ofParts_unpack, unpackExponent_packComponents, unpackMantissa_packComponents,
    unpackSign_packComponents, Sign.ofBitVec_toBitVec]

/-- The parts of a number that is not too large are packed without loss. -/
theorem Canonical.unpack_pack {mantissa : Nat} {exponent : Int} {sign : Sign}
    (canonical : Canonical mantissa exponent) (bounded : exponent ≤ 971) :
    unpack .binary64 (pack .binary64 (.finite sign mantissa exponent canonical.positive)) =
      .finite sign mantissa exponent canonical.positive := by
  obtain ⟨positive, small, low, full⟩ := canonical
  apply Binary64.ofParts_injective
  have bias : exponent + Format.binary64.exponentBias + Format.binary64.mantissaBitsWithoutImplicit =
      exponent + 1075 := by
    change exponent + 1023 + 52 = _
    omega
  unfold pack
  dsimp only
  rw [bias, if_neg (show ¬ 2048 ≤ (exponent + 1075).toNat + 1 by omega)]
  by_cases normal : 2 ^ 52 ≤ mantissa
  · have digits : mantissa.log2 = 52 := (Nat.log2_eq_iff positive.ne').mpr ⟨normal, small⟩
    have field : (BitVec.ofNat 11 (exponent + 1075).toNat).toNat = (exponent + 1075).toNat := by
      rw [BitVec.toNat_ofNat]
      omega
    have fraction : twoPow 52 + (BitVec.ofNat 52 mantissa).toNat = mantissa := by
      change 4503599627370496 + mantissa % 4503599627370496 = mantissa
      omega
    have places : mantissa.log2 + 1 = Format.binary64.mantissaBits := by
      rw [digits]
      rfl
    rw [if_pos places, ofParts_components, field, fraction, if_neg (by omega), if_neg (by omega)]
    exact congrArg (Binary64.finite _ mantissa) (by omega)
  · have digits : mantissa.log2 < 52 := (Nat.log2_lt positive.ne').mpr (not_le.mp normal)
    obtain rfl : exponent = -1074 := full.resolve_left normal
    have fraction : (BitVec.ofNat 52 mantissa).toNat = mantissa := by
      change mantissa % 4503599627370496 = mantissa
      omega
    have places : mantissa.log2 + 1 ≠ Format.binary64.mantissaBits := by
      change mantissa.log2 + 1 ≠ 53
      omega
    rw [if_neg places, ofParts_components, fraction]
    rfl

end Mensura
