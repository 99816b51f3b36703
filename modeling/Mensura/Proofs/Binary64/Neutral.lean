import Mensura.Proofs.Binary64.Rounding

namespace Mensura

open Float.Model (Format UnpackedFloat totalExponent)
open Float.Model.UnpackedFloat

variable {x : Float} {sign : Sign} {mantissa : Nat} {exponent : Int}

theorem unpack_pack_parts (x : Float) : unpack .binary64 (pack .binary64 (parts x)) = parts x :=
  congrArg (unpack .binary64) (pack_unpack_of_valid x.toModel.valid)

theorem canonical_of_parts {positive : 0 < mantissa} (split : parts x = .finite sign mantissa exponent positive) :
    Canonical mantissa exponent := by
  have same : Binary64.ofFloat x = .finite (sign == .negative) mantissa exponent := by
    rw [ofFloat_eq_ofParts, split]
    rfl
  exact canonical_of_ofFloat same positive

theorem parts_zero : parts 0.0 = .zero .positive :=
  rfl

theorem parts_one : parts 1.0 = .finite .positive (2 ^ 52) (-52) (by decide) :=
  rfl

theorem mul_parts_one (x : Float) : UnpackedFloat.mul .binary64 (parts x) (parts 1.0) = parts x := by
  rw [parts_one]
  cases split : parts x with
  | notANumber => rfl
  | infinity sign => cases sign <;> rfl
  | zero sign => cases sign <;> rfl
  | finite sign mantissa exponent positive =>
    have signs : sign * .positive = sign := by cases sign <;> rfl
    change roundWithAccuracy .binary64 (sign * .positive) (mantissa * 2 ^ 52) (exponent - 52) .exact = _
    rw [signs]
    exact roundWithAccuracy_exact sign (canonical_of_parts split) 52

/-- The division by one is exact. It asks for one place more than the mantissa has,
or for none more among the smallest numbers. -/
theorem divCore_one (canonical : Canonical mantissa exponent) :
    ∃ k : Nat, divCore .binary64 mantissa exponent (2 ^ 52) (-52) = (mantissa * 2 ^ k, exponent - k, .exact) := by
  have small : mantissa.log2 < 53 := (Nat.log2_lt canonical.positive.ne').mpr canonical.small
  have low := canonical.low
  have finer : min (exponent - -52) (max (mantissa.log2 + exponent - 53) (-1074)) ≤ exponent := by omega
  obtain ⟨k, same⟩ := Int.le.dest finer
  have target : min (exponent - -52) (Format.binary64.targetExponent
      (totalExponent mantissa exponent - totalExponent (2 ^ 52) (-52))) = exponent - k := by
    change min _ (max ((mantissa.log2 : Int) + 1 + exponent - (52 + 1 + -52) - 53) (-1074)) = _
    omega
  have steps : (exponent - -52 - (exponent - k)).toNat = k + 52 := by omega
  refine ⟨k, ?_⟩
  unfold divCore
  dsimp only
  rw [target, steps, Nat.shiftLeft_eq, Nat.pow_add, ← Nat.mul_assoc, Nat.mul_div_cancel _ (by decide),
    Nat.mul_mod_left]
  rfl

theorem div_parts_one (x : Float) : UnpackedFloat.div .binary64 (parts x) (parts 1.0) = parts x := by
  rw [parts_one]
  cases split : parts x with
  | notANumber => rfl
  | infinity sign => cases sign <;> rfl
  | zero sign => cases sign <;> rfl
  | finite sign mantissa exponent positive =>
    have signs : sign / Sign.positive = sign := by cases sign <;> rfl
    obtain ⟨k, exact⟩ := divCore_one (canonical_of_parts split)
    unfold UnpackedFloat.div
    dsimp only
    rw [exact, signs]
    exact roundWithAccuracy_exact sign (canonical_of_parts split) k

/-- Multiplying by one changes no float, and neither does dividing by one. -/
theorem float_mul_one (x : Float) : x * 1.0 = x := by
  apply parts_injective
  rw [parts_mul, mul_parts_one, unpack_pack_parts]

theorem float_div_one (x : Float) : x / 1.0 = x := by
  apply parts_injective
  rw [parts_div, div_parts_one, unpack_pack_parts]

theorem parts_add (x y : Float) :
    parts (x + y) = unpack .binary64 (pack .binary64 (UnpackedFloat.add .binary64 (parts x) (parts y))) :=
  rfl

theorem UnsignedParts.add_zero {a : UnpackedFloat} (unsigned : UnsignedParts a) :
    UnpackedFloat.add .binary64 a (.zero .positive) = a := by
  rcases unsigned with ⟨_ | _ | _⟩ | _ <;> rfl

/-- Adding zero changes no float without a minus sign. -/
theorem float_add_zero (unsigned : Unsigned x) : x + 0.0 = x := by
  apply parts_injective
  rw [parts_add, parts_zero, unsigned.add_zero, unpack_pack_parts]

end Mensura
