import Mathlib
import Mensura.Binary64
import Mensura.Proofs.MeasureUnit.Scale

namespace Mensura

open Float.Model (UnpackedFloat)
open Float.Model.UnpackedFloat

/-- What a float stands for, with its parts taken from its bits. -/
def parts (x : Float) : UnpackedFloat :=
  x.toModel.unpack

/-- The same parts as they are told apart here. -/
def Binary64.ofParts : UnpackedFloat → Binary64
  | .notANumber => .nan
  | .infinity sign => .infinite (sign == .negative)
  | .zero sign => .finite (sign == .negative) 0 (-1074)
  | .finite sign mantissa exponent _ => .finite (sign == .negative) mantissa exponent

theorem Binary64.ofParts_injective : Function.Injective Binary64.ofParts := by
  intro a b same
  have signs {s t : Sign} (same : (s == .negative) = (t == .negative)) : s = t := by
    cases s <;> cases t <;> first | rfl | cases same
  cases a <;> cases b <;> simp only [ofParts, finite.injEq, infinite.injEq, reduceCtorEq] at same
  · rw [signs same]
  · rfl
  · rw [signs same.1]
  · omega
  · omega
  · obtain ⟨sign, rfl, rfl⟩ := same
    rw [signs sign]

section Bits

variable (b : BitVec 64)

theorem unpackMantissa_toNat : (@unpackMantissa .binary64 b).toNat = b.toNat % twoPow 52 := by
  rw [unpackMantissa_def, BitVec.extractLsb'_toNat, Nat.shiftRight_zero]
  rfl

theorem unpackExponent_toNat :
    (@unpackExponent .binary64 b).toNat = b.toNat / twoPow 52 % twoPow 11 := by
  rw [unpackExponent_def, BitVec.extractLsb'_toNat, Nat.shiftRight_eq_div_pow]
  rfl

theorem unpackSign_negative :
    (Sign.ofBitVec (@unpackSign .binary64 b) == .negative) = decide (b.toNat / twoPow 63 = 1) := by
  have bit : (@unpackSign .binary64 b).toNat = b.toNat / twoPow 63 := by
    rw [unpackSign_def, BitVec.extractLsb'_toNat, Nat.shiftRight_eq_div_pow]
    refine Nat.mod_eq_of_lt ?_
    have := b.isLt
    change b.toNat / 9223372036854775808 < 2
    omega
  rw [← bit]
  generalize @unpackSign .binary64 b = sign
  revert sign
  decide

theorem implicit_toNat (fraction : BitVec 52) : (1#1 ++ fraction).toNat = twoPow 52 + fraction.toNat := by
  rw [BitVec.toNat_append, ← Nat.shiftLeft_add_eq_or_of_lt fraction.isLt]
  rfl

theorem ofParts_unpack (b : BitVec 64) :
    Binary64.ofParts (unpack .binary64 b) =
      if (@unpackExponent .binary64 b).toNat = 2047 then
        if (@unpackMantissa .binary64 b).toNat = 0 then
          .infinite (Sign.ofBitVec (@unpackSign .binary64 b) == .negative)
        else .nan
      else if (@unpackExponent .binary64 b).toNat = 0 then
        .finite (Sign.ofBitVec (@unpackSign .binary64 b) == .negative) (@unpackMantissa .binary64 b).toNat (-1074)
      else
        .finite (Sign.ofBitVec (@unpackSign .binary64 b) == .negative)
          (twoPow 52 + (@unpackMantissa .binary64 b).toNat) ((@unpackExponent .binary64 b).toNat - 1075) := by
  have full : @unpackExponent .binary64 b = -1#11 ↔ (@unpackExponent .binary64 b).toNat = 2047 := by
    rw [← BitVec.toNat_inj]
    rfl
  have none : @unpackExponent .binary64 b = 0#11 ↔ (@unpackExponent .binary64 b).toNat = 0 := by
    rw [← BitVec.toNat_inj]
    rfl
  have whole : @unpackMantissa .binary64 b = 0#52 ↔ (@unpackMantissa .binary64 b).toNat = 0 := by
    rw [← BitVec.toNat_inj]
    rfl
  unfold unpack
  dsimp only
  simp only [← full, ← none, ← whole]
  split
  · split <;> rfl
  · split
    · rename_i subnormal
      split
      · rename_i zero
        rw [zero]
        rfl
      · rw [subnormal]
        rfl
    · rw [← implicit_toNat]
      rfl

end Bits

theorem ofFloat_eq_ofParts (x : Float) : Binary64.ofFloat x = Binary64.ofParts (parts x) := by
  rw [show parts x = unpack .binary64 x.toBits.toBitVec from rfl, ofParts_unpack,
    unpackMantissa_toNat, unpackExponent_toNat, unpackSign_negative]
  rfl

section Floats

variable {x y : Float} {mantissa : Nat} {exponent : Int}

theorem float_lt_iff : x < y ↔ UnpackedFloat.compare (parts x) (parts y) = some .lt := by
  change decide (UnpackedFloat.lt (parts x) (parts y) = true) = true ↔ _
  rw [decide_eq_true_iff, UnpackedFloat.lt, beq_iff_eq]

theorem float_le_iff : x ≤ y ↔ UnpackedFloat.le (parts x) (parts y) = true := by
  change decide (UnpackedFloat.le (parts x) (parts y) = true) = true ↔ _
  rw [decide_eq_true_iff]

theorem zero_lt_iff : 0.0 < x ↔ UnpackedFloat.compare (.zero .positive) (parts x) = some .lt :=
  float_lt_iff

theorem positiveFinite_iff :
    PositiveFinite x ↔
      ∃ mantissa exponent positive, parts x = .finite .positive mantissa exponent positive := by
  have finite : x.isFinite = (parts x).isFinite := rfl
  rw [PositiveFinite, zero_lt_iff, finite]
  constructor
  · rintro ⟨finite, above⟩
    cases split : parts x with
    | infinity sign => rw [split] at finite; cases finite
    | notANumber => rw [split] at finite; cases finite
    | zero sign => rw [split] at above; cases above
    | finite sign mantissa exponent positive =>
      cases sign with
      | positive => exact ⟨mantissa, exponent, positive, rfl⟩
      | negative => rw [split] at above; cases above
  · rintro ⟨mantissa, exponent, positive, split⟩
    rw [split]
    exact ⟨rfl, rfl⟩

theorem parts_injective : Function.Injective parts := by
  intro x y same
  have bits := (unpack_inj_of_valid x.toModel.valid y.toModel.valid).mp same
  exact Float.toBits_inj.mp (UInt64.toBitVec_inj.mp bits)

/-- The parts of finite numbers. The mantissa fills its 53 bits except among the
smallest numbers. -/
structure Canonical (mantissa : Nat) (exponent : Int) : Prop where
  positive : 0 < mantissa
  small : mantissa < 2 ^ 53
  low : -1074 ≤ exponent
  full : 2 ^ 52 ≤ mantissa ∨ exponent = -1074

theorem canonical_of_ofFloat {negative : Bool} (split : Binary64.ofFloat x = .finite negative mantissa exponent)
    (positive : 0 < mantissa) : Canonical mantissa exponent := by
  have bits : twoPow 52 = 2 ^ 52 := rfl
  have fields : twoPow 11 = 2 ^ 11 := rfl
  unfold Binary64.ofFloat at split
  simp only [bits, fields] at split
  split at split
  · split at split <;> cases split
  · split at split
    · cases split
      exact ⟨positive, by omega, by omega, Or.inr rfl⟩
    · cases split
      exact ⟨positive, by omega, by omega, Or.inl (by omega)⟩

theorem PositiveFinite.split (valid : PositiveFinite x) :
    ∃ mantissa exponent, Binary64.ofFloat x = .finite false mantissa exponent ∧
      Canonical mantissa exponent := by
  obtain ⟨mantissa, exponent, positive, unpacked⟩ := positiveFinite_iff.mp valid
  have split : Binary64.ofFloat x = .finite false mantissa exponent := by
    rw [ofFloat_eq_ofParts, unpacked]
    rfl
  exact ⟨mantissa, exponent, split, canonical_of_ofFloat split positive⟩

theorem PositiveFinite.eq_of_ofFloat (validX : PositiveFinite x) (validY : PositiveFinite y)
    (same : Binary64.ofFloat x = Binary64.ofFloat y) : x = y := by
  obtain ⟨mantissa, exponent, _, unpackedX⟩ := positiveFinite_iff.mp validX
  obtain ⟨mantissa', exponent', _, unpackedY⟩ := positiveFinite_iff.mp validY
  rw [ofFloat_eq_ofParts, ofFloat_eq_ofParts, unpackedX, unpackedY] at same
  cases same
  exact parts_injective (unpackedX.trans unpackedY.symm)

end Floats

end Mensura
