import Mensura.Proofs.Binary64.Parts

namespace Mensura

open Float.Model (UnpackedFloat)
open Float.Model.UnpackedFloat

/-- The unpacked numbers that products and quotients of numbers without a minus
sign never lead away from. -/
inductive DegenerateParts : UnpackedFloat → Prop
  | notANumber : DegenerateParts .notANumber
  | infinity : DegenerateParts (.infinity .positive)
  | zero : DegenerateParts (.zero .positive)

/-- The unpacked numbers without a minus sign. What is no number has no sign. -/
inductive UnsignedParts : UnpackedFloat → Prop
  | degenerate {a : UnpackedFloat} : DegenerateParts a → UnsignedParts a
  | finite {mantissa : Nat} {exponent : Int} {positive : 0 < mantissa} :
      UnsignedParts (.finite .positive mantissa exponent positive)

section Parts

variable {a b : UnpackedFloat}

/-- A degenerate factor is never made good: infinity times zero is no number, and
every other such product is degenerate by its own clause. -/
theorem DegenerateParts.mul_left (lost : DegenerateParts a) (unsigned : UnsignedParts b) :
    DegenerateParts (UnpackedFloat.mul .binary64 a b) := by
  cases lost <;> rcases unsigned with ⟨⟨⟩⟩ | _ <;> constructor

theorem DegenerateParts.mul_right (unsigned : UnsignedParts a) (lost : DegenerateParts b) :
    DegenerateParts (UnpackedFloat.mul .binary64 a b) := by
  cases lost <;> rcases unsigned with ⟨⟨⟩⟩ | _ <;> constructor

/-- Neither is a degenerate part of a quotient: what is divided by infinity is zero,
and what is divided by zero is infinite or no number. -/
theorem DegenerateParts.div_left (lost : DegenerateParts a) (unsigned : UnsignedParts b) :
    DegenerateParts (UnpackedFloat.div .binary64 a b) := by
  cases lost <;> rcases unsigned with ⟨⟨⟩⟩ | _ <;> constructor

theorem DegenerateParts.div_right (unsigned : UnsignedParts a) (lost : DegenerateParts b) :
    DegenerateParts (UnpackedFloat.div .binary64 a b) := by
  cases lost <;> rcases unsigned with ⟨⟨⟩⟩ | _ <;> constructor

/-- Rounding may lead to zero but not below it. -/
theorem unsignedParts_round (mantissa : Nat) (exponent : Int) (accuracy : Accuracy) :
    UnsignedParts (roundWithAccuracy .binary64 .positive mantissa exponent accuracy) := by
  unfold roundWithAccuracy
  dsimp only
  split
  · exact .degenerate .zero
  · exact .finite

theorem UnsignedParts.mul (left : UnsignedParts a) (right : UnsignedParts b) :
    UnsignedParts (UnpackedFloat.mul .binary64 a b) := by
  cases left with
  | degenerate lost => exact .degenerate (lost.mul_left right)
  | finite =>
    cases right with
    | degenerate lost => exact .degenerate (lost.mul_right .finite)
    | finite => exact unsignedParts_round _ _ _

theorem UnsignedParts.div (left : UnsignedParts a) (right : UnsignedParts b) :
    UnsignedParts (UnpackedFloat.div .binary64 a b) := by
  cases left with
  | degenerate lost => exact .degenerate (lost.div_left right)
  | finite =>
    cases right with
    | degenerate lost => exact .degenerate (lost.div_right .finite)
    | finite => exact unsignedParts_round _ _ _

/-- Packing keeps the sign, whatever it makes of the other parts. -/
theorem unsignedParts_components (exponent : BitVec 11) (mantissa : BitVec 52) :
    UnsignedParts (unpack .binary64 (packComponents .binary64 .positive exponent mantissa)) := by
  unfold unpack
  simp only [unpackSign_packComponents, Sign.ofBitVec_toBitVec]
  split
  · split
    · exact .degenerate .infinity
    · exact .degenerate .notANumber
  · split
    · split
      · exact .degenerate .zero
      · exact .finite
    · exact .finite

theorem UnsignedParts.unpack_pack (unsigned : UnsignedParts a) :
    UnsignedParts (unpack .binary64 (pack .binary64 a)) := by
  rcases unsigned with ⟨_ | _ | _⟩ | _
  · exact unsignedParts_components _ _
  · exact unsignedParts_components _ _
  · exact unsignedParts_components _ _
  · -- A mantissa in range is packed as it is; too large an exponent packs to infinity.
    unfold pack
    dsimp only
    split
    · exact unsignedParts_components _ _
    · split <;> exact unsignedParts_components _ _

theorem DegenerateParts.unpack_pack (lost : DegenerateParts a) :
    unpack .binary64 (pack .binary64 a) = a := by
  cases lost with
  | notANumber => exact unpack_packedNaN
  | infinity => rfl
  | zero => exact unpack_packedZero

end Parts

theorem parts_mul (x y : Float) :
    parts (x * y) = unpack .binary64 (pack .binary64 (UnpackedFloat.mul .binary64 (parts x) (parts y))) :=
  rfl

theorem parts_div (x y : Float) :
    parts (x / y) = unpack .binary64 (pack .binary64 (UnpackedFloat.div .binary64 (parts x) (parts y))) :=
  rfl

/-- A float without a minus sign. -/
def Unsigned (x : Float) : Prop :=
  UnsignedParts (parts x)

section Floats

variable {x y : Float}

theorem PositiveFinite.unsigned (valid : PositiveFinite x) : Unsigned x := by
  obtain ⟨mantissa, exponent, positive, split⟩ := positiveFinite_iff.mp valid
  rw [Unsigned, split]
  exact .finite

theorem DegenerateParts.not_positiveFinite {a : UnpackedFloat} (lost : DegenerateParts a)
    (packed : parts x = unpack .binary64 (pack .binary64 a)) : ¬ PositiveFinite x := by
  rw [positiveFinite_iff, packed, lost.unpack_pack]
  rintro ⟨mantissa, exponent, positive, split⟩
  rw [split] at lost
  cases lost

/-- A float without a minus sign is a positive finite number, or there is no way
back from it. -/
theorem Unsigned.cases (unsigned : Unsigned x) : PositiveFinite x ∨ DegenerateParts (parts x) := by
  rw [Unsigned] at unsigned
  cases split : parts x with
  | finite sign mantissa exponent positive =>
    rw [split] at unsigned
    rcases unsigned with ⟨⟨⟩⟩ | _
    exact Or.inl (positiveFinite_iff.mpr ⟨mantissa, exponent, positive, split⟩)
  | infinity | notANumber | zero =>
    rw [split] at unsigned
    rcases unsigned with lost | _
    exact Or.inr lost

theorem Unsigned.mul (left : Unsigned x) (right : Unsigned y) : Unsigned (x * y) := by
  rw [Unsigned, parts_mul]
  exact (UnsignedParts.mul left right).unpack_pack

theorem Unsigned.div (left : Unsigned x) (right : Unsigned y) : Unsigned (x / y) := by
  rw [Unsigned, parts_div]
  exact (UnsignedParts.div left right).unpack_pack

/-- A product is a positive finite number only if its factors are. -/
theorem positiveFinite_of_mul (left : Unsigned x) (right : Unsigned y)
    (product : PositiveFinite (x * y)) : PositiveFinite x ∧ PositiveFinite y := by
  have kept (lost : DegenerateParts (UnpackedFloat.mul .binary64 (parts x) (parts y))) : False :=
    lost.not_positiveFinite (parts_mul x y) product
  rcases left.cases with validLeft | lost
  · rcases right.cases with validRight | lost
    · exact ⟨validLeft, validRight⟩
    · exact (kept (lost.mul_right left)).elim
  · exact (kept (lost.mul_left right)).elim

/-- A quotient is a positive finite number only if its two parts are. -/
theorem positiveFinite_of_div (left : Unsigned x) (right : Unsigned y)
    (quotient : PositiveFinite (x / y)) : PositiveFinite x ∧ PositiveFinite y := by
  have kept (lost : DegenerateParts (UnpackedFloat.div .binary64 (parts x) (parts y))) : False :=
    lost.not_positiveFinite (parts_div x y) quotient
  rcases left.cases with validLeft | lost
  · rcases right.cases with validRight | lost
    · exact ⟨validLeft, validRight⟩
    · exact (kept (lost.div_right left)).elim
  · exact (kept (lost.div_left right)).elim

end Floats

end Mensura
