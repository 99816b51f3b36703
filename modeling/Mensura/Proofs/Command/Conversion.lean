import Mensura.Command.Convert
import Mensura.Proofs.MeasureUnit.Scale

namespace Mensura

namespace MeasureUnit

variable {u v quotient : MeasureUnit} {scale : Float}

theorem dimensionless_quotient_iff
    (has : quotient.Has scale fun base => u.dimension.exponent base - v.dimension.exponent base) :
    quotient.dimension = .dimensionless ↔ u.dimension = v.dimension := by
  constructor
  · intro bare
    refine Dimension.ext_exponent fun base => ?_
    have difference := has.exponent_eq base
    rw [bare, Dimension.exponent_dimensionless] at difference
    exact Int.sub_eq_zero.mp difference.symm
  · intro same
    refine Dimension.ext_exponent fun base => ?_
    rw [has.exponent_eq, Dimension.exponent_dimensionless, same, Int.sub_self]

theorem asFactor_of_dimensionless (bare : u.dimension = .dimensionless) : u.asFactor = .ok u.scale := by
  rw [asFactor, expectDimension, if_pos bare]
  rfl

theorem asFactor_of_ne (other : u.dimension ≠ .dimensionless) :
    u.asFactor = .error ⟨.dimensionless, u.dimension⟩ := by
  rw [asFactor, expectDimension, if_neg other]
  rfl

end MeasureUnit

theorem commandUnit_eq_ok_iff {what text : String} {u : MeasureUnit} :
    commandUnit what text = .ok u ↔ parseUnit text = .ok u :=
  mapError_eq_ok_iff

theorem commandUnit_of_error {what text : String} {error : UnitError}
    (refused : parseUnit text = .error error) :
    commandUnit what text =
      .error ⟨"invalid " ++ what ++ " unit '" ++ text ++ "'", [error.message]⟩ :=
  mapError_eq_error_iff.mpr ⟨error, refused, rfl⟩

section Parts

variable {source target : String} {u v : MeasureUnit}

/-- Behind two readable texts a conversion is a division and the look at what it gives. -/
theorem convert_of_units (above : parseUnit source = .ok u) (below : parseUnit target = .ok v)
    (value : Float) :
    convert value source target = do
      let ratio ← (u.div v).mapError .fault
      let factor ← ratio.asFactor.mapError fun mismatch =>
        .failure ⟨"cannot convert '" ++ source ++ "' to '" ++ target ++ "'", [mismatch.message]⟩
      return value * factor := by
  rw [convert, commandUnit_eq_ok_iff.mpr above, commandUnit_eq_ok_iff.mpr below]
  rfl

theorem convert_of_invalid_source {error : UnitError} (refused : parseUnit source = .error error)
    (value : Float) :
    convert value source target =
      .error (.failure ⟨"invalid source unit '" ++ source ++ "'", [error.message]⟩) := by
  rw [convert, commandUnit_of_error refused]
  rfl

theorem convert_of_invalid_target {error : UnitError} (above : parseUnit source = .ok u)
    (refused : parseUnit target = .error error) (value : Float) :
    convert value source target =
      .error (.failure ⟨"invalid target unit '" ++ target ++ "'", [error.message]⟩) := by
  rw [convert, commandUnit_eq_ok_iff.mpr above, commandUnit_of_error refused]
  rfl

end Parts

/-- How a conversion ends. A text that is no unit is reported, the source first.
Two units with a quotient give a value if their dimensions are equal, and are
reported otherwise. Two units without a quotient are a fault, even if their
dimensions are equal. -/
theorem convert_outcome (value : Float) (source target : String) :
    (∀ error, parseUnit source = .error error → convert value source target =
      .error (.failure ⟨"invalid source unit '" ++ source ++ "'", [error.message]⟩)) ∧
    (∀ u error, parseUnit source = .ok u → parseUnit target = .error error →
      convert value source target =
        .error (.failure ⟨"invalid target unit '" ++ target ++ "'", [error.message]⟩)) ∧
    ∀ u v, parseUnit source = .ok u → parseUnit target = .ok v →
      (u.Divisible v → u.dimension = v.dimension →
        convert value source target = .ok (value * (u.scale / v.scale))) ∧
      (u.Divisible v → u.dimension ≠ v.dimension → ∃ difference : Dimension,
        (∀ base, difference.exponent base = u.dimension.exponent base - v.dimension.exponent base) ∧
        convert value source target = .error (.failure
          ⟨"cannot convert '" ++ source ++ "' to '" ++ target ++ "'",
            [DimensionMismatch.message ⟨.dimensionless, difference⟩]⟩)) ∧
      (¬ u.Divisible v → ∃ fault, u.DivisionFault v fault ∧
        convert value source target = .error (.fault fault)) := by
  refine ⟨fun _ refused => convert_of_invalid_source refused value,
    fun _ _ above refused => convert_of_invalid_target above refused value, fun u v above below => ?_⟩
  rw [convert_of_units above below]
  refine ⟨fun divisible same => ?_, fun divisible apart => ?_, fun indivisible => ?_⟩
  · obtain ⟨quotient, made, has⟩ := divisible.quotient
    have bare := (MeasureUnit.dimensionless_quotient_iff has).mpr same
    rw [made, ← has.scale_eq]
    simp only [Except.mapError, bind, Except.bind]
    rw [MeasureUnit.asFactor_of_dimensionless bare]
    rfl
  · obtain ⟨quotient, made, has⟩ := divisible.quotient
    have other := mt (MeasureUnit.dimensionless_quotient_iff has).mp apart
    refine ⟨quotient.dimension, has.exponent_eq, ?_⟩
    rw [made]
    simp only [Except.mapError, bind, Except.bind]
    rw [MeasureUnit.asFactor_of_ne other]
  · obtain ⟨fault, reason, failed⟩ := MeasureUnit.div_fault_exists indivisible
    refine ⟨fault, reason, ?_⟩
    rw [failed]
    rfl

/-- Two readable texts do not always have a quotient: an exponent may leave its
range, and between equal dimensions the scale may. -/
theorem convert_fault_reached :
    (∃ u v, parseUnit "m^100" = .ok u ∧ parseUnit "m^-100" = .ok v ∧ u.dimension ≠ v.dimension ∧
      convert 1.0 "m^100" "m^-100" = .error (.fault (.exponent ⟨.length, 200⟩))) ∧
    ∃ u v, parseUnit "Ym^12" = .ok u ∧ parseUnit "ym^12" = .ok v ∧ u.dimension = v.dimension ∧
      convert 1.0 "Ym^12" "ym^12" = .error (.fault .scale) := by
  constructor
  · refine ⟨⟨1.0, { m := 100 }⟩, ⟨1.0, { m := -100 }⟩, ?_⟩
    decide +kernel
  · refine ⟨⟨integerPower 1e24 12, { m := 12 }⟩, ⟨integerPower 1e-24 12, { m := 12 }⟩, ?_⟩
    decide +kernel

end Mensura
