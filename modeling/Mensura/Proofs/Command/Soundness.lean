import Mensura.Proofs.Command.Conversion

namespace Mensura

namespace MeasureUnit

variable {u v quotient : MeasureUnit}

/-- The quotient of two units is a bare factor just if their dimensions are
equal. Differences of exponents do not wrap, so none of them is lost. -/
theorem asFactor_quotient_iff (made : u.div v = .ok quotient) :
    (∃ factor, quotient.asFactor = .ok factor) ↔ u.dimension = v.dimension := by
  obtain ⟨_, has⟩ := div_eq_ok_iff.mp made
  rw [← dimensionless_quotient_iff has]
  constructor
  · intro ⟨factor, known⟩
    by_contra other
    rw [asFactor_of_ne other] at known
    cases known
  · intro bare
    exact ⟨quotient.scale, asFactor_of_dimensionless bare⟩

/-- Between equal dimensions only the scale can be in the way of a quotient. -/
theorem divisible_of_dimension_eq (same : u.dimension = v.dimension)
    (scale : PositiveFinite (u.scale / v.scale)) : u.Divisible v := by
  refine ⟨fun base => ?_, scale⟩
  rw [same, Int.sub_self]
  decide

end MeasureUnit

theorem Dimension.text_dimensionless : Dimension.dimensionless.text = "1" := by
  have bare : Dimension.dimensionless.isDimensionless = true := by decide
  rw [text, chars, if_pos bare]

theorem DimensionMismatch.message_dimensionless (found : Dimension) :
    DimensionMismatch.message ⟨.dimensionless, found⟩ =
      "dimension mismatch: expected 1, found " ++ found.text := by
  have joined : "dimension mismatch: expected " ++ "1" ++ ", found " =
      "dimension mismatch: expected 1, found " := by decide
  unfold message
  dsimp only
  rw [Dimension.text_dimensionless]
  exact congrArg (· ++ found.text) joined

section Parts

variable {source target : String} {u v quotient : MeasureUnit}

theorem convert_of_fault (above : parseUnit source = .ok u) (below : parseUnit target = .ok v)
    {fault : Fault} (failed : u.div v = .error fault) (value : Float) :
    convert value source target = .error (.fault fault) := by
  rw [convert_of_units above below, failed]
  rfl

theorem convert_of_same_dimension (above : parseUnit source = .ok u)
    (below : parseUnit target = .ok v) (made : u.div v = .ok quotient)
    (same : u.dimension = v.dimension) (value : Float) :
    convert value source target = .ok (value * (u.scale / v.scale)) := by
  obtain ⟨_, has⟩ := MeasureUnit.div_eq_ok_iff.mp made
  have bare := (MeasureUnit.dimensionless_quotient_iff has).mpr same
  rw [convert_of_units above below, made]
  simp only [Except.mapError, bind, Except.bind, MeasureUnit.asFactor_of_dimensionless bare,
    has.scale_eq]
  rfl

theorem convert_of_other_dimension (above : parseUnit source = .ok u)
    (below : parseUnit target = .ok v) (made : u.div v = .ok quotient)
    (apart : u.dimension ≠ v.dimension) (value : Float) :
    convert value source target = .error (.failure
      ⟨"cannot convert '" ++ source ++ "' to '" ++ target ++ "'",
        ["dimension mismatch: expected 1, found " ++ quotient.dimension.text]⟩) := by
  obtain ⟨_, has⟩ := MeasureUnit.div_eq_ok_iff.mp made
  have other := mt (MeasureUnit.dimensionless_quotient_iff has).mp apart
  rw [convert_of_units above below, made]
  simp only [Except.mapError, bind, Except.bind, MeasureUnit.asFactor_of_ne other,
    DimensionMismatch.message_dimensionless]

end Parts

/-- All ways in which a conversion ends, with what is known of both texts then. -/
inductive ConversionEnd (value : Float) (source target : String) : Except Halt Float → Prop
  | invalidSource {error : UnitError} : parseUnit source = .error error →
      ConversionEnd value source target
        (.error (.failure ⟨"invalid source unit '" ++ source ++ "'", [error.message]⟩))
  | invalidTarget {u : MeasureUnit} {error : UnitError} : parseUnit source = .ok u →
      parseUnit target = .error error →
      ConversionEnd value source target
        (.error (.failure ⟨"invalid target unit '" ++ target ++ "'", [error.message]⟩))
  | fault {u v : MeasureUnit} {fault : Fault} : parseUnit source = .ok u →
      parseUnit target = .ok v → u.div v = .error fault →
      ConversionEnd value source target (.error (.fault fault))
  | apart {u v quotient : MeasureUnit} : parseUnit source = .ok u → parseUnit target = .ok v →
      u.div v = .ok quotient → u.dimension ≠ v.dimension →
      ConversionEnd value source target (.error (.failure
        ⟨"cannot convert '" ++ source ++ "' to '" ++ target ++ "'",
          ["dimension mismatch: expected 1, found " ++ quotient.dimension.text]⟩))
  | converted {u v quotient : MeasureUnit} : parseUnit source = .ok u →
      parseUnit target = .ok v → u.div v = .ok quotient → u.dimension = v.dimension →
      ConversionEnd value source target (.ok (value * (u.scale / v.scale)))

theorem conversionEnd (value : Float) (source target : String) :
    ConversionEnd value source target (convert value source target) := by
  cases above : parseUnit source with
  | error error =>
    rw [convert_of_invalid_source above]
    exact .invalidSource above
  | ok u =>
    cases below : parseUnit target with
    | error error =>
      rw [convert_of_invalid_target above below]
      exact .invalidTarget above below
    | ok v =>
      cases made : u.div v with
      | error fault =>
        rw [convert_of_fault above below made]
        exact .fault above below made
      | ok quotient =>
        by_cases same : u.dimension = v.dimension
        · rw [convert_of_same_dimension above below made same]
          exact .converted above below made same
        · rw [convert_of_other_dimension above below made same]
          exact .apart above below made same

/-- A conversion that gives a value has two texts of one dimension, and one that
is refused although both texts are units has two of different dimensions. A text
that is no unit is reported before anything is compared. -/
theorem convert_sound (value : Float) (source target : String) :
    (∀ r, convert value source target = .ok r → ∃ u v, parseUnit source = .ok u ∧
      parseUnit target = .ok v ∧
      (∀ base, u.dimension.exponent base = v.dimension.exponent base) ∧
      r = value * (u.scale / v.scale)) ∧
    (∀ u v, parseUnit source = .ok u → parseUnit target = .ok v → u.dimension = v.dimension →
      PositiveFinite (u.scale / v.scale) →
      convert value source target = .ok (value * (u.scale / v.scale))) ∧
    (∀ u v failure, parseUnit source = .ok u → parseUnit target = .ok v →
      convert value source target = .error (.failure failure) →
      u.dimension ≠ v.dimension ∧ ∃ difference : Dimension,
        (∀ base, difference.exponent base = u.dimension.exponent base - v.dimension.exponent base) ∧
        failure = ⟨"cannot convert '" ++ source ++ "' to '" ++ target ++ "'",
          ["dimension mismatch: expected 1, found " ++ difference.text]⟩) ∧
    (∀ error, parseUnit source = .error error → convert value source target =
      .error (.failure ⟨"invalid source unit '" ++ source ++ "'", [error.message]⟩)) ∧
    (∀ u error, parseUnit source = .ok u → parseUnit target = .error error →
      convert value source target =
        .error (.failure ⟨"invalid target unit '" ++ target ++ "'", [error.message]⟩)) ∧
    ∀ u v quotient : MeasureUnit, u.div v = .ok quotient →
      ((∃ factor, quotient.asFactor = .ok factor) ↔ u.dimension = v.dimension) := by
  have ending := conversionEnd value source target
  refine ⟨?_, ?_, ?_, fun _ refused => convert_of_invalid_source refused value,
    fun _ _ above refused => convert_of_invalid_target above refused value,
    fun _ _ _ => MeasureUnit.asFactor_quotient_iff⟩
  · intro r done
    rw [done] at ending
    cases ending with
    | converted above below made same => exact ⟨_, _, above, below, fun _ => by rw [same], rfl⟩
  · intro u v above below same scale
    obtain ⟨quotient, made, _⟩ := (MeasureUnit.divisible_of_dimension_eq same scale).quotient
    exact convert_of_same_dimension above below made same value
  · intro u v failure above below refused
    rw [refused] at ending
    cases ending with
    | invalidSource invalid => cases above.symm.trans invalid
    | invalidTarget _ invalid => cases below.symm.trans invalid
    | apart above' below' made apart =>
      cases above.symm.trans above'
      cases below.symm.trans below'
      obtain ⟨_, has⟩ := MeasureUnit.div_eq_ok_iff.mp made
      exact ⟨apart, _, has.exponent_eq, rfl⟩

end Mensura
