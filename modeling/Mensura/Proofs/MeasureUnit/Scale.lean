import Mensura.Proofs.MeasureUnit.Acceptance

namespace Mensura

/-- What the scale of a unit is meant to be. -/
def PositiveFinite (x : Float) : Prop :=
  x.isFinite = true ∧ 0.0 < x

instance (x : Float) : Decidable (PositiveFinite x) :=
  inferInstanceAs (Decidable (_ ∧ _))

namespace MeasureUnit

theorem scaleIsValid_iff {scale : Float} : scaleIsValid scale = true ↔ PositiveFinite scale := by
  simp only [scaleIsValid, PositiveFinite, Bool.and_eq_true, decide_eq_true_eq]

theorem new_eq_ok_iff {scale : Float} {dimension : Dimension} {u : MeasureUnit} :
    new scale dimension = .ok u ↔ PositiveFinite scale ∧ u = ⟨scale, dimension⟩ := by
  rw [← scaleIsValid_iff, new]
  split
  · rename_i valid
    exact ⟨fun made => ⟨valid, (Except.ok.inj made).symm⟩, fun made => congrArg _ made.2.symm⟩
  · rename_i invalid
    exact ⟨nofun, fun made => absurd made.1 invalid⟩

theorem new_eq_error_iff {scale : Float} {dimension : Dimension} {fault : Fault} :
    new scale dimension = .error fault ↔ ¬ PositiveFinite scale ∧ fault = .scale := by
  rw [← scaleIsValid_iff, new]
  split
  · rename_i valid
    exact ⟨nofun, fun failed => absurd valid failed.1⟩
  · rename_i invalid
    exact ⟨fun failed => ⟨invalid, (Except.error.inj failed).symm⟩, fun failed => congrArg _ failed.2.symm⟩

/-- A product, a quotient or a power where the caller vouches for exponents and scale. -/
def guarded (made : Except ExponentOverflow MeasureUnit) : Except Fault MeasureUnit := do
  let u ← made.mapError .exponent
  new u.scale u.dimension

theorem guarded_eq_ok_iff {made : Except ExponentOverflow MeasureUnit} {u : MeasureUnit} :
    guarded made = .ok u ↔ made = .ok u ∧ PositiveFinite u.scale := by
  rw [guarded, bind_eq_ok_iff]
  constructor
  · rintro ⟨v, formed, vouched⟩
    obtain ⟨valid, rfl⟩ := new_eq_ok_iff.mp vouched
    exact ⟨mapError_eq_ok_iff.mp formed, valid⟩
  · rintro ⟨formed, valid⟩
    exact ⟨u, mapError_eq_ok_iff.mpr formed, new_eq_ok_iff.mpr ⟨valid, rfl⟩⟩

theorem guarded_eq_error_iff {made : Except ExponentOverflow MeasureUnit} {fault : Fault} :
    guarded made = .error fault ↔ (∃ overflow, made = .error overflow ∧ .exponent overflow = fault) ∨
      ∃ u, made = .ok u ∧ ¬ PositiveFinite u.scale ∧ fault = .scale := by
  rw [guarded, bind_eq_error_iff, mapError_eq_error_iff]
  simp only [mapError_eq_ok_iff, new_eq_error_iff]

/-- The two ways to calculate agree as far as a fault does not stop the one of them. -/
theorem guarded_bind (scale : Float) (dimension : Except ExponentOverflow Dimension) :
    (do new scale (← dimension.mapError .exponent)) = guarded do return ⟨scale, ← dimension⟩ := by
  cases dimension <;> rfl

theorem mul_eq_guarded (u v : MeasureUnit) : u.mul v = guarded (u.tryMul v) :=
  guarded_bind _ _

theorem div_eq_guarded (u v : MeasureUnit) : u.div v = guarded (u.tryDiv v) :=
  guarded_bind _ _

theorem pow_eq_guarded (u : MeasureUnit) (n : Int) : u.pow n = guarded (u.tryPow n) :=
  guarded_bind _ _

/-- The units whose quotient is a unit again. -/
structure Divisible (u v : MeasureUnit) : Prop where
  fits : ∀ base, Dimension.ExponentFits (u.dimension.exponent base - v.dimension.exponent base)
  scale : PositiveFinite (u.scale / v.scale)

/-- Why a quotient is not a unit. The exponents are looked at first. -/
inductive DivisionFault (u v : MeasureUnit) : Fault → Prop
  | exponent {overflow : ExponentOverflow} :
      overflow.Of (fun base => u.dimension.exponent base - v.dimension.exponent base) →
      DivisionFault u v (.exponent overflow)
  | scale :
      (∀ base, Dimension.ExponentFits (u.dimension.exponent base - v.dimension.exponent base)) →
      ¬ PositiveFinite (u.scale / v.scale) → DivisionFault u v .scale

theorem div_eq_ok_iff {u v w : MeasureUnit} :
    u.div v = .ok w ↔ u.Divisible v ∧
      w.Has (u.scale / v.scale) fun base => u.dimension.exponent base - v.dimension.exponent base := by
  rw [div_eq_guarded, guarded_eq_ok_iff, tryDiv_eq_ok_iff]
  constructor
  · rintro ⟨⟨fits, has⟩, valid⟩
    rw [has.scale_eq] at valid
    exact ⟨⟨fits, valid⟩, has⟩
  · rintro ⟨divisible, has⟩
    refine ⟨⟨divisible.fits, has⟩, ?_⟩
    rw [has.scale_eq]
    exact divisible.scale

theorem div_eq_error_iff {u v : MeasureUnit} {fault : Fault} :
    u.div v = .error fault ↔ u.DivisionFault v fault := by
  simp only [div_eq_guarded, guarded_eq_error_iff, tryDiv_eq_ok_iff, tryDiv_eq_error_iff]
  constructor
  · rintro (⟨overflow, outside, rfl⟩ | ⟨w, ⟨fits, has⟩, invalid, rfl⟩)
    · exact .exponent outside
    · rw [has.scale_eq] at invalid
      exact .scale fits invalid
  · intro fault
    cases fault with
    | exponent outside => exact Or.inl ⟨_, outside, rfl⟩
    | scale fits invalid =>
      obtain ⟨w, has⟩ := has_exists (u.scale / v.scale) fits
      refine Or.inr ⟨w, ⟨fits, has⟩, ?_, rfl⟩
      rw [has.scale_eq]
      exact invalid

theorem Divisible.quotient {u v : MeasureUnit} (divisible : u.Divisible v) :
    ∃ w, u.div v = .ok w ∧
      w.Has (u.scale / v.scale) fun base => u.dimension.exponent base - v.dimension.exponent base := by
  obtain ⟨w, has⟩ := has_exists (u.scale / v.scale) divisible.fits
  exact ⟨w, div_eq_ok_iff.mpr ⟨divisible, has⟩, has⟩

theorem div_fault_exists {u v : MeasureUnit} (indivisible : ¬ u.Divisible v) :
    ∃ fault, u.DivisionFault v fault ∧ u.div v = .error fault := by
  cases made : u.div v with
  | ok w => exact absurd (div_eq_ok_iff.mp made).1 indivisible
  | error fault => exact ⟨fault, div_eq_error_iff.mp made, rfl⟩

theorem checked_scale {scale : Float} {dimension : Dimension} {u : MeasureUnit}
    (made : checked scale dimension = .ok u) : PositiveFinite u.scale := by
  obtain ⟨valid, rfl⟩ := checked_eq_ok_iff.mp made
  exact valid

theorem new_scale {scale : Float} {dimension : Dimension} {u : MeasureUnit}
    (made : new scale dimension = .ok u) : PositiveFinite u.scale := by
  obtain ⟨valid, rfl⟩ := new_eq_ok_iff.mp made
  exact valid

end MeasureUnit

theorem UnitSymbol.table_scale : ∀ symbol ∈ table, PositiveFinite symbol.scale := by
  decide +kernel

/-- Of the symbols with multiples only the gram is not a coherent unit. -/
theorem UnitSymbol.multiple_scale : ∀ symbol ∈ table, symbol.takesMultiple = true →
    symbol.scale = 1.0 ∨ symbol.scale = 1e-3 := by
  decide +kernel

theorem Multiple.table_scale : ∀ multiple ∈ table,
    PositiveFinite (multiple.factor * 1.0) ∧ PositiveFinite (multiple.factor * 1e-3) := by
  decide +kernel

/-- Whatever a token is resolved to, its scale is that of a unit. -/
theorem resolveSymbol_scale {token : List Char} {scale : Float} {dimension : Dimension}
    (found : resolveSymbol token = some (scale, dimension)) : PositiveFinite scale := by
  unfold resolveSymbol resolveIn at found
  split at found
  · rename_i symbol whole
    cases found
    exact UnitSymbol.table_scale symbol (List.mem_of_find?_eq_some whole)
  · obtain ⟨multiple, known, resolved⟩ := List.exists_of_findSome?_eq_some found
    obtain ⟨rest, _, resolved⟩ := Option.bind_eq_some_iff.mp resolved
    obtain ⟨symbol, whole, resolved⟩ := Option.bind_eq_some_iff.mp resolved
    cases resolved
    have named := List.find?_some whole
    have takes := (Bool.and_eq_true_iff.mp named).1
    obtain ⟨coherent, gram⟩ := Multiple.table_scale multiple known
    rcases UnitSymbol.multiple_scale symbol (List.mem_of_find?_eq_some whole) takes with same | same <;>
      rw [same]
    · exact coherent
    · exact gram

theorem parseUnit_scale {text : String} {u : MeasureUnit} (done : parseUnit text = .ok u) :
    PositiveFinite u.scale := by
  obtain ⟨_, _, meaning, _, _, _, valid, has⟩ := parseUnit_eq_ok_iff.mp done
  rw [has.scale_eq]
  exact valid

end Mensura
