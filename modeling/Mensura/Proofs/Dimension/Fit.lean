import Mensura.MeasureUnit
import Mensura.Proofs.Except

namespace Mensura

/-- The overflow of exact exponents: the first base in the order of the bases
whose exponent does not fit, and the number that is reported for it. -/
structure ExponentOverflow.Of (overflow : ExponentOverflow) (lanes : Base → Int) : Prop where
  outside : ¬ Dimension.ExponentFits (lanes overflow.base)
  first : ∃ before after, Base.all = before ++ overflow.base :: after ∧
    ∀ base ∈ before, Dimension.ExponentFits (lanes base)
  exponent_eq : overflow.exponent = Dimension.reported (lanes overflow.base)

theorem ExponentOverflow.Of.not_fits {overflow : ExponentOverflow} {lanes : Base → Int}
    (found : overflow.Of lanes) : ¬ ∀ base, Dimension.ExponentFits (lanes base) :=
  fun fits => found.outside (fits overflow.base)

namespace Dimension

theorem exponent_fits (d : Dimension) (base : Base) : ExponentFits (d.exponent base) := by
  have bounds (e : Int8) : ExponentFits e.toInt := ⟨e.le_toInt, by have := e.toInt_lt; omega⟩
  cases base <;> exact bounds _

theorem exponent_dimensionless (base : Base) : dimensionless.exponent base = 0 := by
  cases base <;> rfl

theorem exponent_ofExponents {lanes : Base → Int} (fits : ∀ base, ExponentFits (lanes base))
    (base : Base) : (ofExponents lanes).exponent base = lanes base := by
  have back {e : Int} (fit : ExponentFits e) : (Int8.ofInt e).toInt = e :=
    Int8.toInt_ofInt_of_le fit.1 (Int.lt_add_one_of_le fit.2)
  cases base <;> exact back (fits _)

/-- Exact exponents make a signature just if all of them fit one. -/
theorem fit_eq_ok_iff {lanes : Base → Int} {d : Dimension} :
    fit lanes = .ok d ↔
      (∀ base, ExponentFits (lanes base)) ∧ ∀ base, d.exponent base = lanes base := by
  unfold fit
  split
  · rename_i base found
    have outside : ¬ ExponentFits (lanes base) := by simpa using List.find?_some found
    exact ⟨nofun, fun made => absurd (made.1 base) outside⟩
  · rename_i none
    have fits : ∀ base, ExponentFits (lanes base) := by
      intro base
      simpa using List.find?_eq_none.mp none base base.mem_all
    constructor
    · intro made
      cases made
      exact ⟨fits, exponent_ofExponents fits⟩
    · intro made
      refine congrArg _ (ext_exponent fun base => ?_)
      rw [exponent_ofExponents fits, made.2]

/-- Exact exponents are refused just with their overflow. -/
theorem fit_eq_error_iff {lanes : Base → Int} {overflow : ExponentOverflow} :
    fit lanes = .error overflow ↔ overflow.Of lanes := by
  have search (base : Base) :
      (Base.all.find? fun base => ¬ ExponentFits (lanes base)) = some base ↔
        ¬ ExponentFits (lanes base) ∧ ∃ before after, Base.all = before ++ base :: after ∧
          ∀ earlier ∈ before, ExponentFits (lanes earlier) := by
    simp [List.find?_eq_some_iff_append]
  unfold fit
  split
  · rename_i base found
    obtain ⟨outside, first⟩ := (search base).mp found
    constructor
    · intro refused
      cases refused
      exact ⟨outside, first, rfl⟩
    · intro other
      have same := found.symm.trans ((search overflow.base).mpr ⟨other.outside, other.first⟩)
      obtain ⟨overflowBase, exponent⟩ := overflow
      cases same
      obtain rfl : exponent = reported (lanes overflowBase) := other.exponent_eq
      rfl
  · rename_i none
    refine ⟨nofun, fun other => ?_⟩
    cases none.symm.trans ((search overflow.base).mpr ⟨other.outside, other.first⟩)

end Dimension

namespace MeasureUnit

/-- A unit with a given scale and given exact exponents. -/
structure Has (u : MeasureUnit) (scale : Float) (lanes : Base → Int) : Prop where
  scale_eq : u.scale = scale
  exponent_eq : ∀ base, u.dimension.exponent base = lanes base

theorem Has.exponents {u : MeasureUnit} {scale : Float} {lanes : Base → Int} (has : u.Has scale lanes) :
    u.dimension.exponent = lanes :=
  funext has.exponent_eq

theorem Has.unique {u v : MeasureUnit} {scale : Float} {lanes : Base → Int}
    (first : u.Has scale lanes) (second : v.Has scale lanes) : u = v := by
  obtain ⟨scaleU, dimensionU⟩ := u
  obtain ⟨scaleV, dimensionV⟩ := v
  obtain ⟨rfl, exponentsU⟩ := first
  obtain ⟨rfl, exponentsV⟩ := second
  have same : dimensionU = dimensionV :=
    Dimension.ext_exponent fun base => (exponentsU base).trans (exponentsV base).symm
  rw [same]

theorem has_exists (scale : Float) {lanes : Base → Int}
    (fits : ∀ base, Dimension.ExponentFits (lanes base)) : ∃ u : MeasureUnit, u.Has scale lanes :=
  ⟨⟨scale, .ofExponents lanes⟩, rfl, Dimension.exponent_ofExponents fits⟩

theorem fit_unit_eq_ok_iff {scale : Float} {lanes : Base → Int} {u : MeasureUnit} :
    (do return ⟨scale, ← Dimension.fit lanes⟩) = Except.ok u ↔
      (∀ base, Dimension.ExponentFits (lanes base)) ∧ u.Has scale lanes := by
  rw [bind_eq_ok_iff]
  constructor
  · rintro ⟨d, made, same⟩
    obtain ⟨fits, exponents⟩ := Dimension.fit_eq_ok_iff.mp made
    cases same
    exact ⟨fits, rfl, exponents⟩
  · rintro ⟨fits, rfl, exponents⟩
    exact ⟨u.dimension, Dimension.fit_eq_ok_iff.mpr ⟨fits, exponents⟩, rfl⟩

theorem fit_unit_eq_error_iff {scale : Float} {lanes : Base → Int} {overflow : ExponentOverflow} :
    (do return ⟨scale, ← Dimension.fit lanes⟩ : Except ExponentOverflow MeasureUnit) =
      .error overflow ↔ overflow.Of lanes := by
  rw [← Dimension.fit_eq_error_iff]
  cases Dimension.fit lanes with
  | ok _ => exact ⟨nofun, nofun⟩
  | error _ => exact ⟨congrArg _ ∘ Except.error.inj, congrArg _ ∘ Except.error.inj⟩

theorem tryMul_eq_ok_iff {u v w : MeasureUnit} :
    u.tryMul v = .ok w ↔
      (∀ base, Dimension.ExponentFits (u.dimension.exponent base + v.dimension.exponent base)) ∧
      w.Has (u.scale * v.scale) fun base => u.dimension.exponent base + v.dimension.exponent base :=
  fit_unit_eq_ok_iff

theorem tryDiv_eq_ok_iff {u v w : MeasureUnit} :
    u.tryDiv v = .ok w ↔
      (∀ base, Dimension.ExponentFits (u.dimension.exponent base - v.dimension.exponent base)) ∧
      w.Has (u.scale / v.scale) fun base => u.dimension.exponent base - v.dimension.exponent base :=
  fit_unit_eq_ok_iff

theorem tryPow_eq_ok_iff {u w : MeasureUnit} {n : Int} :
    u.tryPow n = .ok w ↔
      (∀ base, Dimension.ExponentFits (u.dimension.exponent base * n)) ∧
      w.Has (integerPower u.scale n) fun base => u.dimension.exponent base * n :=
  fit_unit_eq_ok_iff

theorem tryMul_eq_error_iff {u v : MeasureUnit} {overflow : ExponentOverflow} :
    u.tryMul v = .error overflow ↔
      overflow.Of fun base => u.dimension.exponent base + v.dimension.exponent base :=
  fit_unit_eq_error_iff

theorem tryDiv_eq_error_iff {u v : MeasureUnit} {overflow : ExponentOverflow} :
    u.tryDiv v = .error overflow ↔
      overflow.Of fun base => u.dimension.exponent base - v.dimension.exponent base :=
  fit_unit_eq_error_iff

theorem tryPow_eq_error_iff {u : MeasureUnit} {n : Int} {overflow : ExponentOverflow} :
    u.tryPow n = .error overflow ↔ overflow.Of fun base => u.dimension.exponent base * n :=
  fit_unit_eq_error_iff

end MeasureUnit

end Mensura
