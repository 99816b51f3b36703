import Mensura.Command.Bench
import Mensura.Proofs.Binary64.Neutral
import Mensura.Proofs.Weight.Storage

namespace Mensura

/-- A loop over as many forces as masses replaces all of them. -/
theorem plainLoop_eq_map {g : Float} {forces masses : List Float} (equal : forces.length = masses.length) :
    plainLoop g forces masses = masses.map (· * g) := by
  induction forces generalizing masses with
  | nil => rw [List.eq_nil_of_length_eq_zero equal.symm]; rfl
  | cons force forces ih =>
    cases masses with
    | nil => cases equal
    | cons mass masses => rw [plainLoop, ih (Nat.succ.inj equal), List.map_cons]

theorem plainForces_eq_loop {g : Float} {forces masses : Array Float} (equal : forces.size = masses.size) :
    (plainForces g masses).toList = plainLoop g forces.toList masses.toList := by
  rw [plainForces, Array.toList_map, plainLoop_eq_map (by simpa using equal)]

namespace Weight

/-- Masses, an acceleration and as many forces as masses, in units that are each
worth one canonical unit. -/
structure Coherent (m g f : Buffer) : Prop where
  single : g.size = 1
  equal : m.size = f.size
  mass : m.unit.dimension = .mass
  mass_scale : m.unit.scale = 1.0
  acceleration : g.unit.dimension = .acceleration
  acceleration_scale : g.unit.scale = 1.0
  force : f.unit.dimension = .force
  force_scale : f.unit.scale = 1.0

/-- What the plain product with a number leaves in the storage of the forces. The
masses are multiplied as they are stored. -/
structure Plain (acceleration : Float) (m f : Buffer) (outcome : Outcome) : Prop where
  result : outcome.result = .ok ()
  loop : outcome.force.elements = plainLoop acceleration f.elements m.elements
  on_grid : ∀ i, i < m.size → ∃ mass, m.cells[i * m.layout.stride]? = some mass ∧
    outcome.force.cells[i * f.layout.stride]? = some (mass * acceleration)
  off_grid : ∀ cell, (∀ i, i < m.size → i * f.layout.stride ≠ cell) →
    outcome.force.cells[cell]? = f.cells[cell]?

variable {m g f : Buffer}

theorem Coherent.verdict (coherent : Coherent m g f) : verdict m g f = .ok () := by
  rw [Weight.verdict, if_neg (not_not_intro coherent.single), if_neg (not_not_intro coherent.acceleration),
    if_neg (not_not_intro coherent.equal), if_neg (not_not_intro coherent.mass),
    if_neg (not_not_intro coherent.force), ite_self]

/-- Between coherent units a weight is the product of the stored numbers. -/
theorem weigh_coherent {mass gravity force : MeasureUnit} (massScale : mass.scale = 1.0)
    (gravityScale : gravity.scale = 1.0) (forceScale : force.scale = 1.0) (acceleration raw : Float) :
    weigh mass force ⟨gravity.toCanonical acceleration⟩ raw = raw * acceleration := by
  show raw * mass.scale * (acceleration * gravity.scale) / force.scale = _
  rw [massScale, gravityScale, forceScale, float_mul_one, float_mul_one, float_div_one]

theorem Coherent.plain_of_settled (coherent : Coherent m g f) {outcome : Outcome}
    (settled : Settled m g f outcome) :
    ∃ acceleration, g.cells[0]? = some acceleration ∧ Plain acceleration m f outcome := by
  have known := coherent.verdict
  have lengths : f.elements.length = m.elements.length := by simpa using coherent.equal.symm
  have some : 0 < g.size := by rw [coherent.single]; exact Nat.one_pos
  obtain ⟨acceleration, held⟩ := g.element_exists some
  have first := held
  rw [Buffer.elements_getElem? some, Layout.offset, Nat.zero_mul] at first
  refine ⟨acceleration, first, ?_⟩
  cases settled with
  | refused failed =>
    rw [known] at failed
    cases failed
  | idle _ _ empty =>
    have noMasses : m.elements = [] := List.eq_nil_of_length_eq_zero (m.elements_length.trans empty)
    have noForces : f.elements = [] := List.eq_nil_of_length_eq_zero (by rw [lengths, noMasses]; rfl)
    exact ⟨rfl, by rw [noMasses, noForces]; rfl, fun i inside => absurd inside (by omega), fun _ _ => rfl⟩
  | @written raw _ equal _ single =>
    rw [single] at held
    cases held
    have stored := putFrom_stored (f := f) equal single
    have weights : m.elements.map (weigh m.unit f.unit ⟨g.unit.toCanonical acceleration⟩) =
        m.elements.map (· * acceleration) :=
      List.map_congr_left fun raw _ => weigh_coherent coherent.mass_scale coherent.acceleration_scale
        coherent.force_scale acceleration raw
    refine ⟨rfl, ?_, fun i inside => ?_, stored.off_grid⟩
    · rw [plainLoop_eq_map lengths, ← weights]
      exact Buffer.putFrom_all_elements (by simpa using equal)
    · obtain ⟨mass, raw, atMass, atFirst, weight⟩ := stored.on_grid i inside
      cases first.symm.trans atFirst
      rw [coherent.mass_scale, coherent.acceleration_scale, coherent.force_scale, float_mul_one,
        float_mul_one, float_div_one] at weight
      exact ⟨mass, atMass, weight⟩

end Weight

/-- With coherent units every kernel is the plain product. -/
theorem WeightKernel.run_plain {kernel : WeightKernel} (known : kernel ∈ registered) {m g f : Buffer}
    (coherent : Weight.Coherent m g f) :
    ∃ acceleration, g.cells[0]? = some acceleration ∧ Weight.Plain acceleration m f (kernel.run m g f) :=
  coherent.plain_of_settled (run_settled known m g f)

end Mensura
