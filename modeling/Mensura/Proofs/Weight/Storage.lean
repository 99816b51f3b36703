import Mensura.Proofs.Weight.Outcome

namespace Mensura

namespace Weight

/-- What the storage of the forces holds once the weights of non-empty masses
are in it. Each is the mass converted once, times the acceleration converted
once, converted back once, and cells off the grid of the forces are as before. -/
structure Stored (m g f : Buffer) (cells : Array Float) : Prop where
  size : cells.size = f.cells.size
  on_grid : ∀ i, i < m.size → ∃ mass acceleration,
    m.cells[i * m.layout.stride]? = some mass ∧ g.cells[0]? = some acceleration ∧
    cells[i * f.layout.stride]? =
      some (mass * m.unit.scale * (acceleration * g.unit.scale) / f.unit.scale)
  off_grid : ∀ cell, (∀ i, i < m.size → i * f.layout.stride ≠ cell) → cells[cell]? = f.cells[cell]?

theorem putFrom_stored {m g f : Buffer} {raw : Float} (equal : m.size = f.size)
    (held : g.elements = [raw]) :
    Stored m g f
      (f.putFrom 0 (m.elements.map (weigh m.unit f.unit ⟨g.unit.toCanonical raw⟩))).cells where
  size := Buffer.putFrom_cells_size ..
  on_grid := by
    intro i inside
    obtain ⟨mass, heldMass⟩ := m.element_exists inside
    have single : 0 < g.size := by rw [← g.elements_length, held]; exact Nat.one_pos
    have atAcceleration := Buffer.elements_getElem? single
    rw [held, Layout.offset, Nat.zero_mul] at atAcceleration
    refine ⟨mass, raw, (Buffer.elements_getElem? inside).symm.trans heldMass, atAcceleration.symm, ?_⟩
    refine Buffer.putFrom_all_cell (by simpa using equal) ?_
    rw [List.getElem?_map, heldMass]
    rfl
  off_grid := by
    intro cell other
    exact Buffer.putFrom_other_cell fun i _ upper => other i (by simpa using upper)

end Weight

namespace WeightKernel

variable {kernel : WeightKernel}

/-- What a computation that succeeds writes: every force, or nothing if there
are no masses. -/
theorem run_writes_weights (known : kernel ∈ registered) {m g f : Buffer}
    (done : (kernel.run m g f).result = .ok ()) :
    m.size = f.size ∧ (m.size ≠ 0 → Weight.Stored m g f (kernel.run m g f).force.cells) ∧
      (m.size = 0 → (kernel.run m g f).force.cells = f.cells) := by
  have settled := run_settled known m g f
  generalize kernel.run m g f = outcome at settled done ⊢
  cases settled with
  | refused _ => cases done
  | idle _ equal empty => exact ⟨equal, fun some => absurd empty some, fun _ => rfl⟩
  | @written raw _ equal some held =>
    exact ⟨equal, fun _ => Weight.putFrom_stored equal held, fun empty => absurd empty some⟩

/-- Three masses, one in every second cell. -/
def spacedMasses : Buffer :=
  ⟨#[1.0, 99.0, 2.0, 99.0, 3.0], ⟨3, 2, by decide⟩, .canonical .mass, by decide⟩

def doubling : Buffer :=
  .whole #[2.0] (.canonical .acceleration)

/-- Three forces, one in every third cell. -/
def spacedForces : Buffer :=
  ⟨#[-1.0, -1.0, -1.0, -1.0, -1.0, -1.0, -1.0], ⟨3, 3, by decide⟩, .canonical .force, by decide⟩

theorem run_writes_weights_spaced :
    pipeline ∈ registered ∧ (pipeline.run spacedMasses doubling spacedForces).result = .ok () ∧
      spacedMasses.size = spacedForces.size ∧
      (spacedMasses.size ≠ 0 → Weight.Stored spacedMasses doubling spacedForces
        (pipeline.run spacedMasses doubling spacedForces).force.cells) ∧
      (spacedMasses.size = 0 →
        (pipeline.run spacedMasses doubling spacedForces).force.cells = spacedForces.cells) :=
  ⟨List.mem_cons_self .., rfl, run_writes_weights (List.mem_cons_self ..) rfl⟩

example : (indexed.run spacedMasses doubling spacedForces).force.cells =
    #[2.0, -1.0, -1.0, 4.0, -1.0, -1.0, 6.0] := by
  decide +kernel

end WeightKernel

end Mensura
