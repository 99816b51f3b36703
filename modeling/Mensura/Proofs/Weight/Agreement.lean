import Mensura.Proofs.Weight.Loop

namespace Mensura

namespace Weight

/-- What the checks in front of every computation can answer, and which facts
about the three buffers decide for it. -/
inductive Checked (m g f : Buffer) : Except KernelError (Option (Quantity .acceleration)) → Prop
  | severalAccelerations : g.size ≠ 1 → Checked m g f (.error (.nonScalarAcceleration g.size))
  | foreignAcceleration : g.size = 1 → g.unit.dimension ≠ .acceleration →
      Checked m g f (.error (.buffer .acceleration
        (.dimensionMismatch .scalar g.unit.dimension .acceleration)))
  | unequalSizes : g.size = 1 → g.unit.dimension = .acceleration → m.size ≠ f.size →
      Checked m g f (.error (.sizeMismatch m.size f.size))
  | noMasses : g.size = 1 → g.unit.dimension = .acceleration → m.size = f.size → m.size = 0 →
      Checked m g f (.ok none)
  | ready {raw : Float} : g.elements = [raw] → g.unit.dimension = .acceleration →
      m.size = f.size → m.size ≠ 0 → Checked m g f (.ok (some ⟨g.unit.toCanonical raw⟩))

theorem prepare_checked (m g f : Buffer) : Checked m g f (prepare m g f) := by
  unfold prepare
  by_cases several : g.size ≠ 1
  · rw [if_pos several]
    exact .severalAccelerations several
  have single : g.size = 1 := Decidable.not_not.mp several
  rw [if_neg several]
  by_cases known : g.unit.dimension = .acceleration
  · obtain ⟨raw, held⟩ := List.length_eq_one_iff.mp (g.elements_length.trans single)
    rw [Buffer.scalar_element known held]
    change Checked m g f (if m.size ≠ f.size then .error (.sizeMismatch m.size f.size)
      else if m.isEmpty then .ok none else .ok (some ⟨g.unit.toCanonical raw⟩))
    by_cases unequal : m.size ≠ f.size
    · rw [if_pos unequal]
      exact .unequalSizes single known unequal
    have equal : m.size = f.size := Decidable.not_not.mp unequal
    rw [if_neg unequal]
    by_cases empty : m.size = 0
    · rw [if_pos (m.isEmpty_iff.mpr empty)]
      exact .noMasses single known equal empty
    · rw [if_neg (mt m.isEmpty_iff.mp empty)]
      exact .ready held known equal empty
  · rw [Buffer.scalar_foreign single known]
    exact .foreignAcceleration single known

section Attach

variable {m f : Buffer}

theorem attach_known (massKnown : m.unit.dimension = .mass) (forceKnown : f.unit.dimension = .force) :
    attach m f = .ok (m.readerAt .mass 0, f.cursorAt .force 0) := by
  rw [attach, Buffer.reader_ok massKnown, Buffer.cursor_ok forceKnown]
  rfl

theorem attach_foreign_mass (foreign : m.unit.dimension ≠ .mass) :
    attach m f =
      .error (.buffer .mass (.dimensionMismatch (.index 0) m.unit.dimension .mass)) := by
  rw [attach, Buffer.reader_foreign foreign]
  rfl

theorem attach_foreign_force (massKnown : m.unit.dimension = .mass)
    (foreign : f.unit.dimension ≠ .force) :
    attach m f =
      .error (.buffer .force (.dimensionMismatch (.index 0) f.unit.dimension .force)) := by
  rw [attach, Buffer.reader_ok massKnown, Buffer.cursor_foreign foreign]
  rfl

end Attach

/-- The pipeline and the lockstep differ in who drives the loop only. -/
theorem pipeline_eq_lockstep (m g f : Buffer) : pipeline m g f = lockstep m g f := by
  unfold pipeline lockstep
  rcases prepare m g f with error | _ | acceleration
  · rfl
  · rfl
  · dsimp only
    rcases attach m f with error | ⟨masses, forces⟩
    · rfl
    · exact copy_eq_advance acceleration forces.written masses.limit masses forces

/-- A dimension that is compared once at index 0 is the one that the loop over
the indices compares first, the masses before the forces. -/
theorem lockstep_eq_indexed (m g f : Buffer) : lockstep m g f = indexed m g f := by
  unfold lockstep indexed
  have checked := prepare_checked m g f
  generalize prepare m g f = prepared at checked
  cases checked with
  | severalAccelerations => rfl
  | foreignAcceleration => rfl
  | unequalSizes => rfl
  | noMasses => rfl
  | @ready raw held known equal some =>
    obtain ⟨count, size⟩ := Nat.exists_eq_succ_of_ne_zero some
    dsimp only
    by_cases massKnown : m.unit.dimension = .mass
    · by_cases forceKnown : f.unit.dimension = .force
      · rw [attach_known massKnown forceKnown]
        exact advance_eq_visit _ massKnown forceKnown (show 0 + m.size ≤ m.size by omega)
          (show 0 + m.size ≤ f.size by omega)
      · obtain ⟨first, heldFirst⟩ := m.element_exists (show 0 < m.size by omega)
        rw [attach_foreign_force massKnown forceKnown, size]
        exact (visit_foreign_force _ count massKnown forceKnown heldFirst).symm
    · rw [attach_foreign_mass massKnown, size]
      exact (visit_foreign_mass _ count 0 massKnown).symm

/-- Which of the three traversals computes the weights cannot be observed: the
results, their errors and the whole storage of the forces are the same. -/
theorem traversals_agree (m g f : Buffer) :
    pipeline m g f = lockstep m g f ∧ lockstep m g f = indexed m g f :=
  ⟨pipeline_eq_lockstep m g f, lockstep_eq_indexed m g f⟩

end Weight

end Mensura
