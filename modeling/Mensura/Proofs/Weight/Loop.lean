import Mensura.Weight.Kernel
import Mensura.Proofs.Buffer.Access

namespace Mensura

namespace Weight

/-- The number that is written for a stored mass: from the unit of the masses
to a canonical magnitude, times the acceleration, and into the unit of the forces. -/
def weigh (mass force : MeasureUnit) (g : Quantity .acceleration) (raw : Float) : Float :=
  force.fromCanonical (forceOn g ⟨mass.toCanonical raw⟩).value

/-- Filling a cursor from a lazily changed reader is the same as reading and
writing in turn, whatever the states of the two are. -/
theorem copy_eq_advance (g : Quantity .acceleration) (start count : Nat)
    (masses : Reader (Quantity .mass)) (forces : Cursor .force) :
    (match Cursor.copy start count (masses.map (forceOn g)) forces with
      | (.ok _, forces) => (⟨.ok (), forces.buffer⟩ : Outcome)
      | (.error error, forces) => ⟨.error (.buffer .force error), forces.buffer⟩) =
      advance g count masses forces := by
  induction count generalizing masses forces with
  | zero => rfl
  | succ count ih =>
    have pulled : (masses.map (forceOn g)).pull =
        (masses.pull.1.map (forceOn g), masses.pull.2.map (forceOn g)) := by
      unfold Reader.pull
      by_cases done : masses.limit = 0
      · simp [Reader.map, done]
      · cases found : masses.cells[masses.offset]? <;> simp [Reader.map, Reader.skip, done, found]
    rw [Cursor.copy, advance, pulled]
    rcases masses.pull with ⟨none | mass, rest⟩
    · rfl
    · dsimp only [Option.map_some]
      rcases forces.write (forceOn g mass) with ⟨error | _, moved⟩
      · rfl
      · exact ih rest moved

section Step

variable {m f : Buffer} (g : Quantity .acceleration) {index : Nat} {raw : Float}

theorem advance_step (count : Nat) (held : m.elements[index]? = some raw) (inside : index < f.size) :
    advance g (count + 1) (m.readerAt .mass index) (f.cursorAt .force index) =
      advance g count (m.readerAt .mass (index + 1))
        ((f.put index (weigh m.unit f.unit g raw)).cursorAt .force (index + 1)) := by
  rw [advance, Buffer.readerAt_pull held]
  dsimp only
  rw [Buffer.cursorAt_write inside]
  rfl

theorem visit_step (count : Nat) (massKnown : m.unit.dimension = .mass)
    (forceKnown : f.unit.dimension = .force) (held : m.elements[index]? = some raw)
    (inside : index < f.size) :
    visit m g (count + 1) index f =
      visit m g count (index + 1) (f.put index (weigh m.unit f.unit g raw)) := by
  rw [visit, Buffer.get_element massKnown held]
  dsimp only
  rw [Buffer.set_element forceKnown inside]
  rfl

theorem visit_foreign_mass (count index : Nat) (foreign : m.unit.dimension ≠ .mass) :
    visit m g (count + 1) index f =
      ⟨.error (.buffer .mass (.dimensionMismatch (.index index) m.unit.dimension .mass)), f⟩ := by
  rw [visit, Buffer.get_foreign foreign]

theorem visit_foreign_force (count : Nat) (massKnown : m.unit.dimension = .mass)
    (foreign : f.unit.dimension ≠ .force) (held : m.elements[index]? = some raw) :
    visit m g (count + 1) index f =
      ⟨.error (.buffer .force (.dimensionMismatch (.index index) f.unit.dimension .force)), f⟩ := by
  rw [visit, Buffer.get_element massKnown held]
  dsimp only
  rw [Buffer.set_foreign foreign]

end Step

/-- Reader, cursor and index stand in front of the same element in every round,
so the loop over states and the loop over indices do the same. -/
theorem advance_eq_visit {m f : Buffer} (g : Quantity .acceleration)
    (massKnown : m.unit.dimension = .mass) (forceKnown : f.unit.dimension = .force)
    {count index : Nat} (masses : index + count ≤ m.size) (forces : index + count ≤ f.size) :
    advance g count (m.readerAt .mass index) (f.cursorAt .force index) =
      visit m g count index f := by
  induction count generalizing index f with
  | zero => rfl
  | succ count ih =>
    obtain ⟨raw, held⟩ := m.element_exists (show index < m.size by omega)
    rw [advance_step g count held (by omega), visit_step g count massKnown forceKnown held (by omega)]
    exact ih (f := f.put index (weigh m.unit f.unit g raw)) forceKnown
      (show index + 1 + count ≤ m.size by omega) (show index + 1 + count ≤ f.size by omega)

/-- With the right dimensions the loop over indices does not fail, and writes
one number for each mass that is left. -/
theorem visit_eq_putFrom {m f : Buffer} (g : Quantity .acceleration)
    (massKnown : m.unit.dimension = .mass) (forceKnown : f.unit.dimension = .force)
    {count index : Nat} (masses : index + count = m.size) (forces : m.size ≤ f.size) :
    visit m g count index f =
      ⟨.ok (), f.putFrom index ((m.elements.drop index).map (weigh m.unit f.unit g))⟩ := by
  induction count generalizing index f with
  | zero =>
    rw [List.drop_eq_nil_of_le (by simp; omega)]
    rfl
  | succ count ih =>
    have inside : index < m.elements.length := by simp; omega
    have held := List.getElem?_eq_getElem inside
    have later := ih (f := f.put index (weigh m.unit f.unit g m.elements[index])) forceKnown
      (show index + 1 + count = m.size by omega) forces
    rw [visit_step g count massKnown forceKnown held (by omega), later, List.drop_eq_getElem_cons inside]
    rfl

end Weight

end Mensura
