import Mensura.Buffer.Writable
import Mensura.Proofs.Buffer.Reading

namespace Mensura

/-- The answers that a reader gives one after the other until it has none, and
stays without one from then on. -/
inductive Reader.Drains {α : Type} : Reader α → List α → Prop
  | done {r : Reader α} : r.pull = (none, r) → Drains r []
  | next {r rest : Reader α} {x : α} {xs : List α} :
      r.pull = (some x, rest) → Drains rest xs → Drains r (x :: xs)

theorem Reader.Holds.drains {α : Type} {r : Reader α} {xs : List α} (holds : r.Holds xs) :
    r.Drains xs := by
  induction xs generalizing r with
  | nil => exact .done holds.pull_nil
  | cons x rest ih => exact .next holds.pull_cons (ih (holds.skip 1))

namespace Buffer

variable {b : Buffer} {d : Dimension}

theorem get_behind {index : Nat} (known : b.unit.dimension = d) (behind : b.size ≤ index) :
    b.get d index = .error (.outOfRange index b.size) := by
  rw [get, checkDimension_ok known]
  exact dif_neg (Nat.not_lt.mpr behind)

theorem scalar_several (several : b.size ≠ 1) : b.scalar d = .error (.notScalar b.size) := by
  rw [scalar, isScalar, if_neg (by simpa using several)]

theorem scalar_eq_get (single : b.size = 1) (known : b.unit.dimension = d) :
    b.scalar d = b.get d 0 := by
  rw [scalar, if_pos (by rw [isScalar, single]; rfl), get, checkDimension_ok known,
    checkDimension_ok known]

theorem fromRaw_known (known : b.unit.dimension = d) (raw : Float) :
    Quantity.fromRaw raw b.unit = .ok (⟨b.unit.toCanonical raw⟩ : Quantity d) := by
  rw [Quantity.fromRaw, MeasureUnit.expectDimension, if_pos known]
  rfl

/-- One element of a buffer, however it is read: as a conversion of its cell, by
its index, among the answers of a reader, and as a scalar if there is no other. -/
structure SameElement (b : Buffer) (d : Dimension) (answers : List (Quantity d)) (index : Nat)
    (raw : Float) (q : Quantity d) : Prop where
  cell : b.cells[index * b.layout.stride]? = some raw
  converted : Quantity.fromRaw raw b.unit = .ok q
  get : b.get d index = .ok q
  answer : answers[index]? = some q
  scalar : b.size = 1 → b.scalar d = .ok q

/-- How a buffer is read where its unit has the dimension that is asked for. -/
structure ReadsElements (b : Buffer) (d : Dimension) (r : Reader (Quantity d))
    (answers : List (Quantity d)) : Prop where
  reader : b.reader d = .ok r
  drains : r.Drains answers
  count : answers.length = b.size
  element : ∀ index, index < b.size → ∃ raw q, b.SameElement d answers index raw q
  behind : ∀ index, b.size ≤ index → b.get d index = .error (.outOfRange index b.size)
  several : b.size ≠ 1 → b.scalar d = .error (.notScalar b.size)

/-- How it is refused to read a buffer where its unit has another dimension. An
index is not looked at then, but the size is before a scalar is. -/
structure RefusesElements (b : Buffer) (d : Dimension) : Prop where
  get : ∀ index, b.get d index = .error (.dimensionMismatch (.index index) b.unit.dimension d)
  reader : b.reader d = .error (.dimensionMismatch (.index 0) b.unit.dimension d)
  single : b.size = 1 → b.scalar d = .error (.dimensionMismatch .scalar b.unit.dimension d)
  several : b.size ≠ 1 → b.scalar d = .error (.notScalar b.size)

theorem reads_elements (known : b.unit.dimension = d) : ∃ r answers, b.ReadsElements d r answers := by
  refine ⟨b.readerAt d 0, _, reader_ok known, (b.readerAt_holds d).drains, ?_, ?_,
    fun _ behind => get_behind known behind, scalar_several⟩
  · rw [List.length_map, elements_length]
  · intro index inside
    obtain ⟨raw, held⟩ := b.element_exists inside
    have got := get_element known held
    refine ⟨raw, ⟨b.unit.toCanonical raw⟩, (elements_getElem? inside).symm.trans held,
      fromRaw_known known raw, got, ?_, fun single => ?_⟩
    · rw [List.getElem?_map, held]
      rfl
    · have first : index = 0 := by omega
      rw [scalar_eq_get single known, ← first, got]

theorem refuses_elements (foreign : b.unit.dimension ≠ d) : b.RefusesElements d where
  get := get_foreign foreign
  reader := reader_foreign foreign
  single := fun single => scalar_foreign single foreign
  several := scalar_several

/-- All ways to read a buffer agree, on its elements and on why there are none. A
buffer that may be written is read like the view of it. -/
theorem read_surfaces_agree (d : Dimension) :
    (∀ b : Buffer, (b.unit.dimension = d → ∃ r answers, b.ReadsElements d r answers) ∧
      (b.unit.dimension ≠ d → b.RefusesElements d)) ∧
    ∀ w : WritableBuffer, (∀ index, w.get d index = w.view.get d index) ∧
      w.reader d = w.view.reader d :=
  ⟨fun _ => ⟨reads_elements, refuses_elements⟩, fun _ => ⟨fun _ => rfl, rfl⟩⟩

end Buffer

end Mensura
