import Mensura.Buffer.Cursor
import Mensura.Proofs.Buffer.Elements

namespace Mensura

namespace Buffer

variable {b : Buffer} {d : Dimension}

theorem checkDimension_ok (known : b.unit.dimension = d) (place : Place) :
    b.checkDimension place d = .ok () := by
  rw [checkDimension, MeasureUnit.expectDimension, if_pos known]
  rfl

theorem checkDimension_error (foreign : b.unit.dimension ≠ d) (place : Place) :
    b.checkDimension place d = .error (.dimensionMismatch place b.unit.dimension d) := by
  rw [checkDimension, MeasureUnit.expectDimension, if_neg foreign]
  rfl

theorem read_element {index : Nat} {raw : Float} (held : b.elements[index]? = some raw) :
    b.read d index = .ok ⟨b.unit.toCanonical raw⟩ := by
  have inside := elements_getElem?_some held
  rw [elements_getElem? inside] at held
  obtain ⟨_, value⟩ := Array.getElem?_eq_some_iff.mp held
  rw [read, dif_pos inside, ← value]

theorem get_element {index : Nat} {raw : Float} (known : b.unit.dimension = d)
    (held : b.elements[index]? = some raw) :
    b.get d index = .ok ⟨b.unit.toCanonical raw⟩ := by
  rw [get, checkDimension_ok known]
  exact read_element held

theorem get_foreign (foreign : b.unit.dimension ≠ d) (index : Nat) :
    b.get d index = .error (.dimensionMismatch (.index index) b.unit.dimension d) := by
  rw [get, checkDimension_error foreign]
  rfl

theorem scalar_element {raw : Float} (known : b.unit.dimension = d)
    (held : b.elements = [raw]) : b.scalar d = .ok ⟨b.unit.toCanonical raw⟩ := by
  have single : b.size = 1 := by rw [← elements_length, held, List.length_singleton]
  rw [scalar, if_pos (by rw [isScalar, single]; rfl), checkDimension_ok known]
  exact read_element (by rw [held]; rfl)

theorem scalar_foreign (single : b.size = 1) (foreign : b.unit.dimension ≠ d) :
    b.scalar d = .error (.dimensionMismatch .scalar b.unit.dimension d) := by
  rw [scalar, if_pos (by rw [isScalar, single]; rfl), checkDimension_error foreign]
  rfl

theorem set_element {index : Nat} (known : b.unit.dimension = d) (inside : index < b.size)
    (q : Quantity d) : b.set index q = (.ok (), b.put index (b.unit.fromCanonical q.value)) := by
  rw [set, checkDimension_ok known]
  exact if_pos inside

theorem set_behind {index : Nat} (known : b.unit.dimension = d) (behind : ¬ index < b.size)
    (q : Quantity d) : b.set index q = (.error (.outOfRange index b.size), b) := by
  rw [set, checkDimension_ok known]
  exact if_neg behind

theorem set_foreign (foreign : b.unit.dimension ≠ d) (index : Nat) (q : Quantity d) :
    b.set index q = (.error (.dimensionMismatch (.index index) b.unit.dimension d), b) := by
  rw [set, checkDimension_error foreign]

/-- A reader of a buffer in front of the element at an index. -/
def readerAt (b : Buffer) (d : Dimension) (index : Nat) : Reader (Quantity d) where
  cells := b.cells
  stride := b.layout.stride
  offset := b.layout.offset index
  limit := b.size - index
  view := fun raw => ⟨b.unit.toCanonical raw⟩

theorem reader_ok (known : b.unit.dimension = d) : b.reader d = .ok (b.readerAt d 0) := by
  rw [reader, checkDimension_ok known, readerAt, Layout.offset, Nat.zero_mul]
  rfl

theorem reader_foreign (foreign : b.unit.dimension ≠ d) :
    b.reader d = .error (.dimensionMismatch (.index 0) b.unit.dimension d) := by
  rw [reader, checkDimension_error foreign]
  rfl

/-- One step of a reader in front of an element is the access by its index. -/
theorem readerAt_pull {index : Nat} {raw : Float} (held : b.elements[index]? = some raw) :
    (b.readerAt d index).pull =
      (some ⟨b.unit.toCanonical raw⟩, b.readerAt d (index + 1)) := by
  have inside := elements_getElem?_some held
  have atCell : b.cells[b.layout.offset index]? = some raw := (elements_getElem? inside).symm.trans held
  have moved : b.layout.offset index + 1 * b.layout.stride = b.layout.offset (index + 1) :=
    (Nat.add_mul index 1 b.layout.stride).symm
  have rest : ¬ b.size - index = 0 := by omega
  simp only [Reader.pull, readerAt, rest, if_false, atCell, Reader.skip, moved, Nat.sub_sub]

/-- A cursor over a buffer in front of the element at an index. -/
def cursorAt (b : Buffer) (d : Dimension) (index : Nat) : Cursor d where
  buffer := b
  offset := b.layout.offset index
  limit := b.size - index
  written := index

theorem cursor_ok (known : b.unit.dimension = d) : b.cursor d = .ok (b.cursorAt d 0) := by
  rw [cursor, checkDimension_ok known, cursorAt, Layout.offset, Nat.zero_mul]
  rfl

theorem cursor_foreign (foreign : b.unit.dimension ≠ d) :
    b.cursor d = .error (.dimensionMismatch (.index 0) b.unit.dimension d) := by
  rw [cursor, checkDimension_error foreign]
  rfl

/-- One step of a cursor in front of an element writes at its index. -/
theorem cursorAt_write {index : Nat} (inside : index < b.size) (q : Quantity d) :
    (b.cursorAt d index).write q =
      (.ok (), (b.put index (b.unit.fromCanonical q.value)).cursorAt d (index + 1)) := by
  have moved : b.layout.offset index + b.layout.stride = b.layout.offset (index + 1) :=
    (Nat.succ_mul index b.layout.stride).symm
  have room : 0 < b.size - index ∧ b.layout.offset index < b.cells.size :=
    ⟨by omega, offset_lt inside⟩
  simp only [Cursor.write, cursorAt, room, and_self, if_true, moved, Nat.sub_sub]
  rfl

theorem cursorAt_write_end {index : Nat} (behind : b.size ≤ index) (q : Quantity d) :
    (b.cursorAt d index).write q = (.error (.outOfRange index b.size), b.cursorAt d index) := by
  rw [Cursor.write, if_neg (fun room => by have : 0 < b.size - index := room.1; omega)]
  rfl

end Buffer

end Mensura
