import Mensura.Buffer.Writable
import Mensura.Proofs.Buffer.Addressing
import Mensura.Proofs.Buffer.Surfaces

namespace Mensura

/-- The cell of an element in words. The index is checked before the product is formed. -/
def Layout.locate (layout : Layout) (index : Nat) : Except BufferError Nat :=
  if index < layout.len then .ok (layout.wordOffset index) else .error (.outOfRange index layout.len)

theorem Layout.locate_inside {layout : Layout} {index : Nat} (inside : index < layout.len)
    (sized : layout.offset index < sizeLimit) : layout.locate index = .ok (layout.offset index) := by
  rw [locate, if_pos inside, wordOffset_eq sized]

theorem Layout.locate_behind {layout : Layout} {index : Nat} (behind : ¬ index < layout.len) :
    layout.locate index = .error (.outOfRange index layout.len) :=
  if_neg behind

namespace WritableBuffer

/-- Reading at an index step by step. A cell that is not there counts as an
index out of range. -/
def wordGet (w : WritableBuffer) (d : Dimension) (index : Nat) : Except BufferError (Quantity d) := do
  w.checkDimension (.index index) d
  let cell ← w.layout.locate index
  match w.cells[cell]? with
  | some raw => return ⟨w.unit.toCanonical raw⟩
  | none => .error (.outOfRange index w.size)

/-- The cell that is written at an index, step by step. -/
def wordSlot (w : WritableBuffer) (d : Dimension) (index : Nat) : Except BufferError Nat := do
  w.checkDimension (.index index) d
  let cell ← w.layout.locate index
  if cell < w.cells.size then return cell else .error (.outOfRange index w.size)

/-- Writing at an index step by step. -/
def wordSet (w : WritableBuffer) {d : Dimension} (index : Nat) (q : Quantity d) :
    Except BufferError Unit × WritableBuffer :=
  match w.wordSlot d index with
  | .ok cell => (.ok (), ⟨w.store cell (w.unit.fromCanonical q.value)⟩)
  | .error error => (.error error, w)

/-- The buffer with the number of one element replaced. -/
def put (w : WritableBuffer) (index : Nat) (raw : Float) : WritableBuffer :=
  ⟨w.toBuffer.put index raw⟩

variable {w : WritableBuffer} {d : Dimension} {index : Nat}

theorem set_accepted (known : w.unit.dimension = d) (inside : index < w.size) (q : Quantity d) :
    w.set index q = (.ok (), w.put index (w.unit.fromCanonical q.value)) := by
  rw [set, Buffer.set_element known inside]
  rfl

theorem set_out_of_range (known : w.unit.dimension = d) (behind : ¬ index < w.size) (q : Quantity d) :
    w.set index q = (.error (.outOfRange index w.size), w) := by
  rw [set, Buffer.set_behind known behind]

theorem set_mismatch (foreign : w.unit.dimension ≠ d) (index : Nat) (q : Quantity d) :
    w.set index q = (.error (.dimensionMismatch (.index index) w.unit.dimension d), w) := by
  rw [set, Buffer.set_foreign foreign]

/-- Words address every element of a storage that has a size. -/
theorem wordGet_eq_get (room : w.cells.size < sizeLimit) (d : Dimension) (index : Nat) :
    w.wordGet d index = w.get d index := by
  by_cases known : w.unit.dimension = d
  · rw [wordGet, Buffer.checkDimension_ok known]
    by_cases inside : index < w.size
    · have cell := Buffer.offset_lt inside
      obtain ⟨raw, held⟩ := w.element_exists inside
      have stored := (Buffer.elements_getElem? inside).symm.trans held
      have located := Layout.locate_inside inside (Nat.lt_trans cell room)
      have read : w.get d index = _ := Buffer.get_element known held
      rw [read, located]
      simp only [bind, Except.bind, stored]
      rfl
    · have read : w.get d index = _ := Buffer.get_behind known (Nat.not_lt.mp inside)
      rw [read, Layout.locate_behind inside]
      rfl
  · have read : w.get d index = _ := Buffer.get_foreign known index
    rw [read, wordGet, Buffer.checkDimension_error known]
    rfl

theorem wordSet_eq_set (room : w.cells.size < sizeLimit) (index : Nat) (q : Quantity d) :
    w.wordSet index q = w.set index q := by
  by_cases known : w.unit.dimension = d
  · by_cases inside : index < w.size
    · have cell := Buffer.offset_lt inside
      have located := Layout.locate_inside inside (Nat.lt_trans cell room)
      have slot : w.wordSlot d index = .ok (w.layout.offset index) := by
        rw [wordSlot, Buffer.checkDimension_ok known, located]
        exact if_pos cell
      rw [set_accepted known inside, wordSet, slot]
      rfl
    · have slot : w.wordSlot d index = .error (.outOfRange index w.size) := by
        rw [wordSlot, Buffer.checkDimension_ok known, Layout.locate_behind inside]
        rfl
      rw [set_out_of_range known inside, wordSet, slot]
  · have slot : w.wordSlot d index =
        .error (.dimensionMismatch (.index index) w.unit.dimension d) := by
      rw [wordSlot, Buffer.checkDimension_error known]
      rfl
    rw [set_mismatch known, wordSet, slot]

end WritableBuffer

end Mensura
