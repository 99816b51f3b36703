import Mensura.Buffer

namespace Mensura

/-- A pass over the elements of a storage from left to right. `offset` is the
cell of the next element and `limit` bounds how many are still to come. Each
raw number goes through `view` when it is reached, and not before. -/
structure Reader (α : Type) where
  cells : Array Float
  stride : Nat
  offset : Nat
  limit : Nat
  view : Float → α

namespace Reader

variable {α β : Type}

/-- The same pass with a function applied to each element. -/
def map (f : α → β) (r : Reader α) : Reader β :=
  { r with view := fun raw => f (r.view raw) }

/-- A pass over all numbers of an array. -/
def ofArray (cells : Array Float) : Reader Float where
  cells := cells
  stride := 1
  offset := 0
  limit := cells.size
  view := id

/-- The reader moved on by a number of elements, which are not looked at. -/
def skip (r : Reader α) (count : Nat) : Reader α :=
  { r with
    offset := r.offset + count * r.stride
    limit := r.limit - count }

/-- The next element, and the reader behind it. At the end the reader stays as it is. -/
def pull (r : Reader α) : Option α × Reader α :=
  if r.limit = 0 then (none, r)
  else match r.cells[r.offset]? with
    | some raw => (some (r.view raw), r.skip 1)
    | none => (none, r)

/-- The element after `count` others, and the reader behind it. -/
def pullNth (r : Reader α) (count : Nat) : Option α × Reader α :=
  (r.skip count).pull

/-- How many elements are still to come. -/
def remaining (r : Reader α) : Nat :=
  min r.limit ((r.cells.size - r.offset + r.stride - 1) / r.stride)

/-- The next elements, up to `count` of them, and the reader behind them. -/
def take : Nat → Reader α → List α × Reader α
  | 0, r => ([], r)
  | count + 1, r =>
    match r.pull with
    | (none, r) => ([], r)
    | (some x, r) =>
      let (xs, r) := take count r
      (x :: xs, r)

/-- All elements still to come. -/
def toList (r : Reader α) : List α :=
  (r.take r.limit).1

end Reader

/-- A pass over the elements of a buffer. Its dimension is compared once, here,
and a mismatch is reported at the first element. -/
def Buffer.reader (b : Buffer) (d : Dimension) : Except BufferError (Reader (Quantity d)) := do
  b.checkDimension (.index 0) d
  return {
    cells := b.cells
    stride := b.layout.stride
    offset := 0
    limit := b.size
    view := fun raw => ⟨b.unit.toCanonical raw⟩ }

end Mensura
