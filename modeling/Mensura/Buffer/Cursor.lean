import Mensura.Buffer.Reader

namespace Mensura

/-- Writes the elements of a buffer from left to right. `offset` is the cell
of the next element and `limit` bounds how many are still to be written. -/
structure Cursor (d : Dimension) where
  buffer : Buffer
  offset : Nat
  limit : Nat
  written : Nat

/-- A cursor at the first element. The dimension of the buffer is compared
once, here, and a mismatch is reported at the first element. -/
def Buffer.cursor (b : Buffer) (d : Dimension) : Except BufferError (Cursor d) := do
  b.checkDimension (.index 0) d
  return { buffer := b, offset := 0, limit := b.size, written := 0 }

namespace Cursor

variable {d : Dimension}

/-- The index of the next element. -/
def position (c : Cursor d) : Nat :=
  c.written

def remaining (c : Cursor d) : Nat :=
  c.buffer.size - c.written

/-- Writes the next element, as a number of the unit of the buffer, and answers
the cursor after it. Behind the last element nothing is written. -/
def write (c : Cursor d) (q : Quantity d) : Except BufferError Unit × Cursor d :=
  if 0 < c.limit ∧ c.offset < c.buffer.cells.size then
    (.ok (), {
      buffer := c.buffer.store c.offset (c.buffer.unit.fromCanonical q.value)
      offset := c.offset + c.buffer.layout.stride
      limit := c.limit - 1
      written := c.written + 1 })
  else (.error (.outOfRange c.written c.buffer.size), c)

/-- Copies elements from a reader until it ends or one does not fit, at most
`count` of them. The answer is how far the cursor then is behind `start`. -/
def copy (start : Nat) : Nat → Reader (Quantity d) → Cursor d → Except BufferError Nat × Cursor d
  | 0, _, c => (.ok (c.written - start), c)
  | count + 1, r, c =>
    match r.pull with
    | (none, _) => (.ok (c.written - start), c)
    | (some q, r) =>
      match c.write q with
      | (.ok (), c) => copy start count r c
      | (.error error, c) => (.error error, c)

/-- Writes everything that a reader has, and answers how many elements that
were. If they do not all fit, those that do are written. -/
def fill (c : Cursor d) (r : Reader (Quantity d)) : Except BufferError Nat × Cursor d :=
  copy c.written r.limit r c

end Cursor

end Mensura
