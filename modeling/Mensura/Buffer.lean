import Mensura.Layout
import Mensura.Quantity

namespace Mensura

/-- A storage of plain numbers, some of which are the elements of a buffer:
numbers of one unit, laid out at equal distances. The cells are of the type
`Float`, in which all NaNs are one value: two storages that are equal hold the
same bits up to the payload of a NaN. -/
structure Buffer where
  cells : Array Float
  layout : Layout
  unit : MeasureUnit
  fits : layout.extent ≤ cells.size
deriving DecidableEq

namespace Buffer

/-- Every cell of a storage is an element. -/
def whole (cells : Array Float) (unit : MeasureUnit) : Buffer :=
  ⟨cells, .contiguous cells.size, unit, Nat.le_of_eq (Layout.extent_contiguous _)⟩

/-- Every `stride`-th cell of a storage is an element, up to `len` of them. -/
def strided (cells : Array Float) (len stride : Nat) (unit : MeasureUnit) :
    Except BufferError Buffer :=
  match made : Layout.strided len stride cells.size with
  | .ok layout => .ok ⟨cells, layout, unit, Layout.strided_extent_le made⟩
  | .error error => .error error

def size (b : Buffer) : Nat :=
  b.layout.len

def isEmpty (b : Buffer) : Bool :=
  b.layout.isEmpty

def isScalar (b : Buffer) : Bool :=
  b.size == 1

theorem offset_lt {b : Buffer} {index : Nat} (inside : index < b.size) :
    b.layout.offset index < b.cells.size :=
  Nat.lt_of_lt_of_le (Layout.offset_lt_extent inside) b.fits

/-- Whether the elements have the dimension that is asked for at some place. -/
def checkDimension (b : Buffer) (place : Place) (d : Dimension) : Except BufferError Unit :=
  (b.unit.expectDimension d).mapError fun mismatch =>
    .dimensionMismatch place mismatch.found mismatch.expected

/-- The element at an index, whatever its dimension is. -/
def read (b : Buffer) (d : Dimension) (index : Nat) : Except BufferError (Quantity d) :=
  if inside : index < b.size then
    have := offset_lt inside
    .ok ⟨b.unit.toCanonical b.cells[b.layout.offset index]⟩
  else .error (.outOfRange index b.size)

/-- The element at an index as a quantity. The dimension is compared first. -/
def get (b : Buffer) (d : Dimension) (index : Nat) : Except BufferError (Quantity d) := do
  b.checkDimension (.index index) d
  b.read d index

/-- The only element of a buffer of size one. The size is compared first. -/
def scalar (b : Buffer) (d : Dimension) : Except BufferError (Quantity d) := do
  if b.isScalar then
    b.checkDimension .scalar d
    b.read d 0
  else .error (.notScalar b.size)

/-- The buffer with one cell replaced. There is no effect outside the storage. -/
def store (b : Buffer) (cell : Nat) (raw : Float) : Buffer :=
  { b with
    cells := b.cells.setIfInBounds cell raw
    fits := by simpa using b.fits }

/-- Writes a quantity at an index, as a number of the unit of the buffer, and
answers the buffer after it. The dimension is compared first. -/
def set (b : Buffer) {d : Dimension} (index : Nat) (q : Quantity d) :
    Except BufferError Unit × Buffer :=
  match b.checkDimension (.index index) d with
  | .error error => (.error error, b)
  | .ok () =>
    if index < b.size then
      (.ok (), b.store (b.layout.offset index) (b.unit.fromCanonical q.value))
    else (.error (.outOfRange index b.size), b)

end Buffer

end Mensura
