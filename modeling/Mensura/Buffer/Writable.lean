import Mensura.Buffer.Reader

namespace Mensura

/-- A buffer whose elements may be written. It is read through a view of it. -/
structure WritableBuffer extends Buffer

namespace WritableBuffer

/-- The elements as they are now, for reading only. -/
def view (w : WritableBuffer) : Buffer where
  cells := w.cells
  layout := w.layout
  unit := w.unit
  fits := w.fits

def get (w : WritableBuffer) (d : Dimension) (index : Nat) : Except BufferError (Quantity d) :=
  w.view.get d index

def reader (w : WritableBuffer) (d : Dimension) : Except BufferError (Reader (Quantity d)) :=
  w.view.reader d

/-- Writes a quantity at an index, and answers the buffer after it. -/
def set (w : WritableBuffer) {d : Dimension} (index : Nat) (q : Quantity d) :
    Except BufferError Unit × WritableBuffer :=
  let (result, b) := w.toBuffer.set index q
  (result, ⟨b⟩)

end WritableBuffer

/-- A call that writes one value at an index. -/
structure SetCall where
  dimension : Dimension
  index : Nat
  value : Float

namespace SetCall

def apply (w : WritableBuffer) (call : SetCall) : Except BufferError Unit × WritableBuffer :=
  w.set call.index (⟨call.value⟩ : Quantity call.dimension)

/-- The answers to a list of calls, and the buffer behind them. A call that is
refused does not keep the next one from being made. -/
def run (w : WritableBuffer) : List SetCall → List (Except BufferError Unit) × WritableBuffer
  | [] => ([], w)
  | call :: rest =>
    let (result, w) := call.apply w
    let (results, w) := run w rest
    (result :: results, w)

end SetCall

end Mensura
