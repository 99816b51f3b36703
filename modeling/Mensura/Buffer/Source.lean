import Mensura.Buffer
import Mensura.MeasureUnit.Source

namespace Mensura

/-- How a storage is to be looked at: in which unit, and with which number of
elements and stride unless every cell is an element. -/
structure BufferSource where
  unit : UnitSource
  shape : Option (Nat × Nat)

inductive SourceError where
  | unit (e : UnitError)
  | buffer (e : BufferError)
deriving DecidableEq

def SourceError.message : SourceError → String
  | .unit e => e.message
  | .buffer e => e.message

/-- The buffer over a storage. Its unit is made first. -/
def BufferSource.over (source : BufferSource) (cells : Array Float) : Except SourceError Buffer := do
  let unit ← source.unit.resolve.mapError .unit
  match source.shape with
  | none => return .whole cells unit
  | some (len, stride) => (Buffer.strided cells len stride unit).mapError .buffer

end Mensura
