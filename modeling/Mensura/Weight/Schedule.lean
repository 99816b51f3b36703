import Mensura.Weight.Registry
import Mensura.Buffer.Source

namespace Mensura

/-- A buffer over one of several numbered storages. -/
structure StoredBuffer where
  storage : Nat
  source : BufferSource

/-- A computation over numbered storages. -/
structure WeightCall where
  mass : StoredBuffer
  acceleration : StoredBuffer
  force : StoredBuffer
  method : String

inductive CallError where
  | source (e : SourceError)
  | kernel (e : KernelError)
deriving DecidableEq

def CallError.message : CallError → String
  | .source e => e.message
  | .kernel e => e.message

namespace WeightCall

def openBuffer (storages : Array (Array Float)) (stored : StoredBuffer) : Except SourceError Buffer :=
  stored.source.over (storages.getD stored.storage #[])

/-- How a call to one of the kernels ended, and the storages after it. Masses and
acceleration are read as they were before the call, even if the forces go to
the same storage. -/
def apply (kernels : List WeightKernel) (storages : Array (Array Float)) (call : WeightCall) :
    Except CallError Unit × Array (Array Float) :=
  let buffers : Except SourceError (Buffer × Buffer × Buffer) := do
    return (← openBuffer storages call.mass, ← openBuffer storages call.acceleration,
      ← openBuffer storages call.force)
  match buffers with
  | .error error => (.error (.source error), storages)
  | .ok (m, g, f) =>
    let outcome := Weight.computeWith kernels m g f call.method
    (outcome.result.mapError .kernel,
      storages.setIfInBounds call.force.storage outcome.force.cells)

/-- The calls one after another, each on the storages that the one before it left. -/
def run (kernels : List WeightKernel) (storages : Array (Array Float)) :
    List WeightCall → List (Except CallError Unit × Array (Array Float))
  | [] => []
  | call :: calls =>
    let result := call.apply kernels storages
    result :: run kernels result.2 calls

end WeightCall

/-- Every kernel in turn on the same masses and acceleration, each with its
own copy of the force storage. The answer of a kernel has that storage as it left it. -/
def Weight.comparison (m g f : BufferSource) (masses acceleration forces : Array Float) :
    Except SourceError (List (WeightKernel × Except CallError Unit × Array Float)) := do
  let m ← m.over masses
  let g ← g.over acceleration
  return WeightKernel.all.map fun kernel =>
    match f.over forces with
    | .error error => (kernel, .error (.source error), forces)
    | .ok f =>
      let outcome := kernel.run m g f
      (kernel, outcome.result.mapError .kernel, outcome.force.cells)

end Mensura
