import Mensura.Weight.Error
import Mensura.Buffer.Cursor
import Mensura.Dimension.Named

namespace Mensura

/-- How a computation of weights ended, and the force buffer after it. -/
structure Outcome where
  result : Except KernelError Unit
  force : Buffer
deriving DecidableEq

namespace Weight

/-- Newton's second law for quantities. -/
def forceOn (g : Quantity .acceleration) (m : Quantity .mass) : Quantity .force :=
  m.mul g Dimension.mass_tryMul_acceleration

/-- What every way of computing weights checks before it starts, in this
order: there is one acceleration, it is an acceleration, and there are as many
masses as forces. Without masses there is nothing to do. -/
def prepare (m g f : Buffer) : Except KernelError (Option (Quantity .acceleration)) := do
  if g.size ≠ 1 then .error (.nonScalarAcceleration g.size)
  else
    let acceleration ← (g.scalar .acceleration).mapError (.buffer .acceleration)
    if m.size ≠ f.size then .error (.sizeMismatch m.size f.size)
    else if m.isEmpty then return none
    else return some acceleration

/-- The reader of the masses and the cursor over the forces. -/
def attach (m f : Buffer) : Except KernelError (Reader (Quantity .mass) × Cursor .force) := do
  let masses ← (m.reader .mass).mapError (.buffer .mass)
  let forces ← (f.cursor .force).mapError (.buffer .force)
  return (masses, forces)

/-- The masses become forces while they are read, and the cursor is filled
from them. -/
def pipeline (m g f : Buffer) : Outcome :=
  match prepare m g f with
  | .error error => ⟨.error error, f⟩
  | .ok none => ⟨.ok (), f⟩
  | .ok (some g) =>
    match attach m f with
    | .error error => ⟨.error error, f⟩
    | .ok (masses, forces) =>
      match forces.fill (masses.map (forceOn g)) with
      | (.ok _, forces) => ⟨.ok (), forces.buffer⟩
      | (.error error, forces) => ⟨.error (.buffer .force error), forces.buffer⟩

/-- Reads a mass and writes a force in turn, until the reader ends, at most
`count` times. -/
def advance (g : Quantity .acceleration) :
    Nat → Reader (Quantity .mass) → Cursor .force → Outcome
  | 0, _, forces => ⟨.ok (), forces.buffer⟩
  | count + 1, masses, forces =>
    match masses.pull with
    | (none, _) => ⟨.ok (), forces.buffer⟩
    | (some m, masses) =>
      match forces.write (forceOn g m) with
      | (.ok (), forces) => advance g count masses forces
      | (.error error, forces) => ⟨.error (.buffer .force error), forces.buffer⟩

/-- A reader of the masses and a cursor over the forces move on together. -/
def lockstep (m g f : Buffer) : Outcome :=
  match prepare m g f with
  | .error error => ⟨.error error, f⟩
  | .ok none => ⟨.ok (), f⟩
  | .ok (some g) =>
    match attach m f with
    | .error error => ⟨.error error, f⟩
    | .ok (masses, forces) => advance g masses.limit masses forces

/-- Gets the mass and sets the force at each of `count` indices from `index` on. -/
def visit (m : Buffer) (g : Quantity .acceleration) : Nat → Nat → Buffer → Outcome
  | 0, _, f => ⟨.ok (), f⟩
  | count + 1, index, f =>
    match m.get .mass index with
    | .error error => ⟨.error (.buffer .mass error), f⟩
    | .ok mass =>
      match f.set index (forceOn g mass) with
      | (.ok (), f) => visit m g count (index + 1) f
      | (.error error, f) => ⟨.error (.buffer .force error), f⟩

/-- Each index is visited in turn, and the dimensions are compared at each of them. -/
def indexed (m g f : Buffer) : Outcome :=
  match prepare m g f with
  | .error error => ⟨.error error, f⟩
  | .ok none => ⟨.ok (), f⟩
  | .ok (some g) => visit m g m.size 0 f

end Weight

end Mensura
