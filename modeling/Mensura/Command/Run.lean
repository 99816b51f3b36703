import Mensura.Command.Failure
import Mensura.Sample.Stream
import Mensura.Weight.Registry

namespace Mensura

/-- The order to compute the weights of sampled masses. -/
structure RunOrder where
  count : Nat := 20
  seed : UInt64 := 989182
  g : Float := 9.81
  gUnit : String := "m s^-2"
  massUnit : String := "kg"
  forceUnit : String := "N"
  method : String := WeightKernel.defaultName
  verify : Bool := false
  json : Bool := false

/-- What a run computed. `verified` is there if all kernels were compared. -/
structure RunReport where
  method : String
  g : Float
  gUnit : String
  massUnit : String
  forceUnit : String
  masses : List Float
  forces : List Float
  verified : Option Bool

namespace RunOrder

def zeros (count : Nat) : Array Float :=
  Array.replicate count 0.0

/-- Whether two storages hold the same bits, which tells signed zeros apart. -/
def sameBits (a b : Array Float) : Bool :=
  a.toList.map Float.toBits == b.toList.map Float.toBits

/-- Whether each of the kernels, from fresh zeros, leaves the reference. The
first that does not, or that fails, decides. -/
def verifyWith (m g : Buffer) (forceUnit : MeasureUnit) (reference : Array Float) :
    List WeightKernel → Except Failure Bool
  | [] => .ok true
  | kernel :: kernels =>
    let outcome := kernel.run m g (.whole (zeros reference.size) forceUnit)
    match outcome.result with
    | .error error =>
      .error ⟨"kernel '" ++ kernel.name ++ "' failed during verification", error.causes⟩
    | .ok () =>
      if sameBits outcome.force.cells reference then verifyWith m g forceUnit reference kernels
      else .ok false

/-- The forces of a kernel that succeeds. -/
def forces (order : RunOrder) (m g : Buffer) (forceUnit : MeasureUnit) :
    Except Failure (Array Float) :=
  let outcome := Weight.compute m g (.whole (zeros m.cells.size) forceUnit) order.method
  match outcome.result with
  | .ok () => .ok outcome.force.cells
  | .error error => .error ⟨"kernel '" ++ order.method ++ "' failed", error.causes⟩

/-- Carries out a run: reads the units, samples masses, computes the forces
and compares the kernels if that is asked for. -/
def execute (order : RunOrder) : Except Failure RunReport := do
  let massUnit ← commandUnit "mass" order.massUnit
  let gUnit ← commandUnit "acceleration" order.gUnit
  let forceUnit ← commandUnit "force" order.forceUnit
  let masses := sampleMasses order.count order.seed
  let m := Buffer.whole masses.toArray massUnit
  let g := Buffer.whole #[order.g] gUnit
  let forces ← order.forces m g forceUnit
  let verified ←
    if order.verify then do
      let same ← verifyWith m g forceUnit forces WeightKernel.all
      if same then pure (some true) else .error ⟨"kernel outputs differ", []⟩
    else pure none
  return {
    method := order.method
    g := order.g
    gUnit := order.gUnit
    massUnit := order.massUnit
    forceUnit := order.forceUnit
    masses := masses
    forces := forces.toList
    verified := verified }

end RunOrder

end Mensura
