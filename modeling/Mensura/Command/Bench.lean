import Mensura.Command.Document
import Mensura.Command.Failure
import Mensura.Decimal.Fixed
import Mensura.Sample.Stream
import Mensura.Weight.Registry

namespace Mensura

/-- The order to compare the kernels in time. -/
structure BenchOrder where
  count : Nat := 1000000
  repetitions : Nat := 5
  seed : UInt64 := 989182
  json : Bool := false

/-- A computation that takes part in the comparison: from the masses to the forces. -/
structure Contestant where
  name : String
  run : Array Float → Except Failure (Array Float)

/-- The best time of a contestant. -/
structure Timing where
  name : String
  micros : Nat
  nanosPerElement : Float

/-- The plain product of numbers, without units and buffers. -/
def plainForces (g : Float) (masses : Array Float) : Array Float :=
  masses.map fun m => m * g

/-- The same product in place, a loop over forces and masses in step. It ends
where one of the two ends, and leaves the forces behind that as they are. -/
def plainLoop (g : Float) : List Float → List Float → List Float
  | _ :: forces, m :: masses => (m * g) :: plainLoop g forces masses
  | forces, _ => forces

namespace BenchOrder

def acceleration : Float := 9.81

def contestant (massUnit gUnit forceUnit : MeasureUnit) (kernel : WeightKernel) : Contestant where
  name := kernel.name
  run masses :=
    let outcome := kernel.run (.whole masses massUnit) (.whole #[acceleration] gUnit)
      (.whole (Array.replicate masses.size 0.0) forceUnit)
    match outcome.result with
    | .ok () => .ok outcome.force.cells
    | .error error => .error ⟨"kernel '" ++ kernel.name ++ "' failed", error.causes⟩

/-- The plain product and the kernels, in this order. -/
def contestants : Except Failure (List Contestant) := do
  let massUnit ← commandUnit "mass" "kg"
  let gUnit ← commandUnit "acceleration" "m s^-2"
  let forceUnit ← commandUnit "force" "N"
  let plain : Contestant := ⟨"raw-f64", fun masses => .ok (plainForces acceleration masses)⟩
  return plain :: WeightKernel.all.map (contestant massUnit gUnit forceUnit)

def masses (order : BenchOrder) : Array Float :=
  (sampleMasses order.count order.seed).toArray

/-- How often each contestant runs. -/
def rounds (order : BenchOrder) : Nat :=
  max order.repetitions 1

end BenchOrder

namespace Timing

/-- A time in nanoseconds spread over the elements. Without elements it is zero. -/
def ofNanos (name : String) (nanos count : Nat) : Timing where
  name := name
  micros := nanos / 1000
  nanosPerElement := if count = 0 then 0.0 else nanos.toFloat / count.toFloat

def row (first second third : String) : String :=
  alignRight 10 first ++ "  " ++ alignRight 12 second ++ "  " ++ alignRight 10 third ++ "\n"

def table (timings : List Timing) : String :=
  row "kernel" "best [us]" "ns/elem" ++ String.join (timings.map fun timing =>
    row timing.name (String.ofList (decimalDigits timing.micros)) (fixedText 3 timing.nanosPerElement))

def document (timings : List Timing) : Document :=
  .list (timings.map fun timing =>
    .record [("kernel", .text timing.name), ("best_us", .count timing.micros),
      ("ns_per_element", .number timing.nanosPerElement)])

def print (timings : List Timing) (json : Bool) : String :=
  if json then (document timings).write "" ++ "\n" else table timings

end Timing

end Mensura
