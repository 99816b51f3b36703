import Mensura.Command.Program

open Mensura

/-- The shortest of several rounds of a contestant, in nanoseconds. -/
def bestRound (contestant : Contestant) (masses : Array Float) (rounds : Nat) :
    IO (Except Failure Nat) := do
  let mut best : Option Nat := none
  for _ in [0:rounds] do
    let started ← IO.monoNanosNow
    match ← IO.lazyPure fun _ => contestant.run masses with
    | .error failure => return .error failure
    | .ok _ =>
      let elapsed := (← IO.monoNanosNow) - started
      best := some (min elapsed (best.getD elapsed))
  return .ok (best.getD 0)

def timedBench (order : BenchOrder) : IO (Except Failure (List Timing)) := do
  let masses := order.masses
  match BenchOrder.contestants with
  | .error failure => return .error failure
  | .ok contestants =>
    let mut timings := []
    for contestant in contestants do
      match ← bestRound contestant masses order.rounds with
      | .error failure => return .error failure
      | .ok nanos => timings := timings ++ [Timing.ofNanos contestant.name nanos masses.size]
    return .ok timings

def timedEnding : Command → IO Ending
  | .run order => do
    let started ← IO.monoNanosNow
    let report ← IO.lazyPure fun _ => order.execute
    let finished ← IO.monoNanosNow
    return .ofRun order.json ((finished - started) / 1000) report
  | .bench order => return .ofBench order.json (← timedBench order)
  | command => return command.ending

def main (arguments : List String) : IO UInt32 := do
  let ending ← match Command.read arguments with
    | .ok command => timedEnding command
    | .error stop => pure (.stopped stop)
  IO.print ending.stdout
  IO.eprint ending.stderr
  return ending.exit.toUInt32
