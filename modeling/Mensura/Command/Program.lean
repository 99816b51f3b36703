import Mensura.Command.Arguments
import Mensura.Command.Bench
import Mensura.Command.Convert
import Mensura.Command.Report
import Mensura.Decimal.Reading

namespace Mensura

/-- What the program is asked to do. -/
inductive Command where
  | run (order : RunOrder)
  | bench (order : BenchOrder)
  | convert (value : Float) (source target : String)

/-- How the program ended, with all that it printed. -/
structure Ending where
  exit : Nat
  stdout : String := ""
  stderr : String := ""

namespace Command

def isSize (text : String) : Bool :=
  (readBounded (twoPow 64) text.toList).isSome

def isNumber (text : String) : Bool :=
  (readFloat text).isSome

/-- The options in front of the name of a command. -/
def programShape : CommandShape where
  options := [{ name := "log-level", letter := some 'l' }]
  positions := []

def runShape : CommandShape where
  options :=
    [{ name := "count", letter := some 'n', accepts := isSize },
      { name := "seed", accepts := isSize },
      { name := "g", letter := some 'g', negativeNumbers := true, accepts := isNumber },
      { name := "g-unit" },
      { name := "mass-unit" },
      { name := "force-unit" },
      { name := "method", letter := some 'm' },
      { name := "verify", isSwitch := true },
      { name := "json", isSwitch := true }]
  positions := []

def benchShape : CommandShape where
  options :=
    [{ name := "count", letter := some 'n', accepts := isSize },
      { name := "repeat", letter := some 'r', accepts := isSize },
      { name := "seed", accepts := isSize },
      { name := "json", isSwitch := true }]
  positions := []

def convertShape : CommandShape where
  options := []
  positions := [{ negativeNumbers := true, accepts := isNumber }, {}, {}]

def sizeOr (given : GivenArguments) (name : String) (default : Nat) : Nat :=
  ((given.option? name).bind fun text => readBounded (twoPow 64) text.toList).getD default

def numberOr (given : GivenArguments) (name : String) (default : Float) : Float :=
  ((given.option? name).bind readFloat).getD default

def runOrder (given : GivenArguments) : RunOrder :=
  let default : RunOrder := {}
  { count := sizeOr given "count" default.count
    seed := (sizeOr given "seed" default.seed.toNat).toUInt64
    g := numberOr given "g" default.g
    gUnit := (given.option? "g-unit").getD default.gUnit
    massUnit := (given.option? "mass-unit").getD default.massUnit
    forceUnit := (given.option? "force-unit").getD default.forceUnit
    method := (given.option? "method").getD default.method
    verify := given.has "verify"
    json := given.has "json" }

def benchOrder (given : GivenArguments) : BenchOrder :=
  let default : BenchOrder := {}
  { count := sizeOr given "count" default.count
    repetitions := sizeOr given "repeat" default.repetitions
    seed := (sizeOr given "seed" default.seed.toNat).toUInt64
    json := given.has "json" }

def start : ArgumentProgress :=
  .complete {}

/-- Reads the arguments behind the name of a command. -/
def readNamed (name : String) (arguments : List String) : Except ArgumentStop Command :=
  match name with
  | "run" => do return .run (runOrder (← runShape.readAll start arguments))
  | "bench" => do return .bench (benchOrder (← benchShape.readAll start arguments))
  | "convert" => do
    let given ← convertShape.readAll start arguments
    match given.values with
    | [value, source, target] =>
      match readFloat value with
      | some value => return .convert value source target
      | none => .error .misuse
    | _ => .error .misuse
  | "help" =>
    match arguments with
    | [] => .error .help
    | [topic] =>
      .error (if ["run", "bench", "convert", "help"].contains topic then .help else .misuse)
    | _ => .error .misuse
  | _ => .error .misuse

/-- Reads the options of the program up to the name of a command. -/
def readFrom : ArgumentProgress → List String → Except ArgumentStop Command
  | _, [] => .error .misuse
  | .waiting option given, argument :: arguments =>
    if CommandShape.canBeValue option argument then do
      let given ← given.giveOption option argument
      readFrom (.complete given) arguments
    else .error .misuse
  | .complete given, argument :: arguments =>
    match given.onlyValues, ArgumentForm.of argument with
    | false, .bare => readNamed argument arguments
    | false, .long "version" none => .error .version
    | false, .short ('V' :: _) => .error .version
    | _, _ => do
      let progress ← programShape.readArgument given argument
      readFrom progress arguments

/-- The command that the arguments of the program stand for. -/
def read (arguments : List String) : Except ArgumentStop Command :=
  readFrom start arguments

end Command

namespace Ending

/-- The output of a command that was carried out, and nothing else. -/
def printed (text : String) : Ending where
  exit := 0
  stdout := text

def failed (failure : Failure) : Ending where
  exit := 1
  stderr := failure.report

def faulted (fault : Fault) : Ending where
  exit := 101
  stderr := fault.message ++ "\n"

/-- The ending of arguments that ask for nothing to be computed. -/
def stopped : ArgumentStop → Ending
  | .misuse => { exit := 2, stderr := "error: the arguments do not fit\n" }
  | .help => { exit := 0, stdout := "Usage: [--log-level LEVEL] run | bench | convert | help\n" }
  | .version => { exit := 0, stdout := "gravity-demo 0.1.0\n" }

def ofConversion : Except Halt String → Ending
  | .ok text => printed text
  | .error (.failure failure) => failed failure
  | .error (.fault fault) => faulted fault

def ofRun (json : Bool) (elapsed : Nat) : Except Failure RunReport → Ending
  | .ok report => printed (report.print json elapsed)
  | .error failure => failed failure

def ofBench (json : Bool) : Except Failure (List Timing) → Ending
  | .ok timings => printed (Timing.print timings json)
  | .error failure => failed failure

end Ending

namespace BenchOrder

/-- Each contestant once on the masses of an order. What takes no time here is
timed by the program. -/
def untimed (order : BenchOrder) : Except Failure (List Timing) := do
  let masses := order.masses
  (← contestants).mapM fun contestant => do
    let _ ← contestant.run masses
    return .ofNanos contestant.name 0 order.count

end BenchOrder

/-- The ending of a command, with all times left at zero. -/
def Command.ending : Command → Ending
  | .run order => .ofRun order.json 0 order.execute
  | .bench order => .ofBench order.json order.untimed
  | .convert value source target => .ofConversion (conversionLine value source target)

/-- The ending of the program for its arguments, with all times left at zero. -/
def programEnding (arguments : List String) : Ending :=
  match Command.read arguments with
  | .ok command => command.ending
  | .error stop => .stopped stop

end Mensura
