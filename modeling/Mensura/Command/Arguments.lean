import Mensura.Numeral

namespace Mensura

/-- An option of a command. `accepts` tells which values it takes. One without
values is a switch. -/
structure CommandOption where
  name : String
  letter : Option Char := none
  isSwitch : Bool := false
  negativeNumbers : Bool := false
  accepts : String → Bool := fun _ => true

/-- A value of a command that is known by its position. -/
structure CommandPosition where
  negativeNumbers : Bool := false
  accepts : String → Bool := fun _ => true

structure CommandShape where
  options : List CommandOption
  positions : List CommandPosition

/-- Why arguments are not carried out. -/
inductive ArgumentStop where
  /-- They do not fit the shape of the command. -/
  | misuse
  /-- They ask for the description of the command. -/
  | help
  /-- They ask for the version of the program. -/
  | version
deriving DecidableEq

/-- What was given so far: the options with their values, the values by
position, and whether only those may follow. -/
structure GivenArguments where
  options : List (String × String) := []
  values : List String := []
  onlyValues : Bool := false

namespace GivenArguments

def has (given : GivenArguments) (name : String) : Bool :=
  given.options.any fun (other, _) => other == name

def option? (given : GivenArguments) (name : String) : Option String :=
  (given.options.find? fun (other, _) => other == name).map Prod.snd

/-- Notes an option. It must not be given twice, and has to accept its value. -/
def giveOption (given : GivenArguments) (option : CommandOption) (value : String) :
    Except ArgumentStop GivenArguments :=
  if given.has option.name || !option.accepts value then .error .misuse
  else .ok { given with options := given.options ++ [(option.name, value)] }

/-- Notes the value at the next position, if the command has one there. -/
def giveValue (shape : CommandShape) (given : GivenArguments) (value : String) :
    Except ArgumentStop GivenArguments :=
  match shape.positions[given.values.length]? with
  | some position =>
    if position.accepts value then .ok { given with values := given.values ++ [value] }
    else .error .misuse
  | none => .error .misuse

end GivenArguments

/-- An argument by its look alone. -/
inductive ArgumentForm where
  /-- Two dashes on their own. -/
  | separator
  /-- Two dashes, a name, and perhaps a value behind an equals sign. -/
  | long (name : String) (value : Option String)
  /-- One dash and at least one more character. -/
  | short (letters : List Char)
  | bare

def ArgumentForm.of (argument : String) : ArgumentForm :=
  match argument.toList with
  | ['-', '-'] => .separator
  | '-' :: '-' :: rest =>
    let name := String.ofList (rest.takeWhile (· ≠ '='))
    match rest.dropWhile (· ≠ '=') with
    | _ :: value => .long name (some (String.ofList value))
    | [] => .long name none
  | '-' :: c :: rest => .short (c :: rest)
  | _ => .bare

/-- Whether the text behind a dash is a number: digits, a point at most once
and not in front, then an exponent of digits behind a letter `e` of either case. -/
def isDashedNumber (text : List Char) : Bool :=
  let whole := text.takeWhile Char.isDigit
  let rest := text.dropWhile Char.isDigit
  let rest := match rest with
    | '.' :: after => if whole.isEmpty then rest else after.dropWhile Char.isDigit
    | _ => rest
  match rest with
  | [] => true
  | c :: exponent => c.toLower == 'e' && !whole.isEmpty && (readNat exponent).isSome

/-- What reading one argument leads to: it is complete, or its option still
waits for the value in the next argument. -/
inductive ArgumentProgress where
  | complete (given : GivenArguments)
  | waiting (option : CommandOption) (given : GivenArguments)

namespace CommandShape

/-- Reads the letters behind one dash. Switches can stand together. The first
option that takes a value takes the rest of the letters as it. -/
def readLetters (shape : CommandShape) (given : GivenArguments) :
    List Char → Except ArgumentStop ArgumentProgress
  | [] => .ok (.complete given)
  | c :: rest =>
    match shape.options.find? fun option => option.letter == some c with
    | some option =>
      if option.isSwitch then do
        let given ← given.giveOption option ""
        readLetters shape given rest
      else match rest with
        | [] => .ok (.waiting option given)
        | '=' :: value => do return .complete (← given.giveOption option (String.ofList value))
        | value => do return .complete (← given.giveOption option (String.ofList value))
    | none => .error (if c = 'h' then .help else .misuse)

def readLong (shape : CommandShape) (given : GivenArguments) (name : String) (value : Option String) :
    Except ArgumentStop ArgumentProgress :=
  match shape.options.find? fun option => option.name == name with
  | some option =>
    match option.isSwitch, value with
    | true, none => do return .complete (← given.giveOption option "")
    | true, some _ => .error .misuse
    | false, some value => do return .complete (← given.giveOption option value)
    | false, none => .ok (.waiting option given)
  | none => .error (if name == "help" && value.isNone then .help else .misuse)

/-- Reads one argument while no option waits for its value. -/
def readArgument (shape : CommandShape) (given : GivenArguments) (argument : String) :
    Except ArgumentStop ArgumentProgress :=
  if given.onlyValues then do return .complete (← given.giveValue shape argument)
  else match ArgumentForm.of argument with
    | .separator => .ok (.complete { given with onlyValues := true })
    | .long name value => shape.readLong given name value
    | .short letters =>
      let number := match shape.positions[given.values.length]? with
        | some position => position.negativeNumbers && isDashedNumber letters
        | none => false
      if number then do return .complete (← given.giveValue shape argument)
      else shape.readLetters given letters
    | .bare => do return .complete (← given.giveValue shape argument)

/-- Whether an argument can be the value that an option waits for. Behind a
dash that is a number, if the option takes negative ones. -/
def canBeValue (option : CommandOption) (argument : String) : Bool :=
  match ArgumentForm.of argument with
  | .bare => true
  | .short letters => option.negativeNumbers && isDashedNumber letters
  | _ => false

/-- Reads the arguments of a command from left to right. The first that does
not fit decides, and at the end no option may wait and no position be empty. -/
def readAll (shape : CommandShape) : ArgumentProgress → List String →
    Except ArgumentStop GivenArguments
  | .waiting _ _, [] => .error .misuse
  | .complete given, [] =>
    if given.values.length = shape.positions.length then .ok given else .error .misuse
  | .waiting option given, argument :: arguments =>
    if canBeValue option argument then do
      let given ← given.giveOption option argument
      readAll shape (.complete given) arguments
    else .error .misuse
  | .complete given, argument :: arguments => do
    let progress ← shape.readArgument given argument
    readAll shape progress arguments

end CommandShape

end Mensura
