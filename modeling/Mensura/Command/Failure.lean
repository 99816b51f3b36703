import Mensura.Fault
import Mensura.MeasureUnit.Parse
import Mensura.Weight.Error

namespace Mensura

/-- Why a command has no result: what could not be done, and the causes of
that, each the cause of the one before it. -/
structure Failure where
  summary : String
  causes : List String
deriving DecidableEq

namespace Failure

/-- The messages in one line, the summary first. -/
def line (failure : Failure) : String :=
  ": ".intercalate (failure.summary :: failure.causes)

/-- A cause with its first line after `lead` and every other line after `margin`. -/
def indent (lead margin cause : String) : String :=
  lead ++ ("\n" ++ margin).intercalate (cause.splitOn "\n")

/-- The messages as they are reported to the user. Several causes are numbered. -/
def report (failure : Failure) : String :=
  let causes := match failure.causes with
    | [] => ""
    | [cause] => "\n\nCaused by:\n" ++ indent "    " "    " cause
    | causes =>
      let numbered := causes.zipIdx.map fun (cause, number) =>
        "\n" ++ indent (String.ofList (List.replicate (5 - (decimalDigits number).length) ' ' ++
          decimalDigits number) ++ ": ") "       " cause
      "\n\nCaused by:" ++ String.join numbered
  "Error: " ++ failure.summary ++ causes ++ "\n"

end Failure

/-- How a command ends without a result. -/
inductive Halt where
  | failure (failure : Failure)
  | fault (fault : Fault)
deriving DecidableEq

/-- A unit from the command line, where `what` says whose unit it is. -/
def commandUnit (what text : String) : Except Failure MeasureUnit :=
  (parseUnit text).mapError fun error =>
    ⟨"invalid " ++ what ++ " unit '" ++ text ++ "'", [error.message]⟩

/-- The messages of a kernel error from the outside in. A buffer error has a
message of its own below that of the kernel. -/
def KernelError.causes (error : KernelError) : List String :=
  match error with
  | .buffer _ cause => [error.message, cause.message]
  | _ => [error.message]

end Mensura
