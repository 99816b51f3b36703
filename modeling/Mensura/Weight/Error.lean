import Mensura.Buffer.Error

namespace Mensura

/-- The part that a buffer plays in the computation of a weight. -/
inductive Role where
  | mass
  | acceleration
  | force
deriving DecidableEq

def Role.symbol : Role → String
  | .mass => "m"
  | .acceleration => "g"
  | .force => "F"

inductive KernelError where
  | nonScalarAcceleration (len : Nat)
  | sizeMismatch (mass force : Nat)
  | buffer (role : Role) (cause : BufferError)
  | unknownKernel (name : String)
deriving DecidableEq

namespace KernelError

def message : KernelError → String
  | .nonScalarAcceleration len =>
    "g must be scalar, got " ++ String.ofList (decimalDigits len) ++ " elements"
  | .sizeMismatch mass force =>
    "size mismatch between m and F: " ++ String.ofList (decimalDigits mass) ++ " vs " ++
      String.ofList (decimalDigits force)
  | .buffer role cause => "buffer '" ++ role.symbol ++ "': " ++ cause.message
  | .unknownKernel name => "unknown kernel '" ++ name ++ "'"

/-- The buffer to blame, where there is one. -/
def role? : KernelError → Option Role
  | .nonScalarAcceleration _ => some .acceleration
  | .buffer role _ => some role
  | _ => none

def isShapeError : KernelError → Bool
  | .nonScalarAcceleration _ => true
  | .sizeMismatch _ _ => true
  | _ => false

def isDimensionMismatch : KernelError → Bool
  | .buffer _ cause => cause.isDimensionMismatch
  | _ => false

end KernelError

end Mensura
