import Mensura.Dimension.Text

namespace Mensura

/-- The access at which the dimension of a buffer was compared. -/
inductive Place where
  | index (i : Nat)
  | scalar
deriving DecidableEq

def Place.text : Place → String
  | .index i => "index " ++ String.ofList (decimalDigits i)
  | .scalar => "scalar"

inductive BufferError where
  | dimensionMismatch (place : Place) (stored requested : Dimension)
  | outOfRange (index len : Nat)
  | notScalar (len : Nat)
  | invalidLayout (len stride required available : Nat)
  | zeroStride
deriving DecidableEq

def BufferError.message : BufferError → String
  | .dimensionMismatch place stored requested =>
    "dimension mismatch at " ++ place.text ++ ": buffer holds " ++ stored.text ++ ", requested " ++
      requested.text
  | .outOfRange index len =>
    "index " ++ String.ofList (decimalDigits index) ++ " out of range for buffer of " ++
      String.ofList (decimalDigits len) ++ " elements"
  | .notScalar len =>
    "buffer holds " ++ String.ofList (decimalDigits len) ++ " elements, expected a scalar"
  | .invalidLayout len stride required available =>
    "invalid layout: " ++ String.ofList (decimalDigits len) ++ " elements with stride " ++
      String.ofList (decimalDigits stride) ++ " need " ++ String.ofList (decimalDigits required) ++
      " values, storage holds " ++ String.ofList (decimalDigits available)
  | .zeroStride => "stride must be non-zero"

def BufferError.isDimensionMismatch : BufferError → Bool
  | .dimensionMismatch .. => true
  | _ => false

end Mensura
