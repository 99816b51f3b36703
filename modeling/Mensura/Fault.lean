import Mensura.Dimension

namespace Mensura

/-- A broken promise of the caller. It stops the program and is no answer to
the question that was asked. -/
inductive Fault where
  /-- An exponent left the range of a signature. -/
  | exponent (overflow : ExponentOverflow)
  /-- A unit was to be made with a scale that is not a positive finite number. -/
  | scale
deriving DecidableEq

def Fault.message : Fault → String
  | .exponent overflow => overflow.message
  | .scale => "assertion failed: scale.is_finite() && scale > 0.0"

/-- The product, where an exponent that does not fit is a fault. -/
def Dimension.mul (d e : Dimension) : Except Fault Dimension :=
  (d.tryMul e).mapError .exponent

/-- The quotient, where an exponent that does not fit is a fault. -/
def Dimension.div (d e : Dimension) : Except Fault Dimension :=
  (d.tryDiv e).mapError .exponent

/-- The power, where an exponent that does not fit is a fault. -/
def Dimension.pow (d : Dimension) (n : Int) : Except Fault Dimension :=
  (d.tryPow n).mapError .exponent

end Mensura
