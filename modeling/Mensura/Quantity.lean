import Mensura.MeasureUnit
import Mensura.Dimension.Text
import Mensura.Decimal.Style

namespace Mensura

/-- A magnitude in the canonical unit of its dimension. -/
structure Quantity (dimension : Dimension) where
  value : Float
deriving DecidableEq

namespace Quantity

variable {d e : Dimension}

def zero : Quantity d := ⟨0.0⟩

/-- The quantity that a number of some unit stands for. The unit has to have its dimension. -/
def fromRaw (raw : Float) (unit : MeasureUnit) : Except DimensionMismatch (Quantity d) := do
  unit.expectDimension d
  return ⟨unit.toCanonical raw⟩

/-- The quantity as a number of some unit of its dimension. -/
def toRaw (q : Quantity d) (unit : MeasureUnit) : Except DimensionMismatch Float := do
  unit.expectDimension d
  return unit.fromCanonical q.value

def add (q r : Quantity d) : Quantity d := ⟨q.value + r.value⟩

def sub (q r : Quantity d) : Quantity d := ⟨q.value - r.value⟩

def neg (q : Quantity d) : Quantity d := ⟨-q.value⟩

def scale (q : Quantity d) (factor : Float) : Quantity d := ⟨q.value * factor⟩

def unscale (q : Quantity d) (factor : Float) : Quantity d := ⟨q.value / factor⟩

/-- The product of two quantities, once the product of their dimensions is known. -/
def mul {product : Dimension} (q : Quantity d) (r : Quantity e)
    (_known : d.tryMul e = .ok product) : Quantity product :=
  ⟨q.value * r.value⟩

/-- The quotient of two quantities, once the quotient of their dimensions is known. -/
def div {quotient : Dimension} (q : Quantity d) (r : Quantity e)
    (_known : d.tryDiv e = .ok quotient) : Quantity quotient :=
  ⟨q.value / r.value⟩

/-- The product with its dimension, if that can be written. -/
def tryMul (q : Quantity d) (r : Quantity e) :
    Except ExponentOverflow ((product : Dimension) × Quantity product) :=
  match known : d.tryMul e with
  | .ok product => .ok ⟨product, q.mul r known⟩
  | .error overflow => .error overflow

/-- The quotient with its dimension, if that can be written. -/
def tryDiv (q : Quantity d) (r : Quantity e) :
    Except ExponentOverflow ((quotient : Dimension) × Quantity quotient) :=
  match known : d.tryDiv e with
  | .ok quotient => .ok ⟨quotient, q.div r known⟩
  | .error overflow => .error overflow

/-- The order of the magnitudes. A magnitude that is no number has no place in it. -/
def compare? (q r : Quantity d) : Option Ordering :=
  if q.value < r.value then some .lt
  else if q.value == r.value then some .eq
  else if r.value < q.value then some .gt
  else none

def text (q : Quantity d) : String :=
  if d.isDimensionless then NumberStyle.plain.write q.value
  else NumberStyle.plain.write q.value ++ " " ++ d.text

def debugText (q : Quantity d) : String :=
  "Quantity \x7b value: " ++ NumberStyle.described.write q.value ++ ", dimension: " ++ d.debugText ++
    " \x7d"

end Quantity

end Mensura
