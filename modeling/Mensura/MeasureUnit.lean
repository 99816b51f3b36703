import Mensura.Decimal.Style
import Mensura.Dimension.Text
import Mensura.Fault

namespace Mensura

/-- `r * x ^ b` by repeated squaring. The lowest binary digit of `b` is used
first, and nothing is squared after the highest. -/
def powerLoop (x r : Float) (b : Nat) : Float :=
  let r := if b % 2 = 1 then r * x else r
  if b / 2 = 0 then r else powerLoop (x * x) r (b / 2)
termination_by b
decreasing_by omega

/-- An integer power. A negative one is the reciprocal of the positive one. -/
def integerPower (x : Float) (n : Int) : Float :=
  let r := powerLoop x 1.0 n.natAbs
  if n < 0 then 1.0 / r else r

/-- A unit of measurement: how many canonical units of its dimension it is
worth. The scale is meant to be finite and positive, which `tryNew` and `new`
check; the products `tryMul`, `tryDiv` and `tryPow` do not. -/
structure MeasureUnit where
  scale : Float
  dimension : Dimension
deriving DecidableEq

namespace MeasureUnit

def scaleIsValid (scale : Float) : Bool :=
  scale.isFinite && 0.0 < scale

/-- A unit with a checked scale. The scale that is refused is handed back. -/
def tryNew (scale : Float) (dimension : Dimension) : Except Float MeasureUnit :=
  if scaleIsValid scale then .ok ⟨scale, dimension⟩ else .error scale

/-- A unit with a scale that the caller vouches for. -/
def new (scale : Float) (dimension : Dimension) : Except Fault MeasureUnit :=
  if scaleIsValid scale then .ok ⟨scale, dimension⟩ else .error .scale

/-- The coherent unit of a dimension. -/
def canonical (dimension : Dimension) : MeasureUnit :=
  ⟨1.0, dimension⟩

def one : MeasureUnit :=
  canonical .dimensionless

/-- A coherent unit passes the check of a scale that the caller vouches for. -/
theorem new_canonical (dimension : Dimension) : new 1.0 dimension = .ok (canonical dimension) :=
  rfl

def isDimensionless (u : MeasureUnit) : Bool :=
  u.dimension.isDimensionless

/-- From a number of these units to a canonical magnitude. -/
def toCanonical (u : MeasureUnit) (raw : Float) : Float :=
  raw * u.scale

/-- From a canonical magnitude to a number of these units. -/
def fromCanonical (u : MeasureUnit) (value : Float) : Float :=
  value / u.scale

def expectDimension (u : MeasureUnit) (expected : Dimension) : Except DimensionMismatch Unit :=
  if u.dimension = expected then .ok () else .error ⟨expected, u.dimension⟩

/-- The bare factor that a dimensionless unit stands for. -/
def asFactor (u : MeasureUnit) : Except DimensionMismatch Float := do
  u.expectDimension .dimensionless
  return u.scale

/-- Equality of units compares scales as numbers. -/
def sameAs (u v : MeasureUnit) : Bool :=
  u.scale == v.scale && u.dimension = v.dimension

def tryMul (u v : MeasureUnit) : Except ExponentOverflow MeasureUnit := do
  return ⟨u.scale * v.scale, ← u.dimension.tryMul v.dimension⟩

def tryDiv (u v : MeasureUnit) : Except ExponentOverflow MeasureUnit := do
  return ⟨u.scale / v.scale, ← u.dimension.tryDiv v.dimension⟩

def tryPow (u : MeasureUnit) (n : Int) : Except ExponentOverflow MeasureUnit := do
  return ⟨integerPower u.scale n, ← u.dimension.tryPow n⟩

/-- The product, where neither an exponent nor a scale may leave its range. -/
def mul (u v : MeasureUnit) : Except Fault MeasureUnit := do
  new (u.scale * v.scale) (← u.dimension.mul v.dimension)

/-- The quotient, where neither an exponent nor a scale may leave its range. -/
def div (u v : MeasureUnit) : Except Fault MeasureUnit := do
  new (u.scale / v.scale) (← u.dimension.div v.dimension)

/-- The power, where neither an exponent nor a scale may leave its range. -/
def pow (u : MeasureUnit) (n : Int) : Except Fault MeasureUnit := do
  new (integerPower u.scale n) (← u.dimension.pow n)

/-- A scale of one is not written, and neither is an empty signature beside
another scale. -/
def text (u : MeasureUnit) : String :=
  if u.scale == 1.0 then u.dimension.text
  else if u.isDimensionless then NumberStyle.plain.write u.scale
  else NumberStyle.plain.write u.scale ++ " " ++ u.dimension.text

def debugText (u : MeasureUnit) : String :=
  "Unit \x7b scale: " ++ NumberStyle.described.write u.scale ++ ", dimension: " ++
    u.dimension.debugText ++ " \x7d"

end MeasureUnit

end Mensura
