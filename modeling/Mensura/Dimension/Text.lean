import Mensura.Dimension

namespace Mensura

/-- One base unit with its exponent. The exponent one is not written. -/
def Base.power (base : Base) (e : Int) : List Char :=
  if e = 1 then base.symbol.toList else base.symbol.toList ++ '^' :: decimalInt e

/-- The base units that occur in a signature, in the order of the bases. -/
def Dimension.powers (d : Dimension) : List (List Char) :=
  (Base.all.filter fun base => d.exponent base ≠ 0).map fun base => base.power (d.exponent base)

/-- A signature is written as its base units with single spaces between them,
and as `1` if there are none. -/
def Dimension.chars (d : Dimension) : List Char :=
  if d.isDimensionless then ['1'] else [' '].intercalate d.powers

def Dimension.text (d : Dimension) : String :=
  String.ofList d.chars

/-- The signature with its exponents spelled out one by one. -/
def Dimension.debugText (d : Dimension) : String :=
  let lanes := Base.all.map fun base => decimalInt (d.exponent base)
  "Dimension \x7b exponents: [" ++ String.ofList ([',', ' '].intercalate lanes) ++ "] \x7d"

/-- How the marker of a kind of quantity with this signature is written. -/
def Dimension.markerText (d : Dimension) : String :=
  "Dim(" ++ d.text ++ ")"

def DimensionMismatch.message (mismatch : DimensionMismatch) : String :=
  "dimension mismatch: expected " ++ mismatch.expected.text ++ ", found " ++ mismatch.found.text

end Mensura
