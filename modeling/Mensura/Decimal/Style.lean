import Mensura.Numeral
import Mensura.Decimal.Shortest

namespace Mensura

/-- How a floating-point number is written with its shortest digits. -/
structure NumberStyle where
  /-- Which decimal exponents are written without one, by moving the point. -/
  positional : Int → Bool
  /-- A whole number written positionally ends in `.0`. -/
  wholePoint : Bool
  /-- An exponent that is not negative has a plus sign. -/
  exponentPlus : Bool
  /-- Which of two nearest decimals is taken. -/
  tie : Tie
  nan : String
  infinity : String
  negativeInfinity : String

/-- Digits with a point in front of the last `places` of them. -/
def pointed (places : Nat) (digits : List Char) : List Char :=
  let padded := List.replicate (places + 1 - digits.length) '0' ++ digits
  let whole := padded.take (padded.length - places)
  if places = 0 then whole else whole ++ '.' :: padded.drop (padded.length - places)

def NumberStyle.positionalChars (style : NumberStyle) (digits : List Char) (exponent : Int) : List Char :=
  if 0 ≤ exponent then
    digits ++ List.replicate exponent.toNat '0' ++ (if style.wholePoint then ['.', '0'] else [])
  else
    pointed (-exponent).toNat digits

/-- One digit before the point, and the exponent that belongs to it. -/
def NumberStyle.scientificChars (style : NumberStyle) (digits : List Char) (exponent : Int) : List Char :=
  let sign := if style.exponentPlus && 0 ≤ exponent then ['+'] else []
  pointed (digits.length - 1) digits ++ 'e' :: sign ++ decimalInt exponent

def NumberStyle.magnitude (style : NumberStyle) (mantissa : Nat) (exponent : Int) : List Char :=
  if mantissa = 0 then
    style.positionalChars ['0'] 0
  else
    let decimal := shortest style.tie mantissa exponent
    let digits := decimalDigits decimal.digits
    let leading := decimal.exponent + (digits.length - 1 : Nat)
    if style.positional leading then style.positionalChars digits decimal.exponent
    else style.scientificChars digits leading

def NumberStyle.write (style : NumberStyle) (x : Float) : String :=
  match Binary64.ofFloat x with
  | .nan => style.nan
  | .infinite false => style.infinity
  | .infinite true => style.negativeInfinity
  | .finite false mantissa exponent => String.ofList (style.magnitude mantissa exponent)
  | .finite true mantissa exponent => String.ofList ('-' :: style.magnitude mantissa exponent)

namespace NumberStyle

/-- The text of a number on its own: never with an exponent, and a whole number has no point. -/
def plain : NumberStyle where
  positional _ := true
  wholePoint := false
  exponentPlus := false
  tie := .up
  nan := "NaN"
  infinity := "inf"
  negativeInfinity := "-inf"

/-- The text of a number inside a described structure: recognisable as a
floating-point number, with an exponent from `1e16` on and below `1e-4`. -/
def described : NumberStyle where
  positional leading := -4 ≤ leading ∧ leading < 16
  wholePoint := true
  exponentPlus := false
  tie := .up
  nan := "NaN"
  infinity := "inf"
  negativeInfinity := "-inf"

/-- The text of a number in a JSON document, which has no infinities. -/
def json : NumberStyle where
  positional leading := -5 ≤ leading ∧ leading < 16
  wholePoint := true
  exponentPlus := true
  tie := .toEven
  nan := "null"
  infinity := "null"
  negativeInfinity := "null"

end NumberStyle

end Mensura
