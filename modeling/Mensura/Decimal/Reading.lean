import Mensura.Numeral

namespace Mensura

/-- The number `digits * 10 ^ exponent`, correctly rounded. A number with more
than 400 digits before the point is infinite, and one that starts more than
400 places after it is zero, so no power of ten grows without bound. -/
def floatOfDecimal (digits : Nat) (exponent : Int) : Float :=
  let size : Int := (decimalDigits digits).length + exponent
  if digits = 0 then 0.0
  else if 400 < size then 1.0 / 0.0
  else if size < -400 then 0.0
  else Float.ofScientific digits (exponent < 0) exponent.natAbs

/-- An exponent part: nothing, or the letter `e` and a whole number. -/
def readExponent (text : List Char) : Option Int :=
  match text with
  | [] => some 0
  | c :: rest =>
    if c.toLower ≠ 'e' then none
    else match rest with
      | '-' :: digits => (readNat digits).map fun n => -(n : Int)
      | '+' :: digits => (readNat digits).map Int.ofNat
      | digits => (readNat digits).map Int.ofNat

/-- Digits with at most one point among them, and possibly an exponent. There
is at least one digit before the exponent. -/
def readMagnitude (text : List Char) : Option Float :=
  let whole := text.takeWhile Char.isDigit
  let rest := text.dropWhile Char.isDigit
  let (fraction, rest) := match rest with
    | '.' :: after => (after.takeWhile Char.isDigit, after.dropWhile Char.isDigit)
    | _ => ([], rest)
  if whole.isEmpty && fraction.isEmpty then none
  else (readExponent rest).map fun e =>
    floatOfDecimal (digitsValue (whole ++ fraction)) (e - fraction.length)

/-- Reads a floating-point number: one sign at most, then `inf`, `infinity` or
`nan` in letters of either case, or a magnitude. -/
def readFloat (text : String) : Option Float :=
  let (negative, body) := match text.toList with
    | '-' :: rest => (true, rest)
    | '+' :: rest => (false, rest)
    | rest => (false, rest)
  let word := String.ofList (body.map Char.toLower)
  let value :=
    if word = "inf" ∨ word = "infinity" then some (1.0 / 0.0)
    else if word = "nan" then some (0.0 / 0.0)
    else readMagnitude body
  value.map fun x => if negative then -x else x

end Mensura
