import Mensura.Decimal.Style

namespace Mensura

/-- The whole number nearest to `n / d`. Halfway it is the even one. -/
def roundDiv (n d : Nat) : Nat :=
  let rest := 2 * (n % d)
  if rest < d then n / d
  else if d < rest then n / d + 1
  else n / d + n / d % 2

/-- A magnitude with exactly `places` decimals, rounded from its exact value. -/
def fixedMagnitude (places mantissa : Nat) (exponent : Int) : List Char :=
  pointed places
    (decimalDigits
      (roundDiv (mantissa * twoPow exponent.toNat * tenPow places) (twoPow (-exponent).toNat)))

/-- A number with exactly `places` decimals. The sign stays when all digits are zero. -/
def fixedText (places : Nat) (x : Float) : String :=
  match Binary64.ofFloat x with
  | .nan => NumberStyle.plain.nan
  | .infinite false => NumberStyle.plain.infinity
  | .infinite true => NumberStyle.plain.negativeInfinity
  | .finite false mantissa exponent => String.ofList (fixedMagnitude places mantissa exponent)
  | .finite true mantissa exponent => String.ofList ('-' :: fixedMagnitude places mantissa exponent)

/-- Text moved to the right end of a column. Text as wide as the column stays as it is. -/
def alignRight (width : Nat) (text : String) : String :=
  String.ofList (List.replicate (width - text.length) ' ') ++ text

end Mensura
