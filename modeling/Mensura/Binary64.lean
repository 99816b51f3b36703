import Mensura.Numeral

namespace Mensura

/-- What a floating-point number stands for. A finite one is `mantissa * 2 ^ exponent`
with its sign apart, so that zero keeps its sign too. -/
inductive Binary64 where
  | nan
  | infinite (negative : Bool)
  | finite (negative : Bool) (mantissa : Nat) (exponent : Int)
deriving DecidableEq

/-- Splits the 64 bits into sign, eleven bits of exponent and 52 bits of
fraction. The leading one is not stored unless the exponent field is zero. -/
def Binary64.ofFloat (x : Float) : Binary64 :=
  let bits : Nat := x.toBits.toNat
  let negative := bits / twoPow 63 = 1
  let field : Nat := bits / twoPow 52 % twoPow 11
  let fraction : Nat := bits % twoPow 52
  if field = 2047 then
    if fraction = 0 then .infinite negative else .nan
  else if field = 0 then
    .finite negative fraction (-1074)
  else
    .finite negative (twoPow 52 + fraction) (field - 1075)

end Mensura
