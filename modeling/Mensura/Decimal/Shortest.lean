import Mensura.Binary64

namespace Mensura

/-- The decimal number `digits * 10 ^ exponent`. -/
structure Decimal where
  digits : Nat
  exponent : Int
deriving DecidableEq

/-- Where a value goes that lies halfway between its two neighbours. -/
inductive Tie where
  | up
  | toEven
deriving DecidableEq

/-- The reals that a positive floating-point number is nearest to, in units of
the grid `10 ^ exponent`: they reach from `lower / unit` to `upper / unit`, and
the number itself is `value / unit`. The ends belong to it if `closed`. -/
structure RoundingInterval where
  lower : Nat
  value : Nat
  upper : Nat
  unit : Nat
  closed : Bool

/-- The interval of `mantissa * 2 ^ exponent` on the grid `10 ^ place`. Below
a power of two the floating-point numbers lie twice as close, except among the
smallest of them. -/
def RoundingInterval.of (mantissa : Nat) (exponent place : Int) : RoundingInterval :=
  let factor := twoPow (exponent - 2).toNat * tenPow (-place).toNat
  let below := if mantissa = twoPow 52 ∧ exponent ≠ -1074 then 1 else 2
  { lower := (4 * mantissa - below) * factor
    value := 4 * mantissa * factor
    upper := (4 * mantissa + 2) * factor
    unit := twoPow (2 - exponent).toNat * tenPow place.toNat
    closed := mantissa % 2 = 0 }

/-- Whether a point of the grid lies in the interval. -/
def RoundingInterval.holds (i : RoundingInterval) (point : Nat) : Bool :=
  if i.closed then i.lower ≤ point * i.unit ∧ point * i.unit ≤ i.upper
  else i.lower < point * i.unit ∧ point * i.unit < i.upper

/-- The point of the grid nearest to the value. -/
def RoundingInterval.nearest (i : RoundingInterval) (tie : Tie) : Nat :=
  let below := i.value / i.unit
  let rest := 2 * (i.value % i.unit)
  if rest < i.unit then below
  else if i.unit < rest then below + 1
  else match tie with
    | .up => below + 1
    | .toEven => below + below % 2

/-- The point of the grid that lies in the interval and is nearest to the value. -/
def RoundingInterval.hit (i : RoundingInterval) (tie : Tie) : Option Nat :=
  let below := i.value / i.unit
  match i.holds below, i.holds (below + 1) with
  | true, true => some (i.nearest tie)
  | true, false => some below
  | false, true => some (below + 1)
  | false, false => none

/-- Tries the grids from `10 ^ place` on, each ten times finer than the one
before. After `finer` of them the grid holds the value itself. -/
def shortestFrom (tie : Tie) (mantissa : Nat) (exponent place : Int) : Nat → Decimal
  | 0 => ⟨(RoundingInterval.of mantissa exponent place).nearest tie, place⟩
  | finer + 1 =>
    match (RoundingInterval.of mantissa exponent place).hit tie with
    | some point => ⟨point, place⟩
    | none => shortestFrom tie mantissa exponent (place - 1) finer

/-- The decimal with the fewest digits that reads back as the positive number
`mantissa * 2 ^ exponent`, and the nearest to it of those. The search starts
at a power of ten above the number, where no point but zero is near. -/
def shortest (tie : Tie) (mantissa : Nat) (exponent : Int) : Decimal :=
  let place := (Nat.log2 mantissa + exponent) * 30103 / 100000 + 2
  shortestFrom tie mantissa exponent place (place - min exponent 0).toNat

end Mensura
