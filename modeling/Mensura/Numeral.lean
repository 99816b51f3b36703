namespace Mensura

def twoPow (n : Nat) : Nat :=
  Nat.pow 2 n

def tenPow (n : Nat) : Nat :=
  Nat.pow 10 n

/-- The decimal digits of a natural number, without leading zeros. -/
def decimalDigits (n : Nat) : List Char :=
  Nat.toDigits 10 n

/-- A whole number in decimal, with a minus sign only below zero. -/
def decimalInt (n : Int) : List Char :=
  if n < 0 then '-' :: decimalDigits n.natAbs else decimalDigits n.natAbs

/-- The value of a run of digits, most significant first. -/
def digitsValue (digits : List Char) : Nat :=
  digits.foldl (fun value c => 10 * value + (c.toNat - '0'.toNat)) 0

/-- Reads a non-empty run of the ten ASCII digits and nothing else. -/
def readNat (text : List Char) : Option Nat :=
  if !text.isEmpty && text.all Char.isDigit then some (digitsValue text) else none

/-- Reads an unsigned number below `limit`. One plus sign may stand in front. -/
def readBounded (limit : Nat) (text : List Char) : Option Nat :=
  let digits := match text with
    | '+' :: rest => rest
    | _ => text
  (readNat digits).filter (· < limit)

/-- Reads a signed number between `low` and `high`. At most one sign may stand in front. -/
def readSigned (low high : Int) (text : List Char) : Option Int :=
  let value : Option Int := match text with
    | '-' :: rest => (readNat rest).map fun n => -(n : Int)
    | '+' :: rest => (readNat rest).map Int.ofNat
    | _ => (readNat text).map Int.ofNat
  value.filter fun n => low ≤ n ∧ n ≤ high

end Mensura
