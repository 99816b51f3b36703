import Mensura.Numeral

namespace Mensura

/-- Outcomes are equal if they are of the same kind and hold the same. -/
instance instDecidableEqOutcomes {ε α : Type} [DecidableEq ε] [DecidableEq α] :
    DecidableEq (Except ε α)
  | .ok x, .ok y => decidable_of_iff (x = y) ⟨congrArg _, Except.ok.inj⟩
  | .error e, .error f => decidable_of_iff (e = f) ⟨congrArg _, Except.error.inj⟩
  | .ok _, .error _ => isFalse nofun
  | .error _, .ok _ => isFalse nofun

/-- The seven base quantities, in the order in which every signature lists them. -/
inductive Base where
  | mass
  | length
  | time
  | current
  | temperature
  | amount
  | luminosity
deriving DecidableEq

def Base.all : List Base :=
  [.mass, .length, .time, .current, .temperature, .amount, .luminosity]

/-- The symbol of the coherent base unit. -/
def Base.symbol : Base → String
  | .mass => "kg"
  | .length => "m"
  | .time => "s"
  | .current => "A"
  | .temperature => "K"
  | .amount => "mol"
  | .luminosity => "cd"

theorem Base.mem_all (base : Base) : base ∈ Base.all := by
  cases base <;> decide

/-- A signature: the exponent of each base unit. An exponent is one signed
byte, so it lies between -128 and 127. -/
structure Dimension where
  kg : Int8 := 0
  m : Int8 := 0
  s : Int8 := 0
  A : Int8 := 0
  K : Int8 := 0
  mol : Int8 := 0
  cd : Int8 := 0
deriving DecidableEq

def Dimension.exponent (d : Dimension) : Base → Int
  | .mass => d.kg.toInt
  | .length => d.m.toInt
  | .time => d.s.toInt
  | .current => d.A.toInt
  | .temperature => d.K.toInt
  | .amount => d.mol.toInt
  | .luminosity => d.cd.toInt

/-- A signature is nothing more than its seven exponents. -/
theorem Dimension.ext_exponent {d e : Dimension} (same : ∀ base, d.exponent base = e.exponent base) :
    d = e := by
  obtain ⟨kg, m, s, A, K, mol, cd⟩ := d
  obtain ⟨kg', m', s', A', K', mol', cd'⟩ := e
  have h₁ := Int8.toInt_inj.mp (same .mass)
  have h₂ := Int8.toInt_inj.mp (same .length)
  have h₃ := Int8.toInt_inj.mp (same .time)
  have h₄ := Int8.toInt_inj.mp (same .current)
  have h₅ := Int8.toInt_inj.mp (same .temperature)
  have h₆ := Int8.toInt_inj.mp (same .amount)
  have h₇ := Int8.toInt_inj.mp (same .luminosity)
  simp_all

def Dimension.dimensionless : Dimension := {}

def Dimension.isDimensionless (d : Dimension) : Bool :=
  Base.all.all fun base => d.exponent base == 0

/-- An exact exponent that does not fit a signature, with the base it belongs to. -/
structure ExponentOverflow where
  base : Base
  exponent : Int
deriving DecidableEq

def ExponentOverflow.message (overflow : ExponentOverflow) : String :=
  "exponent " ++ String.ofList (decimalInt overflow.exponent) ++ " of '" ++ overflow.base.symbol ++
    "' is outside -128..=127"

def Dimension.ExponentFits (e : Int) : Prop :=
  -128 ≤ e ∧ e ≤ 127

instance (e : Int) : Decidable (Dimension.ExponentFits e) :=
  inferInstanceAs (Decidable (_ ∧ _))

/-- The exponent as an overflow reports it: the exact value if it fits 32 bits,
and the largest 32-bit number otherwise. -/
def Dimension.reported (e : Int) : Int :=
  if -2147483648 ≤ e ∧ e ≤ 2147483647 then e else 2147483647

def Dimension.ofExponents (lanes : Base → Int) : Dimension where
  kg := .ofInt (lanes .mass)
  m := .ofInt (lanes .length)
  s := .ofInt (lanes .time)
  A := .ofInt (lanes .current)
  K := .ofInt (lanes .temperature)
  mol := .ofInt (lanes .amount)
  cd := .ofInt (lanes .luminosity)

/-- The signature with the given exact exponents. If some do not fit, the first
of them in the order of the bases is reported. -/
def Dimension.fit (lanes : Base → Int) : Except ExponentOverflow Dimension :=
  match Base.all.find? fun base => ¬ ExponentFits (lanes base) with
  | some base => .error ⟨base, reported (lanes base)⟩
  | none => .ok (ofExponents lanes)

/-- The product of dimensions adds exponents. -/
def Dimension.tryMul (d e : Dimension) : Except ExponentOverflow Dimension :=
  fit fun base => d.exponent base + e.exponent base

/-- The quotient of dimensions subtracts exponents. -/
def Dimension.tryDiv (d e : Dimension) : Except ExponentOverflow Dimension :=
  fit fun base => d.exponent base - e.exponent base

/-- The power of a dimension multiplies exponents. -/
def Dimension.tryPow (d : Dimension) (n : Int) : Except ExponentOverflow Dimension :=
  fit fun base => d.exponent base * n

/-- Two dimensions that had to agree and do not. -/
structure DimensionMismatch where
  expected : Dimension
  found : Dimension
deriving DecidableEq

end Mensura
