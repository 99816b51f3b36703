import Mensura.MeasureUnit
import Mensura.MeasureUnit.Expression
import Mensura.MeasureUnit.Symbol

namespace Mensura

/-- Why a text is not a unit. Positions count bytes from the start of the
text without its outer blanks. -/
inductive UnitError where
  | empty
  | unknownSymbol (symbol : List Char)
  | invalidExponent (symbol exponent : List Char)
  | zeroExponent (symbol : List Char)
  | negativeExponent (symbol : List Char) (exponent : Int)
  | expectedParenthesis (position : Nat)
  | unexpectedCharacter (c : Char) (position : Nat)
  | missingFactor (position : Nat)
  | trailingInput (position : Nat)
  | exponentOverflow (overflow : ExponentOverflow)
  | invalidScale (scale : Float)
deriving DecidableEq

def UnitError.message : UnitError → String
  | .empty => "empty unit string"
  | .unknownSymbol symbol => "unknown unit symbol '" ++ String.ofList symbol ++ "'"
  | .invalidExponent symbol exponent =>
    "invalid exponent '" ++ String.ofList exponent ++ "' on '" ++ String.ofList symbol ++ "'"
  | .zeroExponent symbol => "zero exponent on '" ++ String.ofList symbol ++ "'"
  | .negativeExponent symbol exponent =>
    "negative exponent " ++ String.ofList (decimalInt exponent) ++ " on '" ++ String.ofList symbol ++
      "' is not allowed with '*' or '/'"
  | .expectedParenthesis position =>
    "expected '(' after '/' at position " ++ String.ofList (decimalDigits position)
  | .unexpectedCharacter c position =>
    "unexpected character '" ++ String.ofList [c] ++ "' at position " ++
      String.ofList (decimalDigits position)
  | .missingFactor position =>
    "expected a unit symbol at position " ++ String.ofList (decimalDigits position)
  | .trailingInput position => "trailing input at position " ++ String.ofList (decimalDigits position)
  | .exponentOverflow overflow => overflow.message
  | .invalidScale scale =>
    "unit scale " ++ NumberStyle.plain.write scale ++ " is not a positive finite number"

/-- A unit with a checked scale, for callers that report unit errors. -/
def MeasureUnit.checked (scale : Float) (dimension : Dimension) : Except UnitError MeasureUnit :=
  (MeasureUnit.tryNew scale dimension).mapError .invalidScale

/-- The unit of a symbol without its exponent. -/
def Factor.base (factor : Factor) : Except UnitError MeasureUnit :=
  if factor.symbol = ['1'] then .ok .one
  else match resolveSymbol factor.symbol with
    | some (scale, dimension) => .ok ⟨scale, dimension⟩
    | none => .error (.unknownSymbol factor.symbol)

/-- The exponent of a factor. A text with `*` or `/` anywhere, which is
`operatorForm`, has positive exponents only. -/
def Factor.power (operatorForm : Bool) (symbol text : List Char) : Except UnitError Int :=
  match readSigned (-2147483648) 2147483647 text with
  | none => .error (.invalidExponent symbol text)
  | some n =>
    if n = 0 then .error (.zeroExponent symbol)
    else if operatorForm && n < 0 then .error (.negativeExponent symbol n)
    else .ok n

def Factor.eval (operatorForm : Bool) (factor : Factor) : Except UnitError MeasureUnit := do
  let base ← factor.base
  match factor.exponent with
  | none => return base
  | some text =>
    let n ← Factor.power operatorForm factor.symbol text
    (base.tryPow n).mapError .exponentOverflow

/-- Multiplies factors into a unit one by one, from left to right. -/
def evalFactors (operatorForm : Bool) (start : MeasureUnit) : List Factor → Except UnitError MeasureUnit
  | [] => .ok start
  | factor :: rest => do
    let unit ← factor.eval operatorForm
    let product ← (start.tryMul unit).mapError .exponentOverflow
    evalFactors operatorForm product rest

/-- The error at a place of the text where neither a factor nor the end of a
product can stand. -/
def unexpectedAt (text place : List Char) : UnitError :=
  match place with
  | c :: _ => .unexpectedCharacter c (byteLength text - byteLength place)
  | [] => .missingFactor (byteLength text)

/-- The unit of a product, and what follows the product in the text. -/
def Product.eval (operatorForm : Bool) (text : List Char) (product : Product) :
    Except UnitError (MeasureUnit × List Char) := do
  let unit ← match product.factors with
    | [] => .ok .one
    | first :: rest => do evalFactors operatorForm (← first.eval operatorForm) rest
  let rest ← product.ending.mapError (unexpectedAt text)
  return (unit, rest)

/-- The unit that a trimmed text stands for: a product, or a product over a
product in parentheses. The scale is checked last. -/
def parseTrimmed (text : List Char) : Except UnitError MeasureUnit := do
  let operatorForm := text.any fun c => c == '*' || c == '/'
  let (numerator, rest) ← (readProduct text).eval operatorForm text
  let (unit, rest) ← match rest with
    | '/' :: rest =>
      match skipBlanks rest with
      | '(' :: rest => do
        let (denominator, rest) ← (readProduct rest).eval operatorForm text
        match rest with
        | ')' :: rest => do
          let unit ← (numerator.tryDiv denominator).mapError .exponentOverflow
          pure (unit, skipBlanks rest)
        | place => .error (unexpectedAt text place)
      | place => .error (.expectedParenthesis (byteLength text - byteLength place))
    | rest => pure (numerator, rest)
  if rest.isEmpty then MeasureUnit.checked unit.scale unit.dimension
  else .error (.trailingInput (byteLength text - byteLength rest))

/-- The unit that a text stands for. -/
def parseUnit (text : String) : Except UnitError MeasureUnit :=
  let trimmed := trimBlanks text.toList
  if trimmed.isEmpty then .error .empty else parseTrimmed trimmed

end Mensura
