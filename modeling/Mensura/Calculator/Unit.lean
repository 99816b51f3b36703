import Mensura.MeasureUnit.Source

namespace Mensura

/-- A step of the stack calculator for units. The operands of a step are the
topmost units. They stay, and a result goes on top. -/
inductive UnitStep where
  | parse (text : String)
  | new (scale : Float) (dimension : Dimension)
  | tryNew (scale : Float) (dimension : Dimension)
  | canonical (dimension : Dimension)
  /-- Copies the unit at a depth. The top has depth one. -/
  | pick (depth : Nat)
  | mul
  | div
  | pow (n : Int)
  | tryMul
  | tryDiv
  | tryPow (n : Int)
  | toCanonical (raw : Float)
  | fromCanonical (value : Float)
  | expect (dimension : Dimension)
  | asFactor
  | isDimensionless
  | describe
  | compare

inductive UnitAnswer where
  | pushed (u : MeasureUnit)
  | number (x : Float)
  | done
  | text (text : String)
  | truth (holds : Bool)
  | refused (refusal : Refusal)
  /-- The stack is not deep enough for the step. -/
  | missing

/-- The answer of a step that makes a unit or says why there is none. -/
def UnitAnswer.made {ε : Type} (refusal : ε → Refusal) : Except ε MeasureUnit → UnitAnswer
  | .ok u => .pushed u
  | .error error => .refused (refusal error)

def UnitStep.answer (stack : List MeasureUnit) : UnitStep → UnitAnswer
  | .parse text => .made .unit (parseUnit text)
  | .new scale dimension => .made .fault (MeasureUnit.new scale dimension)
  | .tryNew scale dimension => .made .unit (MeasureUnit.checked scale dimension)
  | .canonical dimension => .pushed (.canonical dimension)
  | .pick depth =>
    match if depth = 0 then none else stack[depth - 1]? with
    | some u => .pushed u
    | none => .missing
  | step =>
    match step, stack with
    | .mul, right :: left :: _ => .made .fault (left.mul right)
    | .div, right :: left :: _ => .made .fault (left.div right)
    | .pow n, top :: _ => .made .fault (top.pow n)
    | .tryMul, right :: left :: _ => .made .overflow (left.tryMul right)
    | .tryDiv, right :: left :: _ => .made .overflow (left.tryDiv right)
    | .tryPow n, top :: _ => .made .overflow (top.tryPow n)
    | .toCanonical raw, top :: _ => .number (top.toCanonical raw)
    | .fromCanonical value, top :: _ => .number (top.fromCanonical value)
    | .expect dimension, top :: _ =>
      match top.expectDimension dimension with
      | .ok () => .done
      | .error mismatch => .refused (.mismatch mismatch)
    | .asFactor, top :: _ =>
      match top.asFactor with
      | .ok factor => .number factor
      | .error mismatch => .refused (.mismatch mismatch)
    | .isDimensionless, top :: _ => .truth top.isDimensionless
    | .describe, top :: _ => .text top.debugText
    | .compare, right :: left :: _ => .truth (left.sameAs right)
    | _, _ => .missing

/-- The answers to a list of steps, each with the units that the steps before it pushed. -/
def UnitStep.run (stack : List MeasureUnit) : List UnitStep → List UnitAnswer
  | [] => []
  | step :: rest =>
    let answer := step.answer stack
    match answer with
    | .pushed u => answer :: run (u :: stack) rest
    | _ => answer :: run stack rest

end Mensura
