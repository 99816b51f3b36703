import Mensura.MeasureUnit.Source

namespace Mensura

/-- A step of the stack calculator for dimensions. The operands of a step are
the topmost dimensions. They stay, and a result goes on top. -/
inductive DimensionStep where
  | push (d : Dimension)
  /-- Copies the dimension at a depth. The top has depth one. -/
  | pick (depth : Nat)
  | mul
  | div
  | pow (n : Int)
  | tryMul
  | tryDiv
  | tryPow (n : Int)
  | parts
  | describe
  | compare

inductive DimensionAnswer where
  | pushed (d : Dimension)
  | parts (mass length time : Int) (dimensionless : Bool)
  | text (text : String)
  | truth (holds : Bool)
  | refused (refusal : Refusal)
  /-- The stack is not deep enough for the step. -/
  | missing

def DimensionAnswer.ofFault : Except Fault Dimension → DimensionAnswer
  | .ok d => .pushed d
  | .error fault => .refused (.fault fault)

def DimensionAnswer.ofOverflow : Except ExponentOverflow Dimension → DimensionAnswer
  | .ok d => .pushed d
  | .error overflow => .refused (.overflow overflow)

def DimensionStep.answer (stack : List Dimension) : DimensionStep → DimensionAnswer
  | .push d => .pushed d
  | .pick depth =>
    match if depth = 0 then none else stack[depth - 1]? with
    | some d => .pushed d
    | none => .missing
  | step =>
    match step, stack with
    | .mul, right :: left :: _ => .ofFault (left.mul right)
    | .div, right :: left :: _ => .ofFault (left.div right)
    | .pow n, top :: _ => .ofFault (top.pow n)
    | .tryMul, right :: left :: _ => .ofOverflow (left.tryMul right)
    | .tryDiv, right :: left :: _ => .ofOverflow (left.tryDiv right)
    | .tryPow n, top :: _ => .ofOverflow (top.tryPow n)
    | .parts, top :: _ =>
      .parts (top.exponent .mass) (top.exponent .length) (top.exponent .time) top.isDimensionless
    | .describe, top :: _ => .text top.debugText
    | .compare, right :: left :: _ => .truth (left = right)
    | _, _ => .missing

/-- The answers to a list of steps, each with the dimensions that the steps before it pushed. -/
def DimensionStep.run (stack : List Dimension) : List DimensionStep → List DimensionAnswer
  | [] => []
  | step :: rest =>
    let answer := step.answer stack
    match answer with
    | .pushed d => answer :: run (d :: stack) rest
    | _ => answer :: run stack rest

end Mensura
