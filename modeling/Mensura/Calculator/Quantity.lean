import Mensura.MeasureUnit.Source
import Mensura.Quantity

namespace Mensura

/-- A step of the calculator that keeps one quantity and changes it or asks about it. -/
inductive QuantityStep where
  | set (value : Float)
  | setZero
  | fromRaw (raw : Float) (unit : UnitSource)
  | add (value : Float)
  | sub (value : Float)
  | neg
  | scale (factor : Float)
  | unscale (factor : Float)
  | toRaw (unit : UnitSource)
  | compare (value : Float)
  | describe
  | display

inductive QuantityAnswer where
  | changed
  | number (x : Float)
  | comparison (order : Option Ordering)
  | text (text : String)
  | refused (refusal : Refusal)

/-- The answer to a step, and the quantity after it. A step that is refused changes nothing. -/
def QuantityStep.apply {d : Dimension} (q : Quantity d) : QuantityStep → QuantityAnswer × Quantity d
  | .set value => (.changed, ⟨value⟩)
  | .setZero => (.changed, .zero)
  | .fromRaw raw source =>
    match source.resolve with
    | .error error => (.refused (.unit error), q)
    | .ok unit =>
      match Quantity.fromRaw raw unit with
      | .ok r => (.changed, r)
      | .error mismatch => (.refused (.mismatch mismatch), q)
  | .add value => (.changed, q.add ⟨value⟩)
  | .sub value => (.changed, q.sub ⟨value⟩)
  | .neg => (.changed, q.neg)
  | .scale factor => (.changed, q.scale factor)
  | .unscale factor => (.changed, q.unscale factor)
  | .toRaw source =>
    match source.resolve with
    | .error error => (.refused (.unit error), q)
    | .ok unit =>
      match q.toRaw unit with
      | .ok raw => (.number raw, q)
      | .error mismatch => (.refused (.mismatch mismatch), q)
  | .compare value => (.comparison (q.compare? ⟨value⟩), q)
  | .describe => (.text q.debugText, q)
  | .display => (.text q.text, q)

/-- The answers to a list of steps, each with the quantity after it. -/
def QuantityStep.run {d : Dimension} (q : Quantity d) :
    List QuantityStep → List (QuantityAnswer × Quantity d)
  | [] => []
  | step :: rest =>
    let result := step.apply q
    result :: run result.2 rest

end Mensura
