import Mensura.MeasureUnit.Parse

namespace Mensura

/-- Where a unit comes from: a text, or a scale and a dimension. -/
inductive UnitSource where
  | written (text : String)
  | given (scale : Float) (dimension : Dimension)

def UnitSource.resolve : UnitSource → Except UnitError MeasureUnit
  | .written text => parseUnit text
  | .given scale dimension => MeasureUnit.checked scale dimension

/-- Why a step of a calculation with dimensions, units and quantities has no result. -/
inductive Refusal where
  | unit (e : UnitError)
  | overflow (e : ExponentOverflow)
  | mismatch (e : DimensionMismatch)
  | fault (e : Fault)
deriving DecidableEq

def Refusal.message : Refusal → String
  | .unit e => e.message
  | .overflow e => e.message
  | .mismatch e => e.message
  | .fault e => e.message

end Mensura
