import Mensura.Command.Failure

namespace Mensura

/-- A value in one unit as a value in another one. The units are read in this
order, and their quotient has to be a bare factor. -/
def convert (value : Float) (source target : String) : Except Halt Float := do
  let sourceUnit ← (commandUnit "source" source).mapError .failure
  let targetUnit ← (commandUnit "target" target).mapError .failure
  let ratio ← (sourceUnit.div targetUnit).mapError .fault
  let factor ← ratio.asFactor.mapError fun mismatch =>
    .failure ⟨"cannot convert '" ++ source ++ "' to '" ++ target ++ "'", [mismatch.message]⟩
  return value * factor

/-- The line that states a conversion. -/
def conversionLine (value : Float) (source target : String) : Except Halt String := do
  let result ← convert value source target
  return NumberStyle.plain.write value ++ " " ++ source ++ " = " ++ NumberStyle.plain.write result ++
    " " ++ target ++ "\n"

end Mensura
