import Mensura.Command.Document
import Mensura.Command.Run
import Mensura.Decimal.Fixed

namespace Mensura

/-- Three columns, each moved to the right. -/
def tableRow (first second third : String) : String :=
  alignRight 5 first ++ "  " ++ alignRight 16 second ++ "  " ++ alignRight 16 third ++ "\n"

def truthText (holds : Bool) : String :=
  if holds then "true" else "false"

namespace RunReport

/-- The report as a table, one line for each mass and its force. -/
def table (report : RunReport) : String :=
  let title := "method = " ++ report.method ++ ", g = " ++ NumberStyle.plain.write report.g ++ " " ++
    report.gUnit ++ "\n"
  let header := tableRow "i" ("m [" ++ report.massUnit ++ "]") ("F [" ++ report.forceUnit ++ "]")
  let rows := (report.masses.zip report.forces).zipIdx.map fun ((m, f), i) =>
    tableRow (String.ofList (decimalDigits i)) (fixedText 6 m) (fixedText 6 f)
  let verified := match report.verified with
    | some holds => "verified: " ++ truthText holds ++ "\n"
    | none => ""
  title ++ header ++ String.join rows ++ verified

/-- The report as a document. `elapsed` is the time of the computation in microseconds. -/
def document (report : RunReport) (elapsed : Nat) : Document :=
  let fields : List (String × Document) :=
    [("method", .text report.method), ("g", .number report.g), ("g_unit", .text report.gUnit),
      ("mass_unit", .text report.massUnit), ("force_unit", .text report.forceUnit),
      ("masses", .list (report.masses.map .number)), ("forces", .list (report.forces.map .number)),
      ("elapsed_us", .count elapsed)]
  let verified := match report.verified with
    | some holds => [("verified", .truth holds)]
    | none => []
  .record (fields ++ verified)

/-- The report in the form that was ordered. -/
def print (report : RunReport) (json : Bool) (elapsed : Nat) : String :=
  if json then (report.document elapsed).write "" ++ "\n" else report.table

end RunReport

end Mensura
