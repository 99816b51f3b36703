import Mensura.Buffer.Script
import Mensura.Calculator.Dimension
import Mensura.Calculator.Quantity
import Mensura.Calculator.Unit
import Mensura.Command.Program
import Mensura.Main
import Mensura.MeasureUnit.Scanner
import Mensura.Weight.Schedule
import Mensura.Proofs.Dimension.Powers
import Mensura.Proofs.Buffer.Positions
import Mensura.Proofs.Buffer.StoreLaws
import Mensura.Proofs.Weight.Choice
import Mensura.Proofs.Weight.Storage
import Mensura.Proofs.Weight.Verdict
import Mensura.Proofs.MeasureUnit.Scanning
import Mensura.Proofs.MeasureUnit.Value
import Mensura.Proofs.MeasureUnit.Printing
import Mensura.Proofs.MeasureUnit.Operators
import Mensura.Proofs.MeasureUnit.Soundness
import Mensura.Proofs.MeasureUnit.OperatorForm
import Mensura.Proofs.Command.Soundness
import Mensura.Proofs.Command.Verification
import Mensura.Proofs.Calculator.Scale
import Mensura.Proofs.Binary64.Rounding
import Mensura.Proofs.MeasureUnit.Resolution
import Mensura.Proofs.Binary64.Neutral
import Mensura.Proofs.Weight.Coherent
import Mensura.Proofs.Command.Comparison
import Mensura.Proofs.Sample.Generator
