import MotorSketch.Main
import MotorSketch.Workspace.Edit
import MotorSketch.Proofs.Compilation.Parts
import MotorSketch.Proofs.Compilation.Warnings
import MotorSketch.Proofs.Json.Spelling
import MotorSketch.Proofs.Json.Tree
import MotorSketch.Proofs.Workspace.RoundTrip
import MotorSketch.Proofs.Workspace.Reload
import MotorSketch.Proofs.OrderedMap.Overlay
import MotorSketch.Proofs.Warnings
import MotorSketch.Proofs.Compilation.Append
import MotorSketch.Proofs.Compilation.Repeat
import MotorSketch.Proofs.Compilation.Instances
import MotorSketch.Proofs.Compilation.Pins
import MotorSketch.Proofs.Compilation.Calls
import MotorSketch.Proofs.Compilation.Pruning
import MotorSketch.Proofs.Workspace.Spelling
import MotorSketch.Proofs.Workspace.Reading
import MotorSketch.Proofs.Report
import MotorSketch.Proofs.CommandLine
import MotorSketch.Proofs.Dropdown
import MotorSketch.Proofs.Json.Truncation
import MotorSketch.Proofs.Workspace.Truncation
import MotorSketch.Proofs.Text.CLiteral
import MotorSketch.Proofs.Text.Line
import MotorSketch.Proofs.Sketch.Sections
import MotorSketch.Proofs.Sketch.Literals
import MotorSketch.Proofs.Compilation.Header
import MotorSketch.Proofs.Formula.Reading
import MotorSketch.Proofs.Formula.Expression
import MotorSketch.Proofs.Instance.Order
import MotorSketch.Proofs.History
import MotorSketch.Proofs.Warnings.History
import MotorSketch.Proofs.Sketch.Overlay
import MotorSketch.Proofs.Pin.Spelling
import MotorSketch.Proofs.Compilation.Trace
import MotorSketch.Proofs.Workspace.Preorder
import MotorSketch.Proofs.Compilation.PinFields
