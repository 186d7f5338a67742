import MotorSketch.Json.Layout
import MotorSketch.Pin.Assignment
import MotorSketch.Sketch.Text
import MotorSketch.Warnings

/-!
# Reports

What compiling a workspace yields: the parts of the sketch, the claimed pins and the warnings.  A
report is shown as a sketch or written as JSON, every map in its own order.
-/

namespace MotorSketch

open Json (Value)

structure Report where
  board : String
  parts : Sketch.Parts
  pins : PinAssignment
  warnings : Warnings
  deriving DecidableEq

def Sketch.Parts.toJson (p : Sketch.Parts) : Value :=
  .object [("definitions", .textMap p.definitions.entries), ("setups", .textMap p.setups.entries),
    ("body", .textMap p.body.entries)]

def PinAssignment.toJson (m : PinAssignment) : Value :=
  .textMap (m.roles.entries.map fun e => (e.1, e.2.tag))

namespace Warnings

def blockToJson (ws : BlockWarnings) : Value :=
  .textMap (ws.entries.map fun e => (e.1.tag, e.2))

def toJson (w : Warnings) : Value :=
  .object (w.byBlock.entries.map fun e => (e.1, blockToJson e.2))

end Warnings

namespace Report

def toJson (r : Report) : Value :=
  .object [("board", .text r.board), ("fragments", r.parts.toJson), ("pins", r.pins.toJson),
    ("warnings", r.warnings.toJson)]

def json (r : Report) : String := r.toJson.pretty

def sketch (r : Report) : String := Sketch.write r.parts

end Report

end MotorSketch
