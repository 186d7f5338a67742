import MotorSketch.Json.Layout
import MotorSketch.Workspace

/-!
# Writing workspaces

A workspace is written with every field of every block, in the order of the list form; a block
without a successor has the successor null.
-/

namespace MotorSketch

open Json (Value)

namespace Block

mutual

def toJson : Block → Value
  | ⟨id, kind, fields, inputs, next, disabled⟩ =>
    .object [("id", .text id), ("type", .text kind), ("fields", .textMap fields.entries),
      ("inputs", .object (inputsToJson inputs)), ("next", nextToJson next),
      ("disabled", .bool disabled)]

def inputsToJson : List (String × Block) → List (String × Value)
  | [] => []
  | (name, b) :: more => (name, toJson b) :: inputsToJson more

def nextToJson : Option Block → Value
  | none => .null
  | some b => toJson b

end

end Block

namespace Workspace

def toJson (w : Workspace) : Value := .object [("blocks", .list (w.blocks.map Block.toJson))]

def compact (w : Workspace) : String := w.toJson.compact

def pretty (w : Workspace) : String := w.toJson.pretty

end Workspace

end MotorSketch
