import MotorSketch.Block
import MotorSketch.Block.Kind
import MotorSketch.Log
import MotorSketch.Text.Lowercase

/-!
# Motor instances

A configuring block declares the name of a motor, the text of the block plugged into its name
input.  The declared names of a workspace are listed in order, names that differ only in case
once, in the casing that came first.

    (insertFirst m n).keys = m.keys, or m.keys ++ [lowercase n] if that is new
                                                                        (keys_insertFirst)
-/

namespace MotorSketch

/-! ## Names -/

/-- The name of a motor whose name input is empty. -/
def unnamedInstance : String := "Empty_input_name"

def missingNameText : String :=
  "A STEPPER configuration block needs to have a name to set the motor steps!"

namespace Block

/-- The text of the plugged name block; a name block that holds no text gives no name. -/
def instanceName (b : Block) : Option String :=
  match b.input? "STEPPER_NAME" with
  | none => some unnamedInstance
  | some name => name.field? "TEXT"

def nameWarning (b : Block) : Option String :=
  match b.input? "STEPPER_NAME" with
  | none => some missingNameText
  | some _ => none

/-- The names that the block declares, if it is of a kind that declares any. -/
def declares (b : Block) : Option (List (Option String)) :=
  match BlockKind.ofName b.kind with
  | .configure => some [b.instanceName]
  | _ => none

end Block

/-! ## Registry -/

/-- What the registry sees of a block, or of any other node that may declare names. -/
structure Declarer where
  id : String
  kind : String
  names : Option (List (Option String))

def Block.declarer (b : Block) : Declarer := ⟨b.id, b.kind, b.declares⟩

namespace Instances

/-- Names by their lower-case form. -/
abbrev Names := OrderedMap String String

/-- Adds a name unless one with the same lower-case form is present. -/
def insertFirst (m : Names) (name : String) : Names :=
  match m.get? (Text.lowercase name) with
  | some _ => m
  | none => m.insert (Text.lowercase name) name

/-- Takes one declared name; a missing or empty one is reported. -/
def addName (node : Declarer) (m : Names) (name : Option String) : Logged Names :=
  match name with
  | none => do
    Logged.log (.unnamedInstance node.id node.kind)
    return m
  | some n =>
    if n = "" then do
      Logged.log (.unnamedInstance node.id node.kind)
      return m
    else return insertFirst m n

def addNode (m : Names) (node : Declarer) : Logged Names :=
  (node.names.getD []).foldlM (addName node) m

/-- The names that the nodes declare. -/
def ofNodes (nodes : List Declarer) : Logged (List String) := do
  let m ← nodes.foldlM addNode ∅
  return m.values

/-! ## Lemmas -/

theorem keys_insertFirst (m : Names) (name : String) :
    (insertFirst m name).keys =
      if Text.lowercase name ∈ m.keys then m.keys else m.keys ++ [Text.lowercase name] := by
  unfold insertFirst
  split
  · next h =>
    rw [if_pos]
    exact Classical.byContradiction fun hn => by
      rw [OrderedMap.get?_eq_none_iff.2 hn] at h
      cases h
  · next h =>
    rw [OrderedMap.keys_insert]

end Instances

end MotorSketch
