import MotorSketch.Block.Formula
import MotorSketch.Board
import MotorSketch.Motor
import MotorSketch.Report
import MotorSketch.Workspace

/-!
# Compiling a workspace

A workspace is compiled stack by stack: from each top-level block along its successors, up to the
first disabled block.  On the way the parts of the sketch are collected, pins are claimed, and the
warnings of the blocks are set.

    (ofWorkspace board pins w).value =
      (w.enabledBlocks.foldl (fun c b => (addBlock board b c).value) (start pins)).report board
                                                                        (value_ofWorkspace)
-/

namespace MotorSketch

/-! ## Blocks that are compiled -/

namespace Board

/-- The pin in a field of the block; a block without the field has the pin that it started
with. -/
def pinOf (board : Board) (b : Block) (field : String) : String :=
  (b.field? field).getD board.firstPin

def invalidPinText (board : Board) (pin : String) : String :=
  "Pin " ++ pin ++ " is not a digital pin of the " ++ board.displayName ++ "."

def invalidPinWarning (board : Board) (pins : List String) : Option String :=
  joinMessages ((pins.filter fun p => !board.hasPin p).map board.invalidPinText)

end Board

namespace Block

/-- The motor that a step block moves; an empty name is no name. -/
def motorName (b : Block) : String :=
  match b.field? "STEPPER_NAME" with
  | none => unnamedInstance
  | some name => if name = "" then unnamedInstance else name

/-- The motor that the block configures, with the given code for steps and speed. -/
def motor (board : Board) (b : Block) (steps speed : Option String) : Motor :=
  ⟨b.instanceName.getD "", board.pinOf b "STEPPER_PIN1", board.pinOf b "STEPPER_PIN2", steps, speed⟩

/-- The block and its successors up to the first disabled one. -/
def enabled : Block → List Block
  | b@⟨_, _, _, _, next, disabled⟩ =>
    if disabled then []
    else
      b :: match next with
        | none => []
        | some n => enabled n

theorem enabled_eq (b : Block) :
    b.enabled = if b.disabled then [] else b :: b.next.elim [] enabled := by
  match b with
  | ⟨_, _, _, _, none, _⟩ => simp [enabled]
  | ⟨_, _, _, _, some _, _⟩ => simp [enabled]

end Block

/-- The blocks that are compiled, in order. -/
def Workspace.enabledBlocks (w : Workspace) : List Block := w.blocks.flatMap Block.enabled

/-! ## Algorithm -/

/-- What has been compiled so far. -/
structure Compilation where
  pins : PinAssignment
  parts : Sketch.Parts
  warnings : Warnings

namespace Compilation

/-- At the start some pins may be claimed by other peripherals. -/
def start (pins : PinAssignment) : Compilation := ⟨pins, .empty, .empty⟩

def addMotor (board : Board) (b : Block) (c : Compilation) : Logged Compilation := do
  let steps ← b.pluggedCode "STEPPER_STEPS"
  let speed ← b.pluggedCode "STEPPER_SPEED"
  let motor := b.motor board steps speed
  let attachment := motor.attach c.pins
  let warnings := c.warnings.set b.id .instanceName b.nameWarning
  let warnings := warnings.set b.id .invalidPin
    (board.invalidPinWarning [motor.pin1, motor.pin2])
  let warnings := warnings.set b.id .pinConflict attachment.warning
  return ⟨attachment.pins, c.parts.overlay attachment.parts, warnings⟩

/-- A call in the loop ends with a semicolon. -/
def addCall (p : Sketch.Parts) (id : String) (call : Option String) : Sketch.Parts :=
  match call with
  | none => p
  | some code => { p with body := p.body.insert id (code ++ ";") }

def addStep (b : Block) (c : Compilation) : Logged Compilation := do
  let steps ← b.pluggedCode "STEPPER_STEPS"
  let warnings := c.warnings.set b.id .missingConfiguration (Motor.stepWarning b.motorName)
  return ⟨c.pins, addCall c.parts b.id (Motor.stepCode b.motorName steps), warnings⟩

def addBlock (board : Board) (b : Block) (c : Compilation) : Logged Compilation := do
  Logged.log (.visiting b.id b.kind)
  match BlockKind.ofName b.kind with
  | .configure => addMotor board b c
  | .step => addStep b c
  | _ => do
    Logged.log (.noGenerator b.kind)
    return c

mutual

/-- Adds the block and its successors up to the first disabled one. -/
def addStack (board : Board) : Block → Compilation → Logged Compilation
  | b@⟨_, _, _, _, next, disabled⟩, c =>
    if disabled then do
      Logged.log (.skipping b.id)
      return c
    else do
      let c ← addBlock board b c
      addRest board next c

def addRest (board : Board) : Option Block → Compilation → Logged Compilation
  | none, c => pure c
  | some b, c => addStack board b c

end

def report (board : Board) (c : Compilation) : Report := ⟨board.name, c.parts, c.pins, c.warnings⟩

/-- Compiles all stacks. -/
def ofWorkspace (board : Board) (pins : PinAssignment) (w : Workspace) : Logged Report := do
  let c ← w.blocks.foldlM (fun c b => addStack board b c) (start pins)
  Logged.log (.generated c.parts.definitions.size c.parts.setups.size c.parts.body.size
    c.warnings.size)
  return c.report board

/-! ## Lemmas -/

mutual

theorem value_addStack (board : Board) (b : Block) (c : Compilation) :
    (addStack board b c).value =
      b.enabled.foldl (fun c b => (addBlock board b c).value) c := by
  match b with
  | ⟨i, k, f, ins, next, true⟩ => simp [addStack, Block.enabled_eq]
  | ⟨i, k, f, ins, next, false⟩ => simp [addStack, Block.enabled_eq, value_addRest]

theorem value_addRest (board : Board) (next : Option Block) (c : Compilation) :
    (addRest board next c).value =
      (next.elim [] Block.enabled).foldl (fun c b => (addBlock board b c).value) c := by
  match next with
  | none => rfl
  | some b => exact value_addStack board b c

end

theorem value_ofWorkspace (board : Board) (pins : PinAssignment) (w : Workspace) :
    (ofWorkspace board pins w).value =
      (w.enabledBlocks.foldl (fun c b => (addBlock board b c).value) (start pins)).report
        board := by
  have h : ∀ (bs : List Block) (c : Compilation),
      (bs.foldlM (fun c b => addStack board b c) c).value =
        (bs.flatMap Block.enabled).foldl (fun c b => (addBlock board b c).value) c := by
    intro bs
    induction bs with
    | nil => exact fun _ => rfl
    | cons b bs ih =>
      intro c
      rw [List.foldlM_cons, Logged.value_bind, ih, value_addStack, List.flatMap_cons,
        List.foldl_append]
  simp only [ofWorkspace, Logged.value_bind, Logged.value_pure, h]
  rfl

end Compilation

end MotorSketch
