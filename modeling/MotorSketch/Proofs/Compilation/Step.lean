import MotorSketch.Compilation
import MotorSketch.Proofs.Formula

/-!
# Compiling block by block

The blocks that are compiled are those of each top-level chain before its first disabled block.
A block configures a motor, moves one, or changes nothing (`configures_or_steps_or_neither`); for
each of the three the next compilation is given once, and everything about a whole run is derived
from these equations.

    (ofWorkspace board pins w).value = (run board pins w).report board             (value_eq_run)
    k.name? = some name → (ofName s = k ↔ s = name)                               (ofName_eq_iff)
    b.configures → (addBlock board b c).value = …                        (value_addBlock_motor)
    b.steps → (addBlock board b c).value = …                              (value_addBlock_step)
    otherwise (addBlock board b c).value = c                             (value_addBlock_other)
-/

namespace MotorSketch

/-! ## Kinds -/

namespace BlockKind

/-- The name of the kind, if it is one that means something to the generator. -/
def name? : BlockKind → Option String
  | configure => some "stepper_configure"
  | step => some "stepper_step"
  | number => some "math_number"
  | text => some "text"
  | reference => some "variables_get"
  | arithmetic => some "math_arithmetic"
  | other => none

theorem name?_ofName {s : String} (h : ofName s ≠ other) : (ofName s).name? = some s := by
  unfold ofName at h ⊢
  split
  case h_7 => simp_all
  all_goals rfl

theorem ofName_eq_iff {k : BlockKind} {name : String} (hname : k.name? = some name) {s : String} :
    ofName s = k ↔ s = name := by
  constructor
  · rintro rfl
    have hother : ofName s ≠ other := fun h => by
      rw [h] at hname
      cases hname
    rw [name?_ofName hother] at hname
    exact Option.some_inj.1 hname
  · rintro rfl
    cases k <;> cases hname <;> rfl

theorem eq_of_ofName_eq {k : BlockKind} {s name : String} (h : ofName s = k)
    (hname : k.name? = some name) : s = name :=
  (ofName_eq_iff hname).1 h

/-- The name of a block of another kind is none of the names that mean something. -/
theorem ne_of_ofName_eq_other {k : BlockKind} {s name : String} (h : ofName s = other)
    (hname : k.name? = some name) : s ≠ name := by
  intro hs
  rw [(ofName_eq_iff hname).2 hs] at h
  rw [h] at hname
  cases hname

theorem ofName_eq_configure_iff {s : String} : ofName s = configure ↔ s = "stepper_configure" :=
  ofName_eq_iff rfl

theorem ofName_eq_step_iff {s : String} : ofName s = step ↔ s = "stepper_step" :=
  ofName_eq_iff rfl

theorem ofName_eq_arithmetic_iff {s : String} : ofName s = arithmetic ↔ s = "math_arithmetic" :=
  ofName_eq_iff rfl

end BlockKind

/-! ## Blocks that are reached -/

namespace Block

/-- The block is of the kind that configures a motor. -/
def configures (b : Block) : Bool := b.kind == "stepper_configure"

/-- The block is of the kind that moves a motor. -/
def steps (b : Block) : Bool := b.kind == "stepper_step"

/-- The name field is there, and neither empty nor the name of unnamed motors. -/
def namesMotor (b : Block) : Bool :=
  match b.field? "STEPPER_NAME" with
  | none => false
  | some name => name != "" && name != "Empty_input_name"

theorem motorName_eq_unnamed_iff {b : Block} :
    b.motorName = unnamedInstance ↔ b.namesMotor = false := by
  unfold motorName namesMotor
  cases b.field? "STEPPER_NAME" with
  | none => simp
  | some name =>
    by_cases hn : name = ""
    · simp [hn]
    · simp [hn, unnamedInstance]

theorem motorName_of_namesMotor {b : Block} (h : b.namesMotor) :
    b.motorName = (b.field? "STEPPER_NAME").getD "" := by
  unfold namesMotor at h
  unfold motorName
  cases hf : b.field? "STEPPER_NAME" with
  | none => simp [hf] at h
  | some name =>
    rw [hf] at h
    have hn : name ≠ "" := by
      simp only [Bool.and_eq_true, bne_iff_ne] at h
      exact h.1
    simp [hn]

/-- No block both configures and moves a motor. -/
theorem steps_eq_false_of_configures {b : Block} (h : b.configures) : b.steps = false := by
  simp only [configures, beq_iff_eq] at h
  simp [steps, h]

theorem configures_eq_false_of_steps {b : Block} (h : b.steps) : b.configures = false := by
  cases hc : b.configures with
  | false => rfl
  | true =>
    rw [steps_eq_false_of_configures hc] at h
    cases h

theorem configures_or_steps_or_neither (b : Block) :
    b.configures ∨ b.steps ∨ b.configures = false ∧ b.steps = false := by
  cases b.configures <;> cases b.steps <;> simp

/-- The block and all its successors, disabled or not. -/
def chain : Block → List Block
  | b@⟨_, _, _, _, next, _⟩ =>
    b :: match next with
      | none => []
      | some n => chain n

theorem chain_eq (b : Block) : b.chain = b :: b.next.elim [] chain := by
  match b with
  | ⟨_, _, _, _, none, _⟩ => simp [chain]
  | ⟨_, _, _, _, some _, _⟩ => simp [chain]

mutual

theorem enabled_eq_takeWhile (b : Block) : b.enabled = b.chain.takeWhile fun b => !b.disabled := by
  rw [enabled_eq, chain_eq]
  match b with
  | ⟨_, _, _, _, _, true⟩ => simp
  | ⟨_, _, _, _, next, false⟩ => simpa using nextEnabled_eq_takeWhile next

theorem nextEnabled_eq_takeWhile (next : Option Block) :
    next.elim [] enabled = (next.elim [] chain).takeWhile fun b => !b.disabled := by
  match next with
  | none => rfl
  | some b => exact enabled_eq_takeWhile b

end

end Block

/-- The blocks of each top-level chain before its first disabled block. -/
def Workspace.visited (w : Workspace) : List Block :=
  w.blocks.flatMap fun b => b.chain.takeWhile fun b => !b.disabled

theorem Workspace.enabledBlocks_eq_visited (w : Workspace) : w.enabledBlocks = w.visited := by
  simp only [enabledBlocks, visited, funext Block.enabled_eq_takeWhile]

/-! ## Steps -/

namespace Block

/-- The pin in the field; a block without the field has the first pin of the board. -/
def pinIn (board : Board) (b : Block) (field : String) : String :=
  match b.field? field, board.pins with
  | some pin, _ => pin
  | none, first :: _ => first
  | none, [] => "0"

theorem pinOf_eq_pinIn (board : Board) (b : Block) (field : String) :
    board.pinOf b field = b.pinIn board field := by
  rw [Board.pinOf, Board.firstPin, pinIn]
  cases b.field? field with
  | some pin => rfl
  | none => cases board.pins <;> rfl

/-- The motor that the block configures. -/
def configuredMotor (board : Board) (b : Block) : Motor :=
  b.motor board (b.pluggedCode "STEPPER_STEPS").value (b.pluggedCode "STEPPER_SPEED").value

end Block

namespace Compilation

/-- The compilation behind all visited blocks. -/
def run (board : Board) (pins : PinAssignment) (w : Workspace) : Compilation :=
  w.visited.foldl (fun c b => (addBlock board b c).value) (start pins)

theorem value_eq_run (board : Board) (pins : PinAssignment) (w : Workspace) :
    (ofWorkspace board pins w).value = (run board pins w).report board := by
  rw [value_ofWorkspace, Workspace.enabledBlocks_eq_visited, run]

theorem value_addBlock_motor {board : Board} {b : Block} (h : b.configures) (c : Compilation) :
    (addBlock board b c).value =
      ⟨((b.configuredMotor board).attach c.pins).pins,
        c.parts.overlay (b.configuredMotor board).parts,
        ((c.warnings.set b.id .instanceName b.nameWarning).set b.id .invalidPin
          (board.invalidPinWarning
            [board.pinOf b "STEPPER_PIN1", board.pinOf b "STEPPER_PIN2"])).set b.id .pinConflict
          ((b.configuredMotor board).attach c.pins).warning⟩ := by
  have hk : BlockKind.ofName b.kind = .configure :=
    BlockKind.ofName_eq_configure_iff.2 (by simpa [Block.configures] using h)
  rw [addBlock, Logged.value_bind, hk]
  rfl

theorem value_addBlock_step {board : Board} {b : Block} (h : b.steps) (c : Compilation) :
    (addBlock board b c).value =
      ⟨c.pins,
        addCall c.parts b.id (Motor.stepCode b.motorName (b.pluggedCode "STEPPER_STEPS").value),
        c.warnings.set b.id .missingConfiguration (Motor.stepWarning b.motorName)⟩ := by
  have hk : BlockKind.ofName b.kind = .step :=
    BlockKind.ofName_eq_step_iff.2 (by simpa [Block.steps] using h)
  rw [addBlock, Logged.value_bind, hk]
  rfl

theorem value_addBlock_other {board : Board} {b : Block} (hc : b.configures = false)
    (hs : b.steps = false) (c : Compilation) : (addBlock board b c).value = c := by
  have hk : BlockKind.ofName b.kind ≠ .configure := by
    rw [Ne, BlockKind.ofName_eq_configure_iff]
    simpa [Block.configures] using hc
  have hk' : BlockKind.ofName b.kind ≠ .step := by
    rw [Ne, BlockKind.ofName_eq_step_iff]
    simpa [Block.steps] using hs
  rw [addBlock, Logged.value_bind]
  split
  · next h => exact absurd h hk
  · next h => exact absurd h hk'
  · rfl

end Compilation

end MotorSketch
