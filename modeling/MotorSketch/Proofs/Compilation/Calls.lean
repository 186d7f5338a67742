import MotorSketch.Proofs.Compilation.Instances
import MotorSketch.Proofs.Compilation.Warnings

/-!
# Calls of configured motors

Each visit of a block that moves a motor writes one call under the id of the block, or none, and
sets or clears the warning that the motor is missing.  Under an id that several blocks share, the
last call that was written stands beside the warning of the last visit.

A block without a name of its own is refused, also where a motor under the name of unnamed motors is
configured, and a block that moves a configured motor gets its call.  So if all motors that are
moved are declared, all calls are calls of configured motors (`calls_configured_fails` shows what is
lost without this).

    b.steps → Visit board b (written board b) (left board b)                      (visit_written)
    (run board pins w).parts.body.get? id =
      the last call that a visited block with this id writes                       (get?_body_run)
    (run board pins w).warnings.get? id .missingConfiguration =
      the warning that the last visited block with this id leaves               (get?_missing_run)
-/

namespace MotorSketch

namespace Block

/-- The block moves the motor of this name: its name field holds the name, and this is neither empty
nor the name of unnamed motors. -/
def Moves (b : Block) (n : String) : Prop :=
  b.steps ∧ b.field? "STEPPER_NAME" = some n ∧ n ≠ "" ∧ n ≠ "Empty_input_name"

theorem movesNamed_iff {b : Block} : b.movesNamed ↔ ∃ n, b.Moves n := by
  unfold movesNamed namesMotor Moves
  cases b.field? "STEPPER_NAME" <;> simp

theorem Moves.movesNamed {b : Block} {n : String} (h : b.Moves n) : b.movesNamed :=
  movesNamed_iff.2 ⟨n, h⟩

theorem Moves.callText_eq {b : Block} {n : String} (h : b.Moves n) :
    b.callText = n ++ ".steps(" ++ b.codeFor "STEPPER_STEPS" "0" ++ ");" := by
  rw [callText, h.2.1, Option.getD_some]

theorem namesMotor_eq_movesNamed {b : Block} (hs : b.steps) : b.namesMotor = b.movesNamed := by
  rw [movesNamed, hs, Bool.true_and]

end Block

/-- The visited blocks with the id that move a motor or try to. -/
def Workspace.stepsOf (w : Workspace) (id : String) : List Block :=
  w.visited.filter fun b => b.id == id && b.steps

namespace Compilation

/-! ## Visits -/

/-- Every visit of the block writes this call under its id, or none, and nothing else, and leaves
this warning that the motor is missing, or none. -/
def Visit (board : Board) (b : Block) (call warning : Option String) : Prop :=
  ∀ c : Compilation,
    (addBlock board b c).value.parts =
        { c.parts with body := (call.map (c.parts.body.insert b.id)).getD c.parts.body } ∧
      (addBlock board b c).value.warnings.get? b.id .missingConfiguration = warning

/-- The call that the block writes when it is visited first. -/
def written (board : Board) (b : Block) : Option String :=
  (addBlock board b (start .empty)).value.parts.body.get? b.id

/-- The warning that the block leaves when it is visited first. -/
def left (board : Board) (b : Block) : Option String :=
  (addBlock board b (start .empty)).value.warnings.get? b.id .missingConfiguration

variable {board : Board} {b : Block}

theorem visit_of_steps (hs : b.steps) :
    Visit board b (if b.movesNamed then some b.callText else none)
      (if b.movesNamed then none else some missingConfigurationText) := by
  intro c
  have hconf := Block.configures_eq_false_of_steps hs
  constructor
  · rw [parts_addBlock, hconf]
    cases b.movesNamed <;> rfl
  · rw [value_addBlock_step hs, Warnings.get?_set, if_pos ⟨rfl, rfl⟩,
      Block.stepWarning_eq_warning board [], Block.warning, Block.namesMotor_eq_movesNamed hs]

theorem written_eq (hs : b.steps) :
    written board b = if b.movesNamed then some b.callText else none := by
  rw [written, (visit_of_steps hs (start .empty)).1]
  cases b.movesNamed with
  | false => rfl
  | true => exact (OrderedMap.get?_insert ..).trans (if_pos rfl)

theorem left_eq (hs : b.steps) :
    left board b = if b.movesNamed then none else some missingConfigurationText :=
  (visit_of_steps hs (start .empty)).2

theorem visit_written (hs : b.steps) : Visit board b (written board b) (left board b) := by
  rw [written_eq hs, left_eq hs]
  exact visit_of_steps hs

/-! ## Runs -/

section Runs

variable {pins : PinAssignment} {w : Workspace}

theorem get?_body_run (id : String) :
    (run board pins w).parts.body.get? id =
      ((w.stepsOf id).filterMap (written board)).getLast? := by
  rw [parts_run, OrderedMap.get?_ofList_map, List.filter_filter, ← List.getLast?_map,
    ← List.filterMap_eq_map, Workspace.stepsOf, List.filterMap_filter, List.filterMap_filter]
  congr 1
  apply List.filterMap_congr
  intro b _
  cases hs : b.steps with
  | false => simp [Block.movesNamed, hs]
  | true => cases hm : b.movesNamed <;> simp [hm, written_eq hs]

theorem get?_missing_run (id : String) :
    (run board pins w).warnings.get? id .missingConfiguration =
      (w.stepsOf id).getLast?.bind (left board) := by
  obtain ⟨rs, hreserve⟩ := PinAssignment.exists_reserve pins
  rw [get?_warnings_run hreserve]
  show (w.stepsOf id).getLast?.bind _ = _
  cases hlast : (w.stepsOf id).getLast? with
  | none => rfl
  | some b =>
    have hb := (List.mem_filter.1 (List.mem_of_getLast? hlast)).2
    rw [Bool.and_eq_true] at hb
    rw [Option.bind_some, Option.bind_some, left_eq hb.2, Block.warning,
      Block.namesMotor_eq_movesNamed hb.2]

/-- The code of the loop consists of calls that visited blocks make of motors with names. -/
theorem exists_moves_of_body {id call : String}
    (h : (run board pins w).parts.body.get? id = some call) :
    ∃ b ∈ w.visited, ∃ n, b.id = id ∧ b.Moves n ∧
      call = n ++ ".steps(" ++ b.codeFor "STEPPER_STEPS" "0" ++ ");" := by
  rw [get?_body_run] at h
  obtain ⟨b, hb, hcall⟩ := List.mem_filterMap.1 (List.mem_of_getLast? h)
  obtain ⟨hvisited, hb⟩ := List.mem_filter.1 hb
  rw [Bool.and_eq_true, beq_iff_eq] at hb
  rw [written_eq hb.2] at hcall
  split at hcall
  · next hmoves =>
    obtain ⟨n, hn⟩ := Block.movesNamed_iff.1 hmoves
    cases hcall
    exact ⟨b, hvisited, n, hb.1, hn, hn.callText_eq⟩
  · cases hcall

end Runs

/-! ## Reports -/

/-- The object of the motor is among the definitions. -/
def Configured (r : Report) (n : String) : Prop := "global_stepper_" ++ n ∈ r.parts.definitions.keys

/-- The calls of a report and the warnings beside them, from the blocks that are visited. -/
structure CallsSteps (board : Board) (w : Workspace) (r : Report) : Prop where
  configured_iff : ∀ n, Configured r n ↔ ∃ b ∈ w.visited, b.configures ∧ b.declaredName = n
  visit : ∀ b ∈ w.visited, b.steps → Visit board b (written board b) (left board b)
  refused : ∀ b ∈ w.visited, b.steps → (∀ n, ¬b.Moves n) →
    written board b = none ∧ left board b = some missingConfigurationText
  /-- No call is promised for a motor that is not configured. -/
  called : ∀ b ∈ w.visited, ∀ n, b.Moves n → Configured r n →
    written board b = some (n ++ ".steps(" ++ b.codeFor "STEPPER_STEPS" "0" ++ ");") ∧
      left board b = none
  /-- The last call that was written under the id. -/
  body : ∀ id, r.parts.body.get? id = ((w.stepsOf id).filterMap (written board)).getLast?
  /-- The warning of the last visit, which may stand beside a call that was written before. -/
  warning : ∀ id, r.warnings.get? id .missingConfiguration =
    (w.stepsOf id).getLast?.bind (left board)
  /-- If every motor that is moved is declared, every call is one of a configured motor. -/
  configured : (∀ b ∈ w.visited, ∀ n, b.Moves n →
      ∃ m ∈ w.visited, m.configures ∧ m.declaredName = n) →
    ∀ id call, r.parts.body.get? id = some call →
      ∃ b ∈ w.visited, ∃ n, b.id = id ∧ b.Moves n ∧ Configured r n ∧
        call = n ++ ".steps(" ++ b.codeFor "STEPPER_STEPS" "0" ++ ");"

/-- Which blocks get calls, and what a report has for each id. -/
theorem calls_of_steps (board : Board) (pins : PinAssignment) (w : Workspace) :
    CallsSteps board w (ofWorkspace board pins w).value := by
  rw [value_eq_run]
  constructor
  case configured_iff => exact fun n => objectKey_mem_definitions_iff
  case visit => exact fun b _ hs => visit_written hs
  case refused =>
    intro b _ hs hn
    have hmoves : b.movesNamed = false := by
      rw [← Bool.not_eq_true, Block.movesNamed_iff]
      rintro ⟨n, h⟩
      exact hn n h
    rw [written_eq hs, left_eq hs, hmoves]
    exact ⟨rfl, rfl⟩
  case called =>
    -- A name is not looked up among the configured ones, so the last premise is not needed.
    intro b _ n hn _
    rw [written_eq hn.1, left_eq hn.1, hn.movesNamed, ← hn.callText_eq]
    exact ⟨rfl, rfl⟩
  case body => exact get?_body_run
  case warning => exact get?_missing_run
  case configured =>
    intro hdeclared id call hcall
    obtain ⟨b, hb, n, hid, hn, htext⟩ := exists_moves_of_body hcall
    exact ⟨b, hb, n, hid, hn, objectKey_mem_definitions_iff.2 (hdeclared b hb n hn), htext⟩

/-- A block that moves the named motor. -/
def namedStep (id name : String) : Block :=
  ⟨id, "stepper_step", .ofList [("STEPPER_NAME", name)], [], none, false⟩

/-- A motor, a block that moves it, and a block without a name that has the id of the other one. -/
def movedMotor : Workspace :=
  ⟨[namedMotor "m" "Arm" false, namedStep "s" "Arm", .fresh "s" "stepper_step"]⟩

theorem visited_movedMotor :
    movedMotor.visited =
      [namedMotor "m" "Arm" false, namedStep "s" "Arm", .fresh "s" "stepper_step"] := by
  decide +kernel

theorem moves_movedMotor {b : Block} (hb : b ∈ movedMotor.visited) {n : String} (hn : b.Moves n) :
    n = "Arm" := by
  obtain ⟨hs, hfield, -, -⟩ := hn
  rw [visited_movedMotor, List.mem_cons, List.mem_pair] at hb
  rcases hb with rfl | rfl | rfl
  · exact absurd hs (by decide)
  · exact Option.some_inj.1 (hfield.symm.trans (by decide))
  · exact absurd hfield (by simp [Block.fresh, Block.field?])

theorem calls_of_steps_movedMotor :
    let report := (ofWorkspace .uno .empty movedMotor).value
    Configured report "Arm" ∧
      (∀ b ∈ movedMotor.visited, ∀ n, b.Moves n →
        ∃ m ∈ movedMotor.visited, m.configures ∧ m.declaredName = n) ∧
      report.parts.body.get? "s" = some "Arm.steps(0);" ∧
      report.warnings.get? "s" .missingConfiguration = some missingConfigurationText := by
  intro report
  have hcalls := calls_of_steps .uno .empty movedMotor
  have hmotor : ∃ m ∈ movedMotor.visited, m.configures ∧ m.declaredName = "Arm" := by
    decide +kernel
  have hdeclared : ∀ b ∈ movedMotor.visited, ∀ n, b.Moves n →
      ∃ m ∈ movedMotor.visited, m.configures ∧ m.declaredName = n := by
    intro b hb n hn
    rw [moves_movedMotor hb hn]
    exact hmotor
  have hbody : report.parts.body.get? "s" = some "Arm.steps(0);" :=
    (hcalls.body "s").trans (by decide +kernel)
  have hwarning : report.warnings.get? "s" .missingConfiguration = some missingConfigurationText :=
    (hcalls.warning "s").trans (by decide +kernel)
  obtain ⟨b, hb, n, -, hn, hconfigured, -⟩ := hcalls.configured hdeclared "s" _ hbody
  rw [moves_movedMotor hb hn] at hconfigured
  exact ⟨hconfigured, hdeclared, hbody, hwarning⟩

/-- Calls do not depend on what is configured: a motor that is not configured can have one, and the
name of unnamed motors gives none even where such a motor is configured. -/
theorem calls_configured_fails :
    (let report := (ofWorkspace .uno .empty ⟨[namedStep "t" "ghost"]⟩).value;
      ¬ ((report.parts.body.get? "t" = none ∧
          report.warnings.get? "t" .missingConfiguration = some missingConfigurationText) ∨
        "global_stepper_ghost" ∈ report.parts.definitions.keys)) ∧
      (let report := (ofWorkspace .uno .empty
          ⟨[.fresh "m" "stepper_configure", namedStep "s" "Empty_input_name"]⟩).value;
        ¬ (report.parts.body.get? "s" = none ↔
          "global_stepper_Empty_input_name" ∉ report.parts.definitions.keys)) := by
  decide +kernel

end Compilation

end MotorSketch
