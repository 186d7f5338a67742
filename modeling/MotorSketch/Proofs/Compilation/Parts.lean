import MotorSketch.Proofs.Compilation.Step
import MotorSketch.Proofs.OrderedMap

/-!
# The parts of a compiled sketch

What each block writes into the three buffers of a sketch does not depend on the blocks before it.
So a compiled sketch is known from its visited blocks: one object and one speed for each declared
name and one call for each id, in order of first occurrence, each from the last block that has the
name or the id, and the library once in front if any motor is declared.

    (addBlock board b c).value.parts = …                                           (parts_addBlock)
    (ofWorkspace board pins w).value.parts = …                                  (parts_ofWorkspace)
-/

namespace MotorSketch

namespace Block

/-! ## What a block writes -/

/-- The name of the declared motor: the text of the block that is plugged in for it, which may be
missing, or the name of unnamed motors. -/
def declaredName (b : Block) : String :=
  match b.input? "STEPPER_NAME" with
  | none => "Empty_input_name"
  | some name => (name.field? "TEXT").getD ""

/-- The code of the block in the input, or the default without one that has a value. -/
def codeFor (b : Block) (input default : String) : String :=
  match b.input? input with
  | none => default
  | some value => value.code.value.getD default

/-- The declaration of the motor's global object. -/
def objectText (board : Board) (b : Block) : String :=
  "Stepper " ++ b.declaredName ++ "(" ++ b.codeFor "STEPPER_STEPS" "360" ++ ", " ++
    b.pinIn board "STEPPER_PIN1" ++ ", " ++ b.pinIn board "STEPPER_PIN2" ++ ");"

def speedText (b : Block) : String :=
  b.declaredName ++ ".setSpeed(" ++ b.codeFor "STEPPER_SPEED" "90" ++ ");"

/-- The block moves a motor that has a name of its own. -/
def movesNamed (b : Block) : Bool := b.steps && b.namesMotor

def callText (b : Block) : String :=
  (b.field? "STEPPER_NAME").getD "" ++ ".steps(" ++ b.codeFor "STEPPER_STEPS" "0" ++ ");"

/-! ## Lemmas -/

theorem getD_instanceName (b : Block) : b.instanceName.getD "" = b.declaredName := by
  rw [instanceName, declaredName]
  cases b.input? "STEPPER_NAME" <;> rfl

theorem name_configuredMotor (board : Board) (b : Block) :
    (b.configuredMotor board).name = b.declaredName :=
  getD_instanceName b

theorem declaredName_of_instanceName {b : Block} {n : String} (h : b.instanceName = some n) :
    b.declaredName = n := by
  rw [← getD_instanceName, h, Option.getD_some]

/-- Code is never blank, so the default stands only where there is no code. -/
theorem codeOr_pluggedCode_eq (b : Block) (input default : String) :
    codeOr default (b.pluggedCode input).value = b.codeFor input default := by
  rw [codeOr_pluggedCode, value_pluggedCode, codeFor]
  cases b.input? input <;> rfl

theorem objectCode_configuredMotor (board : Board) (b : Block) :
    (b.configuredMotor board).objectCode = b.objectText board := by
  unfold objectText
  rw [← getD_instanceName, ← codeOr_pluggedCode_eq, ← pinOf_eq_pinIn, ← pinOf_eq_pinIn]
  rfl

theorem speedCode_configuredMotor (board : Board) (b : Block) :
    (b.configuredMotor board).speedCode = b.speedText := by
  rw [speedText, ← getD_instanceName, ← codeOr_pluggedCode_eq]
  rfl

theorem movesNamed_eq_false_of_configures {b : Block} (h : b.configures) :
    b.movesNamed = false := by
  rw [movesNamed, steps_eq_false_of_configures h, Bool.false_and]

/-- A call is written for a named motor only. -/
theorem stepCode_motorName {b : Block} (h : b.steps) :
    Motor.stepCode b.motorName (b.pluggedCode "STEPPER_STEPS").value =
      if b.movesNamed then some ((b.field? "STEPPER_NAME").getD "" ++ ".steps(" ++
        b.codeFor "STEPPER_STEPS" "0" ++ ")") else none := by
  rw [Motor.stepCode, movesNamed, h, Bool.true_and]
  cases hn : b.namesMotor with
  | false => rw [if_pos (motorName_eq_unnamed_iff.2 hn), if_neg (by simp)]
  | true =>
    have hu : b.motorName ≠ unnamedInstance := by
      rw [Ne, motorName_eq_unnamed_iff, hn]
      simp
    rw [if_neg hu, if_pos rfl, motorName_of_namesMotor hn, codeOr_pluggedCode_eq]

end Block

namespace Motor

theorem libraryKey_ne_objectKey (name : String) : objectKey name ≠ libraryKey := by
  intro h
  have hfirst : ("global_stepper_" ++ name).toList.head? = "define_stepper".toList.head? :=
    congrArg (fun s : String => s.toList.head?) h
  have hg : "global_stepper_".toList = 'g' :: "lobal_stepper_".toList := by decide
  have hd : "define_stepper".toList = 'd' :: "efine_stepper".toList := by decide
  rw [String.toList_append, hg, hd, List.cons_append, List.head?_cons, List.head?_cons,
    Option.some_inj] at hfirst
  exact absurd hfirst (by decide)

theorem overlay_parts (p : Sketch.Parts) (m : Motor) :
    p.overlay m.parts =
      ⟨p.definitions.insertAll [(libraryKey, libraryInclude), (objectKey m.name, m.objectCode)],
        p.setups.insertAll [(speedKey m.name, m.speedCode)], p.body⟩ := by
  have hkeys : [libraryKey, objectKey m.name].Nodup := by
    rw [List.nodup_cons, List.mem_singleton]
    exact ⟨(libraryKey_ne_objectKey m.name).symm, List.pairwise_singleton _ _⟩
  have hd : (OrderedMap.ofList [(libraryKey, libraryInclude),
      (objectKey m.name, m.objectCode)]).entries =
        [(libraryKey, libraryInclude), (objectKey m.name, m.objectCode)] :=
    OrderedMap.entries_ofList hkeys
  rw [Sketch.Parts.overlay, parts, OrderedMap.overlay, hd]
  rfl

end Motor

namespace Compilation

/-! ## Steps and runs -/

/-- What one block adds to each buffer, whatever was compiled before it. -/
theorem parts_addBlock (board : Board) (b : Block) (c : Compilation) :
    (addBlock board b c).value.parts =
      ⟨c.parts.definitions.insertAll (if b.configures then
          [(Motor.libraryKey, Motor.libraryInclude),
            (Motor.objectKey b.declaredName, b.objectText board)] else []),
        c.parts.setups.insertAll (if b.configures then
          [(Motor.speedKey b.declaredName, b.speedText)] else []),
        c.parts.body.insertAll (if b.movesNamed then [(b.id, b.callText)] else [])⟩ := by
  rcases b.configures_or_steps_or_neither with hc | hs | ⟨hc, hs⟩
  · rw [value_addBlock_motor hc]
    simp only [hc, Block.movesNamed_eq_false_of_configures hc, if_true]
    rw [Motor.overlay_parts, Block.objectCode_configuredMotor, Block.speedCode_configuredMotor,
      Block.name_configuredMotor]
    rfl
  · have hc := Block.configures_eq_false_of_steps hs
    rw [value_addBlock_step hs, Block.stepCode_motorName hs]
    cases hm : b.movesNamed with
    | false => simp [hc, addCall]
    | true => simp [hc, addCall, Block.callText, String.append_assoc]
  · have hm : b.movesNamed = false := by rw [Block.movesNamed, hs, Bool.false_and]
    rw [value_addBlock_other hc hs]
    simp [hc, hm]

theorem objectKey_injective (m n : String) (h : Motor.objectKey m = Motor.objectKey n) : m = n :=
  (String.append_right_inj "global_stepper_").1 h

theorem speedKey_injective (m n : String) (h : Motor.speedKey m = Motor.speedKey n) : m = n :=
  (String.append_right_inj "setup_stepper_").1 h

/-- Each buffer of a compiled sketch holds what the visited blocks write into it. -/
theorem parts_run (board : Board) (pins : PinAssignment) (w : Workspace) :
    (run board pins w).parts =
      ⟨.ofList ((w.visited.filter Block.configures).flatMap fun b =>
          [(Motor.libraryKey, Motor.libraryInclude),
            (Motor.objectKey b.declaredName, b.objectText board)]),
        .ofList ((w.visited.filter Block.configures).map fun b =>
          (Motor.speedKey b.declaredName, b.speedText)),
        .ofList ((w.visited.filter Block.movesNamed).map fun b => (b.id, b.callText))⟩ := by
  have hdefinitions := OrderedMap.foldl_insertAll (fun c : Compilation => c.parts.definitions)
    (fun c b => congrArg Sketch.Parts.definitions (parts_addBlock board b c)) w.visited
  have hsetups := OrderedMap.foldl_insertAll (fun c : Compilation => c.parts.setups)
    (fun c b => congrArg Sketch.Parts.setups (parts_addBlock board b c)) w.visited
  have hbody := OrderedMap.foldl_insertAll (fun c : Compilation => c.parts.body)
    (fun c b => congrArg Sketch.Parts.body (parts_addBlock board b c)) w.visited
  rw [List.map_eq_flatMap, List.map_eq_flatMap, flatMap_filter, flatMap_filter, flatMap_filter]
  show Sketch.Parts.mk (run board pins w).parts.definitions (run board pins w).parts.setups
    (run board pins w).parts.body = _
  rw [run, hdefinitions, hsetups, hbody]
  rfl

/-- The compiled sketch from its visited blocks. -/
theorem parts_ofWorkspace (board : Board) (pins : PinAssignment) (w : Workspace) :
    let motors := latest Block.declaredName (w.visited.filter Block.configures)
    let parts := (ofWorkspace board pins w).value.parts
    parts.definitions.entries =
        (if w.visited.filter Block.configures = [] then []
        else ("define_stepper", "#include <Stepper.h>") ::
          motors.map fun b => ("global_stepper_" ++ b.declaredName, b.objectText board)) ∧
      parts.setups.entries =
        motors.map (fun b => ("setup_stepper_" ++ b.declaredName, b.speedText)) ∧
      parts.body.entries =
        (latest Block.id (w.visited.filter Block.movesNamed)).map
          fun b => (b.id, b.callText) := by
  have hparts : (ofWorkspace board pins w).value.parts = (run board pins w).parts := by
    rw [value_eq_run]
    rfl
  have hdefinitions := OrderedMap.entries_ofList_shared (fun b => Motor.objectKey b.declaredName)
    (Block.objectText board) (fun b => Motor.libraryKey_ne_objectKey b.declaredName)
    (v := Motor.libraryInclude) (w.visited.filter Block.configures)
  have hsetups := OrderedMap.entries_ofList_map (fun b => Motor.speedKey b.declaredName)
    Block.speedText (w.visited.filter Block.configures)
  rw [latest_comp objectKey_injective] at hdefinitions
  rw [latest_comp speedKey_injective] at hsetups
  simp only [hparts, parts_run]
  refine ⟨hdefinitions, hsetups, ?_⟩
  exact OrderedMap.entries_ofList_map Block.id Block.callText _

end Compilation

end MotorSketch
