import MotorSketch.Proofs.Compilation.Step
import MotorSketch.Proofs.OrderedMap

/-!
# What is read of a workspace

The compiler reads the stacks up to their first disabled blocks, of each block there a few fields
and inputs, and behind the inputs the trees of the values that are plugged in.  A pruned workspace
has nothing else; fields and inputs stand in a fixed order, since it is not read either.  Compiling
it gives the same report, so whatever pruning takes away cannot show in a report.

    b.valueTree.formula.value = b.formula.value                         (value_formula_valueTree)
    (addBlock board b.kept c).value = (addBlock board b c).value             (value_addBlock_kept)
    w.pruned.enabledBlocks = w.enabledBlocks.map Block.kept                (enabledBlocks_pruned)
    (ofWorkspace board pins w.pruned).value = (ofWorkspace board pins w).value
                                                                       (value_ofWorkspace_pruned)
-/

namespace MotorSketch

namespace Block

/-! ## Pruning -/

/-- The fields with the given names, in the order of the names. -/
def keepFields (names : List String) (fields : OrderedMap String String) :
    OrderedMap String String :=
  .ofList (names.filterMap fun name => (fields.get? name).map fun value => (name, value))

/-- The named input with what `f` keeps of the block in it. -/
def keepInput (name : String) (f : Block → Block) (inputs : List (String × Block)) :
    List (String × Block) :=
  ((Entries.find? name inputs).map fun b => (name, f b)).toList

/-- The inputs with the given names, in the order of the names. -/
def keepInputs (kept : List (String × (Block → Block))) (inputs : List (String × Block)) :
    List (String × Block) :=
  kept.flatMap fun k => keepInput k.1 k.2 inputs

mutual

/-- What is read of a block that stands for a value: its kind, the fields that a value may have,
and the operands if it is an operation. -/
def valueTree : Block → Block
  | ⟨_, kind, fields, inputs, _, _⟩ =>
    ⟨"", kind, keepFields ["NUM", "TEXT", "VAR", "OP"] fields,
      if kind = "math_arithmetic" then valueInput "A" inputs ++ valueInput "B" inputs else [],
      none, false⟩

/-- The named input with the value tree of what is plugged into it. -/
def valueInput (name : String) : List (String × Block) → List (String × Block)
  | [] => []
  | (k, b) :: more => if k = name then [(name, valueTree b)] else valueInput name more

end

/-- The operands of an operation, with the value trees of what is plugged in. -/
def operandTrees : List (String × (Block → Block)) := [("A", valueTree), ("B", valueTree)]

/-- What is read of a name block: that it is there, and its text. -/
def nameTag (b : Block) : Block := ⟨"", "", keepFields ["TEXT"] b.fields, [], none, false⟩

/-- The names of the fields that are read of a block in a stack. -/
def readFields (b : Block) : List String :=
  if b.configures then ["STEPPER_PIN1", "STEPPER_PIN2"]
  else if b.steps then ["STEPPER_NAME"]
  else []

/-- The names of the inputs that are read of a block in a stack, and what is read of the blocks in
them. -/
def readInputs (b : Block) : List (String × (Block → Block)) :=
  if b.configures then
    [("STEPPER_NAME", nameTag), ("STEPPER_STEPS", valueTree), ("STEPPER_SPEED", valueTree)]
  else if b.steps then [("STEPPER_STEPS", valueTree)]
  else []

/-- What is read of the block and its successors; nothing if it is disabled. -/
def pruned : Block → Option Block
  | b@⟨id, kind, fields, inputs, next, disabled⟩ =>
    if disabled then none
    else
      some ⟨id, kind, keepFields b.readFields fields, keepInputs b.readInputs inputs,
        match next with
        | none => none
        | some n => pruned n, false⟩

/-- What is read of a block that is compiled, and of its successors. -/
def kept (b : Block) : Block :=
  ⟨b.id, b.kind, keepFields b.readFields b.fields, keepInputs b.readInputs b.inputs,
    b.next.bind pruned, false⟩

theorem pruned_eq (b : Block) : b.pruned = if b.disabled then none else some b.kept := by
  match b with
  | ⟨_, _, _, _, none, _⟩ => rfl
  | ⟨_, _, _, _, some _, _⟩ => rfl

end Block

/-- What is read of the workspace. -/
def Workspace.pruned (w : Workspace) : Workspace := ⟨w.blocks.filterMap Block.pruned⟩

namespace Block

/-! ## Values -/

theorem get?_insertAll_fields (fields : OrderedMap String String) (names : List String)
    (m : OrderedMap String String) (name : String) :
    (m.insertAll (names.filterMap fun n => (fields.get? n).map fun v => (n, v))).get? name =
      if name ∈ names then (fields.get? name).or (m.get? name) else m.get? name := by
  induction names generalizing m with
  | nil => rfl
  | cons n names ih =>
    cases hn : fields.get? n with
    | none =>
      rw [List.filterMap_cons_none (by rw [hn, Option.map_none]), ih]
      by_cases he : name = n
      · simp [he, hn]
      · simp [he]
    | some value =>
      rw [List.filterMap_cons_some (by rw [hn, Option.map_some]), OrderedMap.insertAll_cons, ih,
        OrderedMap.get?_insert]
      by_cases he : name = n
      · simp [he, hn]
      · simp [he]

theorem get?_keepFields (names : List String) (fields : OrderedMap String String) (name : String) :
    (keepFields names fields).get? name = if name ∈ names then fields.get? name else none := by
  rw [keepFields, OrderedMap.ofList, get?_insertAll_fields, OrderedMap.get?_empty, Option.or_none]

theorem find?_keepInputs (kept : List (String × (Block → Block))) (inputs : List (String × Block))
    (name : String) :
    Entries.find? name (keepInputs kept inputs) =
      (Entries.find? name kept).bind fun f => (Entries.find? name inputs).map f := by
  induction kept with
  | nil => rfl
  | cons k kept ih =>
    obtain ⟨n, f⟩ := k
    rw [keepInputs, List.flatMap_cons, ← keepInputs, keepInput, Entries.find?]
    by_cases he : n = name
    · subst he
      cases hn : Entries.find? n inputs with
      | none => simp [ih, hn]
      | some b => simp [Entries.find?]
    · cases Entries.find? n inputs with
      | none => simp [ih, he]
      | some b => simp [Entries.find?, ih, he]

theorem valueInput_eq_keepInput (name : String) (inputs : List (String × Block)) :
    valueInput name inputs = keepInput name valueTree inputs := by
  induction inputs with
  | nil => rfl
  | cons e more ih =>
    obtain ⟨k, b⟩ := e
    rw [valueInput, keepInput, Entries.find?]
    by_cases h : k = name
    · rw [if_pos h, if_pos h]
      rfl
    · rw [if_neg h, if_neg h, ih, keepInput]

/-- A value tree that is kept stands for the value that was plugged in, if it has the same value. -/
theorem value_operand_keepInputs {name : String} {kept : List (String × (Block → Block))}
    {inputs : List (String × Block)} (hkept : Entries.find? name kept = some valueTree)
    (hvalue : ((Entries.find? name inputs).bind fun b => b.valueTree.formula.value) =
      (Entries.find? name inputs).bind fun b => b.formula.value) :
    (operand name (keepInputs kept inputs)).value = (operand name inputs).value := by
  rw [value_operand, value_operand, find?_keepInputs, hkept, Option.bind_some, Option.bind_map]
  exact hvalue

mutual

theorem value_formula_valueTree (b : Block) : b.valueTree.formula.value = b.formula.value := by
  match b with
  | ⟨id, kind, fields, inputs, next, disabled⟩ =>
    have hfield := get?_keepFields ["NUM", "TEXT", "VAR", "OP"] fields
    rw [valueTree, formula, formula]
    cases hkind : BlockKind.ofName kind with
    | arithmetic =>
      -- The only kind with inputs: its operands are found in the tree, with their values.
      have hinputs : valueInput "A" inputs ++ valueInput "B" inputs =
          keepInputs operandTrees inputs := by
        simp [valueInput_eq_keepInput, keepInputs, operandTrees]
      have hA : (operand "A" (keepInputs operandTrees inputs)).value = (operand "A" inputs).value :=
        value_operand_keepInputs (by simp [operandTrees, Entries.find?])
          (value_operand_valueTree "A" inputs)
      have hB : (operand "B" (keepInputs operandTrees inputs)).value = (operand "B" inputs).value :=
        value_operand_keepInputs (by simp [operandTrees, Entries.find?])
          (value_operand_valueTree "B" inputs)
      rw [if_pos (BlockKind.ofName_eq_arithmetic_iff.1 hkind), hinputs]
      simp only [Logged.value_bind, Logged.value_pure, hA, hB, hfield, value_operatorOf]
      simp
    | number => simp [hfield]
    | text => simp [hfield]
    | reference => simp [hfield]
    | configure => rfl
    | step => rfl
    | other => rfl

theorem value_operand_valueTree (name : String) (inputs : List (String × Block)) :
    ((Entries.find? name inputs).bind fun b => b.valueTree.formula.value) =
      (Entries.find? name inputs).bind fun b => b.formula.value := by
  match inputs with
  | [] => rfl
  | (k, b) :: more =>
    rw [Entries.find?]
    split
    · exact value_formula_valueTree b
    · exact value_operand_valueTree name more

end

/-! ## Blocks in a stack -/

theorem field?_kept (b : Block) (name : String) :
    b.kept.field? name = if name ∈ b.readFields then b.field? name else none :=
  get?_keepFields b.readFields b.fields name

theorem input?_kept (b : Block) (name : String) :
    b.kept.input? name =
      (Entries.find? name b.readInputs).bind fun f => (b.input? name).map f :=
  find?_keepInputs b.readInputs b.inputs name

theorem value_pluggedCode_kept {b : Block} {name : String}
    (h : Entries.find? name b.readInputs = some valueTree) :
    (b.kept.pluggedCode name).value = (b.pluggedCode name).value := by
  have hvalue := value_operand_keepInputs h (value_operand_valueTree name b.inputs)
  show (operand name (keepInputs b.readInputs b.inputs)).value.map Formula.code =
    (operand name b.inputs).value.map Formula.code
  rw [hvalue]

theorem field?_nameTag (b : Block) : b.nameTag.field? "TEXT" = b.field? "TEXT" := by
  rw [field?, nameTag, get?_keepFields, if_pos (by simp), field?]

section Configures

variable {b : Block} (h : b.configures)
include h

theorem readFields_of_configures : b.readFields = ["STEPPER_PIN1", "STEPPER_PIN2"] := by
  rw [readFields, if_pos h]

theorem readInputs_of_configures : b.readInputs =
    [("STEPPER_NAME", nameTag), ("STEPPER_STEPS", valueTree), ("STEPPER_SPEED", valueTree)] := by
  rw [readInputs, if_pos h]

theorem nameInput_kept :
    b.kept.input? "STEPPER_NAME" = (b.input? "STEPPER_NAME").map nameTag := by
  rw [input?_kept, readInputs_of_configures h]
  simp [Entries.find?]

theorem instanceName_kept : b.kept.instanceName = b.instanceName := by
  rw [instanceName, nameInput_kept h, instanceName]
  cases b.input? "STEPPER_NAME" with
  | none => rfl
  | some name => exact field?_nameTag name

theorem nameWarning_kept : b.kept.nameWarning = b.nameWarning := by
  rw [nameWarning, nameInput_kept h, nameWarning]
  cases b.input? "STEPPER_NAME" <;> rfl

theorem pins_kept (board : Board) :
    board.pinOf b.kept "STEPPER_PIN1" = board.pinOf b "STEPPER_PIN1" ∧
      board.pinOf b.kept "STEPPER_PIN2" = board.pinOf b "STEPPER_PIN2" := by
  simp [Board.pinOf, field?_kept, readFields_of_configures h]

theorem configuredMotor_kept (board : Board) :
    b.kept.configuredMotor board = b.configuredMotor board := by
  have hsteps : Entries.find? "STEPPER_STEPS" b.readInputs = some valueTree := by
    simp [readInputs_of_configures h, Entries.find?]
  have hspeed : Entries.find? "STEPPER_SPEED" b.readInputs = some valueTree := by
    simp [readInputs_of_configures h, Entries.find?]
  rw [configuredMotor, motor, instanceName_kept h, (pins_kept h board).1, (pins_kept h board).2,
    value_pluggedCode_kept hsteps, value_pluggedCode_kept hspeed]
  rfl

end Configures

section Steps

variable {b : Block} (h : b.steps)
include h

theorem motorName_kept : b.kept.motorName = b.motorName := by
  have hname : "STEPPER_NAME" ∈ b.readFields := by
    simp [readFields, configures_eq_false_of_steps h, h]
  rw [motorName, field?_kept, if_pos hname, motorName]

theorem stepsCode_kept :
    (b.kept.pluggedCode "STEPPER_STEPS").value = (b.pluggedCode "STEPPER_STEPS").value := by
  apply value_pluggedCode_kept
  simp [readInputs, configures_eq_false_of_steps h, h, Entries.find?]

end Steps

/-! ## Stacks -/

theorem enabled_kept (b : Block) :
    b.kept.enabled = b.kept :: (b.next.bind pruned).elim [] enabled := by
  rw [enabled_eq]
  rfl

/-- The blocks that are compiled of a pruned stack are what is kept of those of the stack. -/
theorem enabled_pruned (b : Block) : b.pruned.elim [] enabled = b.enabled.map kept := by
  rw [pruned_eq, enabled_eq]
  match b with
  | ⟨_, _, _, _, _, true⟩ => rfl
  | ⟨_, _, _, _, none, false⟩ => simp [enabled_kept]
  | ⟨_, _, _, _, some n, false⟩ => simpa [enabled_kept] using enabled_pruned n

end Block

theorem Workspace.enabledBlocks_pruned (w : Workspace) :
    w.pruned.enabledBlocks = w.enabledBlocks.map Block.kept := by
  obtain ⟨blocks⟩ := w
  show (blocks.filterMap Block.pruned).flatMap Block.enabled =
    (blocks.flatMap Block.enabled).map Block.kept
  rw [List.map_flatMap]
  induction blocks with
  | nil => rfl
  | cons b blocks ih =>
    rw [List.flatMap_cons, ← Block.enabled_pruned, ← ih]
    cases h : b.pruned with
    | none => rw [List.filterMap_cons_none h]; rfl
    | some k => rw [List.filterMap_cons_some h]; rfl

namespace Compilation

/-- A block is compiled from what is kept of it. -/
theorem value_addBlock_kept (board : Board) (b : Block) (c : Compilation) :
    (addBlock board b.kept c).value = (addBlock board b c).value := by
  rcases b.configures_or_steps_or_neither with hc | hs | ⟨hc, hs⟩
  · have hk : b.kept.configures := hc
    obtain ⟨hpin1, hpin2⟩ := Block.pins_kept hc board
    rw [value_addBlock_motor hc, value_addBlock_motor hk, Block.configuredMotor_kept hc,
      Block.nameWarning_kept hc, hpin1, hpin2]
    rfl
  · have hk : b.kept.steps := hs
    rw [value_addBlock_step hs, value_addBlock_step hk, Block.motorName_kept hs,
      Block.stepsCode_kept hs]
    rfl
  · have hck : b.kept.configures = false := hc
    have hsk : b.kept.steps = false := hs
    rw [value_addBlock_other hc hs, value_addBlock_other hck hsk]

theorem value_ofWorkspace_pruned (board : Board) (pins : PinAssignment) (w : Workspace) :
    (ofWorkspace board pins w.pruned).value = (ofWorkspace board pins w).value := by
  rw [value_ofWorkspace, value_ofWorkspace, Workspace.enabledBlocks_pruned, List.foldl_map]
  simp only [value_addBlock_kept]

/-- What is not read cannot show in a report: pruning a workspace leaves its report as it is, and
workspaces that are equal when they are pruned have the same report. -/
theorem report_pruned (board : Board) (pins : PinAssignment) :
    (∀ w : Workspace, (ofWorkspace board pins w.pruned).value = (ofWorkspace board pins w).value) ∧
      ∀ v w : Workspace, v.pruned = w.pruned →
        (ofWorkspace board pins v).value = (ofWorkspace board pins w).value := by
  refine ⟨value_ofWorkspace_pruned board pins, ?_⟩
  intro v w h
  calc (ofWorkspace board pins v).value
      = (ofWorkspace board pins v.pruned).value := (value_ofWorkspace_pruned board pins v).symm
    _ = (ofWorkspace board pins w.pruned).value := by rw [h]
    _ = (ofWorkspace board pins w).value := value_ofWorkspace_pruned board pins w

/-- A motor with a field and an input that are not read, a number with more than its digits, and a
stack below a disabled block. -/
def cluttered : Workspace :=
  ⟨[⟨"m", "stepper_configure",
    .ofList [("COLOR", "red"), ("STEPPER_PIN2", "9"), ("STEPPER_PIN1", "8")],
    [("OTHER", .fresh "x" "stepper_configure"),
      ("STEPPER_SPEED", ⟨"v", "math_number", .ofList [("NUM", "60"), ("UNIT", "rpm")],
        [("A", .fresh "y" "stepper_step")], some (.fresh "z" "stepper_step"), true⟩)],
    some ⟨"d", "stepper_step", ∅, [], some (.fresh "n" "stepper_configure"), true⟩, false⟩]⟩

/-- The same motor alone. -/
def uncluttered : Workspace :=
  ⟨[⟨"m", "stepper_configure", .ofList [("STEPPER_PIN1", "8"), ("STEPPER_PIN2", "9")],
    [("STEPPER_SPEED", ⟨"", "math_number", .ofList [("NUM", "60")], [], none, false⟩)], none,
    false⟩]⟩

theorem report_pruned_cluttered :
    cluttered ≠ uncluttered ∧ cluttered.pruned = uncluttered.pruned ∧
      (ofWorkspace .uno .empty cluttered).value = (ofWorkspace .uno .empty uncluttered).value := by
  have hpruned : cluttered.pruned = uncluttered.pruned := by decide +kernel
  refine ⟨by decide +kernel, hpruned, ?_⟩
  exact (report_pruned .uno .empty).2 cluttered uncluttered hpruned

end Compilation

end MotorSketch
