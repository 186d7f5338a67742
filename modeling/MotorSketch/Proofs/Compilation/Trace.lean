import MotorSketch.Proofs.Compilation.Step

/-!
# Records of a compilation

What a compilation reports is told by the blocks alone.  Each visited block is reported, and after
it what is wrong with the values that the block asks for, whether they are used or not; a chain that
is cut at a disabled block ends with a report of it; and at the very end the sizes of the result are
given.

    b.formula.records = b.valueRecords                                          (records_formula)
    (addBlock board b c).records = b.visitRecords                              (records_addBlock)
    (addStack board b c).records = b.stackRecords                              (records_addStack)
    (ofWorkspace board pins w).records = w.blocks.flatMap Block.stackRecords ++ [the sizes]
                                                                            (records_ofWorkspace)
-/

namespace MotorSketch

/-- A level and a text. -/
abbrev Record := Level × String

def Event.record (e : Event) : Record := (e.level, e.message)

namespace Logged

variable {α β : Type}

/-- What is reported while the value is computed. -/
def records (x : Logged α) : List Record := x.events.map Event.record

@[simp] theorem records_pure (a : α) : (pure a : Logged α).records = [] := rfl

@[simp] theorem records_bind (x : Logged α) (f : α → Logged β) :
    (x >>= f).records = x.records ++ (f x.value).records :=
  List.map_append

@[simp] theorem records_map (f : α → β) (x : Logged α) : (f <$> x).records = x.records := by
  rw [records, events_map, records]

@[simp] theorem records_log (e : Event) : (log e).records = [e.record] := rfl

/-- Steps that report the same in every state report one after the other. -/
theorem records_foldlM {f : β → α → Logged β} {report : α → List Record}
    (h : ∀ b a, (f b a).records = report a) (xs : List α) (b : β) :
    (xs.foldlM f b).records = xs.flatMap report := by
  induction xs generalizing b with
  | nil => rfl
  | cons x xs ih => rw [List.foldlM_cons, records_bind, h, ih, List.flatMap_cons]

end Logged

namespace Block

/-! ## Records of values -/

/-- An operator that is there but unknown is reported. -/
def operatorRecords (id : String) (operator : Option String) : List Record :=
  match operator with
  | none => []
  | some op =>
    if op ∈ ["ADD", "MINUS", "MULTIPLY", "DIVIDE", "POWER"] then []
    else [(.warn, "Block " ++ id ++ " has unknown arithmetic operator " ++ op ++ ", using ADD")]

mutual

/-- What is reported when the block is asked for its value: a block that has none by its type, and
for arithmetic the operands and then the operator. -/
def valueRecords : Block → List Record
  | ⟨id, kind, fields, inputs, _, _⟩ =>
    if kind ∈ ["math_number", "text", "variables_get"] then []
    else if kind = "math_arithmetic" then
      inputRecords "A" inputs ++ inputRecords "B" inputs ++ operatorRecords id (fields.get? "OP")
    else [(.warn, "Block " ++ id ++ " of type " ++ kind ++ " has no value to generate")]

/-- What is reported when the block plugged into the named input is asked for its value. -/
def inputRecords (name : String) : List (String × Block) → List Record
  | [] => []
  | (k, b) :: more => if k = name then valueRecords b else inputRecords name more

end

/-! ## Records of blocks -/

/-- What a visited block reports beside its visit. -/
def ownRecords (b : Block) : List Record :=
  if b.kind = "stepper_configure" then
    inputRecords "STEPPER_STEPS" b.inputs ++ inputRecords "STEPPER_SPEED" b.inputs
  else if b.kind = "stepper_step" then inputRecords "STEPPER_STEPS" b.inputs
  else [(.debug, "No generator for block type " ++ b.kind)]

def visitRecords (b : Block) : List Record :=
  (.debug, "Visiting block " ++ b.id ++ " (" ++ b.kind ++ ")") :: b.ownRecords

def skipRecord (b : Block) : Record :=
  (.debug, "Skipping disabled block " ++ b.id ++ " and its successors")

/-- The visits of a chain up to its first disabled block, which is reported if there is one. -/
def stackRecords (b : Block) : List Record :=
  (b.chain.takeWhile fun b => !b.disabled).flatMap visitRecords ++
    ((b.chain.find? fun b => b.disabled).map skipRecord).toList

theorem stackRecords_eq (b : Block) :
    b.stackRecords =
      if b.disabled then [b.skipRecord] else b.visitRecords ++ b.next.elim [] stackRecords := by
  rw [stackRecords, chain_eq]
  cases hd : b.disabled with
  | true => simp [hd]
  | false => cases b.next <;> simp [hd, stackRecords]

/-! ## Values -/

theorem exists_ofTag?_iff {t : String} :
    (∃ o, Operator.ofTag? t = some o) ↔ t ∈ ["ADD", "MINUS", "MULTIPLY", "DIVIDE", "POWER"] := by
  simp only [Operator.ofTag?_eq_some_iff]
  constructor
  · rintro ⟨o, rfl⟩
    cases o <;> decide
  · intro h
    have htags : t ∈ Operator.all.map Operator.tag := h
    obtain ⟨o, -, ho⟩ := List.mem_map.1 htags
    exact ⟨o, ho⟩

theorem records_operatorOf (id : String) (tag : Option String) :
    (operatorOf id tag).records = operatorRecords id tag := by
  cases tag with
  | none => rfl
  | some t =>
    rw [operatorOf, operatorRecords]
    cases h : Operator.ofTag? t with
    | none =>
      have hunknown : t ∉ ["ADD", "MINUS", "MULTIPLY", "DIVIDE", "POWER"] := by
        rw [← exists_ofTag?_iff, h]
        simp
      rw [if_neg hunknown]
      rfl
    | some o =>
      rw [if_pos (exists_ofTag?_iff.1 ⟨o, h⟩)]
      rfl

mutual

theorem records_formula (b : Block) : b.formula.records = b.valueRecords := by
  match b with
  | ⟨id, kind, fields, inputs, next, disabled⟩ =>
    rw [formula, valueRecords]
    cases hkind : BlockKind.ofName kind with
    | number | text | reference | configure | step =>
      obtain rfl := BlockKind.eq_of_ofName_eq hkind rfl
      rfl
    | arithmetic =>
      obtain rfl := BlockKind.eq_of_ofName_eq hkind rfl
      simp [records_operand, records_operatorOf]
    | other =>
      have hnumber := BlockKind.ne_of_ofName_eq_other (k := .number) hkind rfl
      have htext := BlockKind.ne_of_ofName_eq_other (k := .text) hkind rfl
      have hreference := BlockKind.ne_of_ofName_eq_other (k := .reference) hkind rfl
      have harithmetic := BlockKind.ne_of_ofName_eq_other (k := .arithmetic) hkind rfl
      rw [if_neg (by simp [hnumber, htext, hreference]), if_neg harithmetic]
      rfl

theorem records_operand (name : String) (inputs : List (String × Block)) :
    (operand name inputs).records = inputRecords name inputs := by
  match inputs with
  | [] => rfl
  | (k, b) :: more =>
    rw [operand, inputRecords]
    split
    · exact records_formula b
    · exact records_operand name more

end

theorem records_pluggedCode (b : Block) (name : String) :
    (b.pluggedCode name).records = inputRecords name b.inputs := by
  simp [pluggedCode, records_operand]

end Block

namespace Compilation

/-! ## Steps and runs -/

/-- What a visit reports does not depend on what was compiled before. -/
theorem records_addBlock (board : Board) (b : Block) (c : Compilation) :
    (addBlock board b c).records = b.visitRecords := by
  rw [addBlock, Logged.records_bind, Logged.records_log, Block.visitRecords, Block.ownRecords,
    List.singleton_append]
  congr 1
  split
  · next hkind =>
    rw [if_pos (BlockKind.ofName_eq_configure_iff.1 hkind)]
    simp [addMotor, Block.records_pluggedCode]
  · next hkind =>
    have hstep := BlockKind.ofName_eq_step_iff.1 hkind
    rw [if_neg (by simp [hstep]), if_pos hstep]
    simp [addStep, Block.records_pluggedCode]
  · next hconfigure hstep =>
    rw [if_neg fun h => hconfigure (BlockKind.ofName_eq_configure_iff.2 h),
      if_neg fun h => hstep (BlockKind.ofName_eq_step_iff.2 h)]
    rfl

mutual

theorem records_addStack (board : Board) (b : Block) (c : Compilation) :
    (addStack board b c).records = b.stackRecords := by
  rw [Block.stackRecords_eq]
  match b with
  | ⟨i, k, f, ins, next, true⟩ => rfl
  | ⟨i, k, f, ins, next, false⟩ => simp [addStack, records_addBlock, records_addRest]

theorem records_addRest (board : Board) (next : Option Block) (c : Compilation) :
    (addRest board next c).records = next.elim [] Block.stackRecords := by
  match next with
  | none => rfl
  | some b => exact records_addStack board b c

end

/-! ## Levels -/

mutual

theorem level_of_mem_valueRecords {b : Block} {r : Record} (h : r ∈ b.valueRecords) :
    r.1 = .warn := by
  match b with
  | ⟨id, kind, fields, inputs, next, disabled⟩ =>
    rw [Block.valueRecords] at h
    split at h
    · cases h
    · split at h
      · rcases List.mem_append.1 h with h | h
        · exact (List.mem_append.1 h).elim level_of_mem_inputRecords level_of_mem_inputRecords
        · unfold Block.operatorRecords at h
          split at h
          · cases h
          · split at h
            · cases h
            · rw [List.mem_singleton.1 h]
      · rw [List.mem_singleton.1 h]

theorem level_of_mem_inputRecords {name : String} {inputs : List (String × Block)} {r : Record}
    (h : r ∈ Block.inputRecords name inputs) : r.1 = .warn := by
  match inputs with
  | [] => cases h
  | (k, b) :: more =>
    rw [Block.inputRecords] at h
    split at h
    · exact level_of_mem_valueRecords h
    · exact level_of_mem_inputRecords h

end

theorem level_of_mem_visitRecords {b : Block} {r : Record} (h : r ∈ b.visitRecords) :
    r.1 = .debug ∨ r.1 = .warn := by
  rcases List.mem_cons.1 h with rfl | h
  · exact .inl rfl
  · unfold Block.ownRecords at h
    split at h
    · exact .inr ((List.mem_append.1 h).elim level_of_mem_inputRecords level_of_mem_inputRecords)
    · split at h
      · exact .inr (level_of_mem_inputRecords h)
      · rw [List.mem_singleton.1 h]
        exact .inl rfl

theorem level_of_mem_stackRecords {b : Block} {r : Record} (h : r ∈ b.stackRecords) :
    r.1 = .debug ∨ r.1 = .warn := by
  rcases List.mem_append.1 h with h | h
  · obtain ⟨v, -, h⟩ := List.mem_flatMap.1 h
    exact level_of_mem_visitRecords h
  · obtain ⟨d, -, rfl⟩ := Option.map_eq_some_iff.1 (Option.mem_toList.1 h)
    exact .inl rfl

/-- Everything that a compilation reports, in order: for each top-level block the visits of its
chain, each followed by what the visited block reports itself, and the disabled block that ends the
chain if there is one; and at the end the sizes of what was compiled, as the only information. -/
theorem records_ofWorkspace (board : Board) (pins : PinAssignment) (w : Workspace) :
    let report := (ofWorkspace board pins w).value
    let records := (ofWorkspace board pins w).records
    let sizes : Record := (.info, "Generated " ++ toString report.parts.definitions.size ++
      " definitions, " ++ toString report.parts.setups.size ++ " setup and " ++
      toString report.parts.body.size ++ " loop fragments (" ++
      toString report.warnings.blocks.length ++ " blocks with warnings)")
    records = (w.blocks.flatMap fun b =>
        (b.chain.takeWhile fun b => !b.disabled).flatMap Block.visitRecords ++
          ((b.chain.find? fun b => b.disabled).map Block.skipRecord).toList) ++ [sizes] ∧
      records.filter (fun r => r.1 = .info) = [sizes] := by
  intro report records sizes
  have hsize : report.warnings.size = report.warnings.blocks.length := (List.length_map _).symm
  have hsizes : Event.record (.generated report.parts.definitions.size report.parts.setups.size
      report.parts.body.size report.warnings.size) = sizes := by
    rw [hsize]
    rfl
  have hrecords : records = w.blocks.flatMap Block.stackRecords ++ [sizes] := by
    rw [← Logged.records_foldlM (fun c b => records_addStack board b c) w.blocks (start pins),
      ← hsizes]
    show (ofWorkspace board pins w).records = _
    rw [ofWorkspace, Logged.records_bind]
    rfl
  refine ⟨hrecords, ?_⟩
  have hstacks : (w.blocks.flatMap Block.stackRecords).filter (fun r => r.1 = .info) = [] := by
    rw [List.filter_eq_nil_iff]
    intro r hr
    obtain ⟨b, -, hr⟩ := List.mem_flatMap.1 hr
    rcases level_of_mem_stackRecords hr with h | h <;> simp [h]
  rw [hrecords, List.filter_append, hstacks]
  rfl

end Compilation

end MotorSketch
