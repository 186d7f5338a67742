import MotorSketch.Proofs.Compilation.Step
import MotorSketch.Proofs.OrderedMap
import MotorSketch.Proofs.Pin.Claims

/-!
# The warnings of a compiled workspace

A warning is known from its block, the board and the reservations.  The invariant behind it: the
motors of a run claim pins for motors only, so every block meets the conflicts that the
reservations alone would have given it.

    (c.warnings after b).get? id kind = if b is id and raises kind then b.warning … else as before
                                                                         (get?_warnings_addBlock)
    (ofWorkspace board pins w).value.warnings.get? id kind =
      the warning of the last visited block that is id and raises kind   (get?_warnings_ofWorkspace)
-/

namespace MotorSketch

namespace Block

/-! ## The warnings of a block -/

/-- The block is of the kind that sets or clears warnings of this kind. -/
def raises (b : Block) : WarningKind → Bool
  | .instanceName => b.configures
  | .invalidPin => b.configures
  | .pinConflict => b.configures
  | .missingConfiguration => b.steps

/-- Two messages with a blank between them, or the only one that there is. -/
def together : Option String → Option String → Option String
  | some first, some second => some (first ++ " " ++ second)
  | some first, none => some first
  | none, second => second

def invalidPinMessage (board : Board) (pin : String) : Option String :=
  if pin ∈ board.pins then none
  else some ("Pin " ++ pin ++ " is not a digital pin of the " ++ board.displayName ++ ".")

/-- A pin that is reserved for a motor is no conflict. -/
def conflictMessage (rs : List Reservation) (pin : String) : Option String :=
  match reservedRole? rs pin with
  | none => none
  | some role =>
    if role = .stepper then none else some ("Pin " ++ pin ++ " already used as " ++ role.tag ++ ".")

/-- The warning of a block when the pins are reserved as given. -/
def warning (board : Board) (rs : List Reservation) (b : Block) : WarningKind → Option String
  | .instanceName => if (b.input? "STEPPER_NAME").isNone then some missingNameText else none
  | .invalidPin =>
    together (invalidPinMessage board (b.pinIn board "STEPPER_PIN1"))
      (invalidPinMessage board (b.pinIn board "STEPPER_PIN2"))
  | .pinConflict =>
    together (conflictMessage rs (b.pinIn board "STEPPER_PIN1"))
      (conflictMessage rs (b.pinIn board "STEPPER_PIN2"))
  | .missingConfiguration => if b.namesMotor then none else some missingConfigurationText

/-! ## Lemmas -/

theorem nameWarning_eq_warning (board : Board) (rs : List Reservation) (b : Block) :
    b.nameWarning = b.warning board rs .instanceName := by
  rw [nameWarning, warning]
  cases b.input? "STEPPER_NAME" <;> rfl

theorem stepWarning_eq_warning (board : Board) (rs : List Reservation) (b : Block) :
    Motor.stepWarning b.motorName = b.warning board rs .missingConfiguration := by
  rw [Motor.stepWarning, warning]
  cases hn : b.namesMotor with
  | false => rw [if_pos (motorName_eq_unnamed_iff.2 hn), if_neg (by simp)]
  | true =>
    rw [if_pos rfl, if_neg]
    rw [motorName_eq_unnamed_iff, hn]
    simp

theorem joinMessages_pair (message : String → Option String) (p q : String) :
    joinMessages ([p, q].filterMap message) = together (message p) (message q) := by
  have hpair : [p, q].filterMap message = (message p).toList ++ (message q).toList := by
    cases hp : message p <;> cases hq : message q <;> simp [hp, hq]
  rw [hpair]
  cases message p <;> cases message q <;> rfl

theorem invalidPinWarning_pair (board : Board) (p q : String) :
    board.invalidPinWarning [p, q] =
      together (invalidPinMessage board p) (invalidPinMessage board q) := by
  have hmessage : invalidPinMessage board =
      fun pin => if board.hasPin pin then none else some (board.invalidPinText pin) := by
    funext pin
    simp only [invalidPinMessage, Board.hasPin_iff, Board.invalidPinText]
  rw [← joinMessages_pair, Board.invalidPinWarning, hmessage]
  cases hp : board.hasPin p <;> cases hq : board.hasPin q <;> simp [hp, hq]

theorem invalidPinWarning_eq_warning (board : Board) (rs : List Reservation) (b : Block) :
    board.invalidPinWarning [board.pinOf b "STEPPER_PIN1", board.pinOf b "STEPPER_PIN2"] =
      b.warning board rs .invalidPin := by
  rw [invalidPinWarning_pair, pinOf_eq_pinIn, pinOf_eq_pinIn, warning]

end Block

namespace Compilation

/-! ## Steps and runs -/

/-- The conflicts that motors meet on each pin are those of the given pins. -/
def SameClashes (pins : PinAssignment) (c : Compilation) : Prop :=
  ∀ p, c.pins.clash? p = pins.clash? p

theorem sameClashes_addBlock {pins : PinAssignment} {c : Compilation} (h : SameClashes pins c)
    (board : Board) (b : Block) : SameClashes pins (addBlock board b c).value := by
  intro p
  rcases b.configures_or_steps_or_neither with hc | hs | ⟨hc, hs⟩
  · rw [value_addBlock_motor hc, Motor.clash?_attach]
    exact h p
  · rw [value_addBlock_step hs]
    exact h p
  · rw [value_addBlock_other hc hs]
    exact h p

theorem warning_attach {pins : PinAssignment} {rs : List Reservation}
    (hr : PinAssignment.empty.reserve rs = .ok pins) {c : Compilation} (h : SameClashes pins c)
    (board : Board) (b : Block) :
    ((b.configuredMotor board).attach c.pins).warning = b.warning board rs .pinConflict := by
  have hmessage : ∀ p, (c.pins.clash? p).map PinClash.message = Block.conflictMessage rs p := by
    intro p
    rw [h p, PinAssignment.clash?, PinAssignment.role?_of_reserve hr, Block.conflictMessage]
    cases reservedRole? rs p with
    | none => rfl
    | some role => by_cases hs : role = .stepper <;> simp [hs, PinClash.message]
  rw [Motor.Attachment.warning, Motor.clashes_attach, List.map_filterMap, Block.joinMessages_pair,
    hmessage, hmessage, Block.warning, ← Block.pinOf_eq_pinIn, ← Block.pinOf_eq_pinIn]
  rfl

theorem get?_warnings_addBlock {pins : PinAssignment} {rs : List Reservation}
    (hr : PinAssignment.empty.reserve rs = .ok pins) {c : Compilation} (h : SameClashes pins c)
    (board : Board) (b : Block) (id : String) (kind : WarningKind) :
    (addBlock board b c).value.warnings.get? id kind =
      if b.id == id && b.raises kind then b.warning board rs kind
      else c.warnings.get? id kind := by
  rcases b.configures_or_steps_or_neither with hc | hs | ⟨hc, hs⟩
  · have hs := Block.steps_eq_false_of_configures hc
    rw [value_addBlock_motor hc, warning_attach hr h, Block.nameWarning_eq_warning board rs,
      Block.invalidPinWarning_eq_warning board rs]
    by_cases hid : b.id = id
    · cases kind <;> simp [Warnings.get?_set, hid, Block.raises, hc, hs]
    · simp [Warnings.get?_set, hid, Ne.symm hid]
  · have hc := Block.configures_eq_false_of_steps hs
    rw [value_addBlock_step hs, Block.stepWarning_eq_warning board rs]
    by_cases hid : b.id = id
    · cases kind <;> simp [Warnings.get?_set, hid, Block.raises, hc, hs]
    · simp [Warnings.get?_set, hid, Ne.symm hid]
  · rw [value_addBlock_other hc hs]
    have hk : b.raises kind = false := by cases kind <;> assumption
    simp [hk]

theorem get?_warnings_run {pins : PinAssignment} {rs : List Reservation}
    (hr : PinAssignment.empty.reserve rs = .ok pins) (board : Board) (w : Workspace) (id : String)
    (kind : WarningKind) :
    (run board pins w).warnings.get? id kind =
      (w.visited.filter fun b => b.id == id && b.raises kind).getLast?.bind
        fun b => b.warning board rs kind := by
  rw [run, foldl_overwrite (SameClashes pins) (fun c => c.warnings.get? id kind)
    (fun c b hc => sameClashes_addBlock hc board b)
    (fun c b hc => get?_warnings_addBlock hr hc board b id kind) w.visited _ fun _ => rfl]
  cases (w.visited.filter fun b => b.id == id && b.raises kind).getLast? <;> rfl

/-- Among blocks with distinct ids a block is the only one with its id. -/
theorem filter_id_of_nodup {bs : List Block} (h : (bs.map Block.id).Nodup) {b : Block}
    (hb : b ∈ bs) (p : Block → Bool) :
    (bs.filter fun x => x.id == b.id && p x) = if p b then [b] else [] := by
  induction bs with
  | nil => cases hb
  | cons x bs ih =>
    rw [List.map_cons, List.nodup_cons] at h
    rcases List.mem_cons.1 hb with rfl | hb
    · have hrest : (bs.filter fun x => x.id == b.id && p x) = [] := by
        rw [List.filter_eq_nil_iff]
        intro y hy hyb
        simp only [Bool.and_eq_true, beq_iff_eq] at hyb
        exact h.1 (List.mem_map.2 ⟨y, hy, hyb.1⟩)
      rw [List.filter_cons, hrest]
      simp
    · have hx : x.id ≠ b.id := fun e => h.1 (List.mem_map.2 ⟨b, hb, e.symm⟩)
      rw [List.filter_cons_of_neg (by simp [hx]), ih h.2 hb]

/-- The warnings of a compiled workspace from its visited blocks.  When their ids are distinct, a
block has the warnings that it has in every other workspace in which it is visited. -/
theorem get?_warnings_ofWorkspace {pins : PinAssignment} {rs : List Reservation}
    (hr : PinAssignment.empty.reserve rs = .ok pins) (board : Board) (w : Workspace) :
    let warnings := fun w => (ofWorkspace board pins w).value.warnings
    (∀ id kind, (warnings w).get? id kind =
        (w.visited.filter fun b => b.id == id && b.raises kind).getLast?.bind
          fun b => b.warning board rs kind) ∧
      ∀ w' : Workspace, (w.visited.map Block.id).Nodup → (w'.visited.map Block.id).Nodup →
        ∀ b ∈ w.visited, b ∈ w'.visited → ∀ kind,
          (warnings w).get? b.id kind = (warnings w').get? b.id kind := by
  have hrun : ∀ w, (ofWorkspace board pins w).value.warnings = (run board pins w).warnings := by
    intro w
    rw [value_eq_run]
    rfl
  simp only [hrun]
  refine ⟨get?_warnings_run hr board w, ?_⟩
  intro w' hw hw' b hb hb' kind
  rw [get?_warnings_run hr, get?_warnings_run hr, filter_id_of_nodup hw hb,
    filter_id_of_nodup hw' hb']

/-- A motor without a name, on a pin that is reserved below and one that no board has. -/
def misplacedMotor : Block :=
  ⟨"m", "stepper_configure", .ofList [("STEPPER_PIN1", "3"), ("STEPPER_PIN2", "99")], [], none,
    false⟩

/-- A motor that claims the first pin of the board. -/
def otherMotor : Block := .fresh "n" "stepper_configure"

theorem get?_warnings_misplacedMotor :
    ∃ pins, PinAssignment.empty.reserve [⟨"3", .servo⟩] = .ok pins ∧
      (ofWorkspace .uno pins ⟨[misplacedMotor, otherMotor]⟩).value.warnings.get? "m" .pinConflict =
        some "Pin 3 already used as SERVO." ∧
      (ofWorkspace .uno pins ⟨[misplacedMotor, otherMotor]⟩).value.warnings.get? "m" .invalidPin =
        (ofWorkspace .uno pins ⟨[otherMotor, misplacedMotor]⟩).value.warnings.get? "m"
          .invalidPin := by
  obtain ⟨pins, hr⟩ : ∃ pins, PinAssignment.empty.reserve [⟨"3", .servo⟩] = .ok pins := ⟨_, rfl⟩
  obtain ⟨hget, hmoved⟩ := get?_warnings_ofWorkspace hr .uno ⟨[misplacedMotor, otherMotor]⟩
  refine ⟨pins, hr, ?_, ?_⟩
  · exact (hget "m" .pinConflict).trans (by decide +kernel)
  · exact hmoved _ (by decide) (by decide) misplacedMotor (by decide) (by decide) .invalidPin

end Compilation

end MotorSketch
