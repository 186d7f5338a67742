import MotorSketch.Proofs.Compilation.Parts
import MotorSketch.Proofs.Compilation.Warnings
import MotorSketch.Proofs.OrderedMap.Overlay
import MotorSketch.Proofs.Warnings

/-!
# Stacks side by side

Compiling two lists of stacks one after the other puts together what each of them gives on its own:
the second sketch is written over the first, the pins that the second adds follow, and so do its
warnings when no block of it has the id of one in the first.  The second list is compiled behind
what the first has left: other pins are claimed and other warnings are set, but the conflicts that
its motors meet are the same (`Behind`).

    (run board pins w).pins.roles = pins.roles.addAll (w.visited.flatMap (Block.claims board))
                                                                                     (roles_run)
    Behind front c d → b.id ∉ Entries.keys front →
      Behind front (addBlock board b c).value (addBlock board b d).value        (Behind.addBlock)
    (ofWorkspace board pins ⟨xs ++ ys⟩).value from those of ⟨xs⟩ and ⟨ys⟩            (report_append)
-/

namespace MotorSketch

/-- What the block asks of the pins. -/
def Block.claims (board : Board) (b : Block) : List (String × PinRole) :=
  if b.configures then
    [(board.pinOf b "STEPPER_PIN1", .stepper), (board.pinOf b "STEPPER_PIN2", .stepper)]
  else []

theorem Workspace.visited_append (xs ys : List Block) :
    visited ⟨xs ++ ys⟩ = visited ⟨xs⟩ ++ visited ⟨ys⟩ :=
  List.flatMap_append

namespace Compilation

/-- The compilation after further blocks. -/
def addBlocks (board : Board) (c : Compilation) (bs : List Block) : Compilation :=
  bs.foldl (fun c b => (addBlock board b c).value) c

theorem run_append (board : Board) (pins : PinAssignment) (xs ys : List Block) :
    run board pins ⟨xs ++ ys⟩ = (run board pins ⟨xs⟩).addBlocks board (Workspace.visited ⟨ys⟩) := by
  rw [run, Workspace.visited_append, List.foldl_append]
  rfl

/-! ## Parts -/

theorem parts_run_append (board : Board) (pins : PinAssignment) (xs ys : List Block) :
    (run board pins ⟨xs ++ ys⟩).parts =
      (run board pins ⟨xs⟩).parts.overlay (run board pins ⟨ys⟩).parts := by
  rw [parts_run, parts_run, parts_run, Workspace.visited_append, Sketch.Parts.overlay,
    List.filter_append, List.filter_append, List.flatMap_append, List.map_append, List.map_append,
    OrderedMap.ofList_append, OrderedMap.ofList_append, OrderedMap.ofList_append]

/-! ## Pins -/

theorem roles_addBlock (board : Board) (b : Block) (c : Compilation) :
    (addBlock board b c).value.pins.roles = c.pins.roles.addAll (b.claims board) := by
  rcases b.configures_or_steps_or_neither with hc | hs | ⟨hc, hs⟩
  · rw [value_addBlock_motor hc, Motor.roles_attach, Block.claims, if_pos hc]
    rfl
  · have hc := Block.configures_eq_false_of_steps hs
    rw [value_addBlock_step hs, Block.claims, hc]
    rfl
  · rw [value_addBlock_other hc hs, Block.claims, hc]
    rfl

/-- Pins that are claimed already keep their roles; the free ones follow in the order of the blocks,
all for motors. -/
theorem roles_run (board : Board) (pins : PinAssignment) (w : Workspace) :
    (run board pins w).pins.roles = pins.roles.addAll (w.visited.flatMap (Block.claims board)) :=
  foldl_writes (fun c : Compilation => c.pins.roles) _ (fun c b => roles_addBlock board b c)
    w.visited (start pins)

theorem roles_run_append (board : Board) (pins : PinAssignment) (xs ys : List Block) :
    (run board pins ⟨xs ++ ys⟩).pins.roles.entries =
      (run board pins ⟨xs⟩).pins.roles.entries ++
        (run board pins ⟨ys⟩).pins.roles.entries.filter
          fun e => e.1 ∉ (run board pins ⟨xs⟩).pins.roles.keys := by
  rw [roles_run, roles_run, roles_run, Workspace.visited_append, List.flatMap_append,
    OrderedMap.addAll_append]
  exact OrderedMap.entries_addAll_addAll _ _ _

theorem sameClashes_addBlocks {pins : PinAssignment} {c : Compilation} (h : SameClashes pins c)
    (board : Board) (bs : List Block) : SameClashes pins (c.addBlocks board bs) := by
  induction bs generalizing c with
  | nil => exact h
  | cons b bs ih => exact ih (sameClashes_addBlock h board b)

theorem sameClashes_run (board : Board) (pins : PinAssignment) (w : Workspace) :
    SameClashes pins (run board pins w) :=
  sameClashes_addBlocks (fun _ => rfl) board w.visited

/-- A pin that both lists of stacks end up with has one role. -/
theorem role_eq_of_runs {board : Board} {pins : PinAssignment} {v w : Workspace} {pin : String}
    {r s : PinRole} (hv : (run board pins v).pins.role? pin = some r)
    (hw : (run board pins w).pins.role? pin = some s) : r = s := by
  have hclash : (run board pins v).pins.clash? pin = (run board pins w).pins.clash? pin := by
    rw [sameClashes_run board pins v pin, sameClashes_run board pins w pin]
  exact PinAssignment.role_eq_of_clash?_eq hclash hv hw

/-! ## Warnings -/

/-- The second compilation meets the same conflicts as the first and has the same warnings, behind
those of `front`. -/
structure Behind (front : List (String × BlockWarnings)) (c d : Compilation) : Prop where
  warnings : d.warnings.byBlock.entries = front ++ c.warnings.byBlock.entries
  clashes : ∀ p, d.pins.clash? p = c.pins.clash? p

theorem Behind.warning_attach {front : List (String × BlockWarnings)} {c d : Compilation}
    (h : Behind front c d) (m : Motor) : (m.attach d.pins).warning = (m.attach c.pins).warning := by
  have hclash : d.pins.clash? = c.pins.clash? := funext h.clashes
  rw [Motor.Attachment.warning, Motor.Attachment.warning, Motor.clashes_attach,
    Motor.clashes_attach, hclash]

theorem Behind.addBlock {front : List (String × BlockWarnings)} {c d : Compilation}
    (h : Behind front c d) (board : Board) {b : Block} (hb : b.id ∉ Entries.keys front) :
    Behind front (addBlock board b c).value (addBlock board b d).value := by
  constructor
  · rcases b.configures_or_steps_or_neither with hc | hs | ⟨hc, hs⟩
    · rw [value_addBlock_motor hc, value_addBlock_motor hc, h.warning_attach]
      have hname := Warnings.entries_set_append h.warnings hb .instanceName b.nameWarning
      have hpins := Warnings.entries_set_append hname hb .invalidPin
        (board.invalidPinWarning [board.pinOf b "STEPPER_PIN1", board.pinOf b "STEPPER_PIN2"])
      exact Warnings.entries_set_append hpins hb .pinConflict _
    · rw [value_addBlock_step hs, value_addBlock_step hs]
      exact Warnings.entries_set_append h.warnings hb .missingConfiguration _
    · rw [value_addBlock_other hc hs, value_addBlock_other hc hs]
      exact h.warnings
  · intro p
    have hd : SameClashes c.pins d := h.clashes
    have hc : SameClashes c.pins c := fun _ => rfl
    rw [sameClashes_addBlock hd board b p, sameClashes_addBlock hc board b p]

theorem Behind.addBlocks {front : List (String × BlockWarnings)} {c d : Compilation}
    (h : Behind front c d) (board : Board) {bs : List Block}
    (hbs : ∀ b ∈ bs, b.id ∉ Entries.keys front) :
    Behind front (c.addBlocks board bs) (d.addBlocks board bs) := by
  induction bs generalizing c d with
  | nil => exact h
  | cons b bs ih =>
    have hb : b.id ∉ Entries.keys front := hbs b (by simp)
    exact ih (h.addBlock board hb) fun x hx => hbs x (by simp [hx])

theorem ofBlock_addBlock {board : Board} {b : Block} {id : String} (h : id ≠ b.id)
    (c : Compilation) :
    (addBlock board b c).value.warnings.ofBlock id = c.warnings.ofBlock id := by
  rcases b.configures_or_steps_or_neither with hc | hs | ⟨hc, hs⟩
  · rw [value_addBlock_motor hc]
    simp only [Warnings.ofBlock_set, if_neg h]
  · rw [value_addBlock_step hs]
    simp only [Warnings.ofBlock_set, if_neg h]
  · rw [value_addBlock_other hc hs]

/-- Only visited blocks have warnings. -/
theorem exists_visited_of_mem_blocks {board : Board} {pins : PinAssignment} {w : Workspace}
    {id : String} (h : id ∈ (run board pins w).warnings.blocks) : ∃ b ∈ w.visited, b.id = id := by
  have hstep : ∀ (bs : List Block) (c : Compilation), (∀ b ∈ bs, b.id ≠ id) →
      (c.addBlocks board bs).warnings.ofBlock id = c.warnings.ofBlock id := by
    intro bs
    induction bs with
    | nil => exact fun _ _ => rfl
    | cons b bs ih =>
      intro c hbs
      have hrest := ih (Compilation.addBlock board b c).value fun x hx => hbs x (by simp [hx])
      exact hrest.trans (ofBlock_addBlock (hbs b (by simp)).symm c)
  by_contra hnone
  have hother : ∀ b ∈ w.visited, b.id ≠ id := fun b hb he => hnone ⟨b, hb, he⟩
  exact Warnings.mem_blocks_iff.1 h (hstep w.visited (start pins) hother)

theorem warnings_run_append {board : Board} {pins : PinAssignment} {xs ys : List Block}
    (h : ∀ x ∈ Workspace.visited ⟨xs⟩, ∀ y ∈ Workspace.visited ⟨ys⟩, x.id ≠ y.id) :
    (run board pins ⟨xs ++ ys⟩).warnings.byBlock.entries =
      (run board pins ⟨xs⟩).warnings.byBlock.entries ++
        (run board pins ⟨ys⟩).warnings.byBlock.entries := by
  have hstart : Behind (run board pins ⟨xs⟩).warnings.byBlock.entries (start pins)
      (run board pins ⟨xs⟩) := by
    constructor
    · exact (List.append_nil _).symm
    · exact sameClashes_run board pins ⟨xs⟩
  have hids : ∀ y ∈ Workspace.visited ⟨ys⟩,
      y.id ∉ Entries.keys (run board pins ⟨xs⟩).warnings.byBlock.entries := by
    intro y hy hmem
    obtain ⟨x, hx, he⟩ := exists_visited_of_mem_blocks hmem
    exact h x hx y hy he
  rw [run_append]
  exact (hstart.addBlocks board hids).warnings

/-! ## Reports -/

/-- What two lists of stacks give together: the parts of the second over those of the first, the
pins of the first and then those that only the second has, no pin having two roles, and the
warnings of the first and then of the second if their visited blocks have no id in common. -/
theorem report_append (board : Board) (pins : PinAssignment) (xs ys : List Block) :
    let report := fun bs => (ofWorkspace board pins ⟨bs⟩).value
    (report (xs ++ ys)).parts = (report xs).parts.overlay (report ys).parts ∧
      (report (xs ++ ys)).pins.roles.entries = (report xs).pins.roles.entries ++
        (report ys).pins.roles.entries.filter (fun e => e.1 ∉ (report xs).pins.roles.keys) ∧
      (∀ pin r s, (report xs).pins.role? pin = some r → (report ys).pins.role? pin = some s →
        r = s) ∧
      ((∀ x ∈ Workspace.visited ⟨xs⟩, ∀ y ∈ Workspace.visited ⟨ys⟩, x.id ≠ y.id) →
        (report (xs ++ ys)).warnings.byBlock.entries =
          (report xs).warnings.byBlock.entries ++ (report ys).warnings.byBlock.entries) := by
  simp only [value_eq_run]
  refine ⟨?_, ?_, ?_, ?_⟩
  · exact parts_run_append board pins xs ys
  · exact roles_run_append board pins xs ys
  · intro pin r s hr hs
    exact role_eq_of_runs hr hs
  · intro h
    exact warnings_run_append h

theorem report_append_motors :
    let pins : PinAssignment := ⟨.ofList [("3", .servo)]⟩
    (∀ x ∈ Workspace.visited ⟨[misplacedMotor]⟩, ∀ y ∈ Workspace.visited ⟨[otherMotor]⟩,
        x.id ≠ y.id) ∧
      (ofWorkspace .uno pins ⟨[misplacedMotor] ++ [otherMotor]⟩).value.warnings.blocks =
        ["m", "n"] := by
  intro pins
  have hids : ∀ x ∈ Workspace.visited ⟨[misplacedMotor]⟩,
      ∀ y ∈ Workspace.visited ⟨[otherMotor]⟩, x.id ≠ y.id := by
    decide
  obtain ⟨-, -, -, hwarnings⟩ := report_append .uno pins [misplacedMotor] [otherMotor]
  have hblocks := congrArg Entries.keys (hwarnings hids)
  exact ⟨hids, hblocks.trans (by decide +kernel)⟩

end Compilation

end MotorSketch
