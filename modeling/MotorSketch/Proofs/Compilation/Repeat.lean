import MotorSketch.Proofs.Compilation.Append

/-!
# Compiling stacks again

Compiling stacks that have just been compiled changes neither the sketch nor the pins, and every
block keeps the warnings it has.  When the visited blocks have distinct ids, each of them sets its
warnings to what they are already, so not even the order of the warnings changes.

    SameClashes pins c → (∀ kind, b.raises kind → c.warnings.get? b.id kind = b.warning …) →
      (addBlock board b c).value.warnings = c.warnings                      (warnings_addBlock_again)
    (ofWorkspace board pins ⟨xs ++ xs⟩).value from that of ⟨xs⟩                  (report_append_self)
-/

namespace MotorSketch

namespace Compilation

variable {board : Board} {pins : PinAssignment} {rs : List Reservation} {xs : List Block}

/-! ## Parts and pins -/

theorem parts_run_again : (run board pins ⟨xs ++ xs⟩).parts = (run board pins ⟨xs⟩).parts := by
  rw [parts_run_append, Sketch.Parts.overlay, OrderedMap.overlay_self, OrderedMap.overlay_self,
    OrderedMap.overlay_self]

theorem pins_run_again : (run board pins ⟨xs ++ xs⟩).pins = (run board pins ⟨xs⟩).pins := by
  have hroles : (run board pins ⟨xs ++ xs⟩).pins.roles = (run board pins ⟨xs⟩).pins.roles := by
    rw [roles_run, roles_run, Workspace.visited_append, List.flatMap_append,
      OrderedMap.addAll_append]
    apply OrderedMap.addAll_eq_self
    intro e he
    exact OrderedMap.mem_keys_addAll.2 (.inr (List.mem_map_of_mem he))
  exact congrArg PinAssignment.mk hroles

/-! ## Warnings -/

theorem get?_warnings_run_again (id : String) (kind : WarningKind) :
    (run board pins ⟨xs ++ xs⟩).warnings.get? id kind =
      (run board pins ⟨xs⟩).warnings.get? id kind := by
  obtain ⟨rs, hr⟩ := pins.exists_reserve
  rw [get?_warnings_run hr, get?_warnings_run hr, Workspace.visited_append, List.filter_append,
    List.getLast?_append, Option.or_self]

/-- A block whose warnings are set already sets nothing. -/
theorem warnings_addBlock_again (hr : PinAssignment.empty.reserve rs = .ok pins)
    {c : Compilation} (hc : SameClashes pins c) {b : Block}
    (hb : ∀ kind, b.raises kind → c.warnings.get? b.id kind = b.warning board rs kind) :
    (addBlock board b c).value.warnings = c.warnings := by
  rcases b.configures_or_steps_or_neither with hconf | hs | ⟨hconf, hs⟩
  · have hname := Warnings.set_eq_self (hb .instanceName hconf)
    have hinvalid := Warnings.set_eq_self (hb .invalidPin hconf)
    have hclash := Warnings.set_eq_self (hb .pinConflict hconf)
    rw [value_addBlock_motor hconf, warning_attach hr hc, Block.nameWarning_eq_warning board rs,
      Block.invalidPinWarning_eq_warning board rs, hname, hinvalid, hclash]
  · have hmissing := Warnings.set_eq_self (hb .missingConfiguration hs)
    rw [value_addBlock_step hs, Block.stepWarning_eq_warning board rs]
    exact hmissing
  · rw [value_addBlock_other hconf hs]

theorem warnings_addBlocks_again (hr : PinAssignment.empty.reserve rs = .ok pins)
    {c : Compilation} (hc : SameClashes pins c) {bs : List Block}
    (hbs : ∀ b ∈ bs, ∀ kind, b.raises kind →
      c.warnings.get? b.id kind = b.warning board rs kind) :
    (c.addBlocks board bs).warnings = c.warnings := by
  induction bs generalizing c with
  | nil => rfl
  | cons b bs ih =>
    have hb := warnings_addBlock_again hr hc (hbs b (by simp))
    have hrest := ih (sameClashes_addBlock hc board b) fun x hx kind hk => by
      rw [hb]
      exact hbs x (by simp [hx]) kind hk
    exact hrest.trans hb

theorem warnings_run_again (hids : ((Workspace.visited ⟨xs⟩).map Block.id).Nodup) :
    (run board pins ⟨xs ++ xs⟩).warnings = (run board pins ⟨xs⟩).warnings := by
  obtain ⟨rs, hr⟩ := pins.exists_reserve
  rw [run_append]
  apply warnings_addBlocks_again hr (sameClashes_run board pins ⟨xs⟩)
  intro b hb kind hk
  rw [get?_warnings_run hr, filter_id_of_nodup hids hb, if_pos hk]
  rfl

/-! ## Reports -/

/-- Compiling all stacks a second time gives the same sketch and pins, and every warning again; if
the visited blocks have distinct ids, the report is the same in all. -/
theorem report_append_self (board : Board) (pins : PinAssignment) (xs : List Block) :
    let report := fun bs => (ofWorkspace board pins ⟨bs⟩).value
    (report (xs ++ xs)).parts = (report xs).parts ∧
      (report (xs ++ xs)).sketch = (report xs).sketch ∧
      (report (xs ++ xs)).pins = (report xs).pins ∧
      (∀ id kind, (report (xs ++ xs)).warnings.get? id kind =
        (report xs).warnings.get? id kind) ∧
      (((Workspace.visited ⟨xs⟩).map Block.id).Nodup →
        report (xs ++ xs) = report xs ∧ (report (xs ++ xs)).json = (report xs).json) := by
  simp only [value_eq_run]
  refine ⟨parts_run_again, ?_, pins_run_again, get?_warnings_run_again, ?_⟩
  · exact congrArg Sketch.write parts_run_again
  · intro hids
    have hreport : (run board pins ⟨xs ++ xs⟩).report board =
        (run board pins ⟨xs⟩).report board := by
      rw [report, report, parts_run_again, pins_run_again, warnings_run_again hids]
    exact ⟨hreport, congrArg Report.json hreport⟩

theorem report_append_self_motors :
    let pins : PinAssignment := ⟨.ofList [("3", .servo)]⟩
    ((Workspace.visited ⟨[misplacedMotor, otherMotor]⟩).map Block.id).Nodup ∧
      (ofWorkspace .uno pins
          ⟨[misplacedMotor, otherMotor] ++ [misplacedMotor, otherMotor]⟩).value.warnings.blocks =
        ["m", "n"] := by
  intro pins
  have hids : ((Workspace.visited ⟨[misplacedMotor, otherMotor]⟩).map Block.id).Nodup := by decide
  obtain ⟨-, -, -, -, hreport⟩ := report_append_self .uno pins [misplacedMotor, otherMotor]
  have hblocks := congrArg (fun r : Report => r.warnings.blocks) (hreport hids).1
  exact ⟨hids, hblocks.trans (by decide +kernel)⟩

end Compilation

end MotorSketch
