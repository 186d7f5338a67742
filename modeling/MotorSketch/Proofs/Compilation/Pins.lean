import MotorSketch.Proofs.Compilation.Append
import MotorSketch.Proofs.Pin.Requests
import MotorSketch.Proofs.Pin.Reservations

/-!
# The pins of a compiled workspace

A report lists the reserved pins as they were reserved, and behind them the other pins of the
compiled motors.  A compilation asks of the given pins only which conflicts motors meet on them, so
reservations in another order give the same sketch and the same warnings, and the same pins in
another order.

    (ofWorkspace board pins w).value.pins.roles.entries =
      pins.roles.entries ++ the motors' pins that are not among them     (entries_pins_ofWorkspace)
    (∀ pin, m.clash? pin = n.clash? pin) →
      (run board m w).warnings = (run board n w).warnings                        (warnings_run_eq)
-/

namespace MotorSketch

/-- The pins of the motors that are compiled, in order. -/
def Workspace.motorPins (board : Board) (w : Workspace) : List String :=
  (w.visited.filter Block.configures).flatMap fun b =>
    [b.pinIn board "STEPPER_PIN1", b.pinIn board "STEPPER_PIN2"]

theorem Workspace.claims_visited (board : Board) (w : Workspace) :
    w.visited.flatMap (Block.claims board) = (w.motorPins board).map (·, .stepper) := by
  rw [motorPins, List.map_flatMap, flatMap_filter]
  simp only [← Block.pinOf_eq_pinIn]
  rfl

namespace Compilation

/-! ## Pins that are reported -/

theorem entries_pins_ofWorkspace (board : Board) (pins : PinAssignment) (w : Workspace) :
    (ofWorkspace board pins w).value.pins.roles.entries = pins.roles.entries ++
      ((earliest id (w.motorPins board)).filter (· ∉ pins.roles.keys)).map (·, .stepper) := by
  rw [value_eq_run]
  show (run board pins w).pins.roles.entries = _
  rw [roles_run, OrderedMap.entries_addAll, Workspace.claims_visited, earliest_map,
    List.filter_map]
  rfl

/-- The pins behind any requests, and those of a report.  The assignment has the claimed pins in the
order of their first claims, each with the role of its first claim for good; a claim fails on a pin
with another role, and then changes nothing; and a motor gets its second pin however the claim of
the first one ends.  A report has the given pins as they are, and then the other pins of the
compiled motors, for motors; so reserved pins have the roles that they were reserved for. -/
theorem pins_of_requests (board : Board) (w : Workspace) :
    (∀ qs : List PinRequest,
      let claims := qs.flatMap PinRequest.claims
      let m := PinAssignment.ofRequests qs
      (m.roles.entries = earliest Prod.fst claims ∧
        (∀ pin, m.role? pin = (claims.find? fun c => c.1 = pin).map Prod.snd) ∧
        m.roles.keys.Nodup ∧
        m.roles.size = (Entries.keys claims).toFinset.card ∧
        ∀ more, m.roles.entries <+: (PinAssignment.ofRequests (qs ++ more)).roles.entries) ∧
      (∀ pin role e,
        (m.claim pin role = .error e ↔
          m.role? pin = some e.existing ∧ e.existing ≠ role ∧ e.pin = pin) ∧
        (m.claim pin role = .error e →
          PinAssignment.ofRequests (qs ++ [.claim pin role]) = m)) ∧
      ∀ motor : Motor,
        PinAssignment.ofRequests (qs ++ [.attach motor]) =
          PinAssignment.ofRequests
            (qs ++ [.claim motor.pin1 .stepper, .claim motor.pin2 .stepper]) ∧
        (motor.attach m).clashes = [motor.pin1, motor.pin2].filterMap m.clash? ∧
        ∀ e, m.claim motor.pin1 .stepper = .error e →
          PinAssignment.ofRequests (qs ++ [.attach motor]) =
            PinAssignment.ofRequests (qs ++ [.claim motor.pin2 .stepper])) ∧
    let reported := fun pins => (ofWorkspace board pins w).value.pins
    (∀ pins, (reported pins).roles.entries = pins.roles.entries ++
        ((earliest id (w.motorPins board)).filter (· ∉ pins.roles.keys)).map (·, .stepper)) ∧
      ∀ rs pins, PinAssignment.empty.reserve rs = .ok pins →
        pins.roles.entries = earliest Prod.fst (rs.map Reservation.entry) ∧
          ∀ r ∈ rs, (reported pins).role? r.pin = some r.role := by
  refine ⟨?_, fun pins => entries_pins_ofWorkspace board pins w, ?_⟩
  · intro qs claims m
    refine ⟨⟨?_, ?_, ?_, ?_, ?_⟩, ?_, ?_⟩
    · exact PinAssignment.entries_ofRequests qs
    · exact PinAssignment.role?_ofRequests qs
    · exact m.roles.nodup_keys
    · exact PinAssignment.size_ofRequests qs
    · exact PinAssignment.entries_ofRequests_prefix qs
    · intro pin role e
      exact ⟨PinAssignment.claim_eq_error_iff, PinAssignment.ofRequests_claim_of_error⟩
    · intro motor
      refine ⟨PinAssignment.ofRequests_attach qs motor, motor.clashes_attach m, ?_⟩
      exact fun e he => PinAssignment.ofRequests_attach_of_error he
  · intro rs pins hreserve
    refine ⟨PinAssignment.entries_of_reserve hreserve, ?_⟩
    intro r hr
    have hrole : pins.roles.get? r.pin = some r.role :=
      (PinAssignment.role?_eq_some_iff_of_reserve hreserve).2 hr
    have hmem : (r.pin, r.role) ∈ (ofWorkspace board pins w).value.pins.roles.entries := by
      rw [entries_pins_ofWorkspace]
      exact List.mem_append_left _ (OrderedMap.mem_entries_iff.2 hrole)
    exact OrderedMap.mem_entries_iff.1 hmem

/-- A motor on a pin that a servo has below, and on a free one. -/
def blockedMotor : Motor := ⟨"arm", "3", "4", none, none⟩

theorem pins_of_requests_blocked :
    ((PinAssignment.ofRequests [.claim "3" .servo]).claim "3" .stepper = .error ⟨"3", .servo⟩ ∧
        PinAssignment.ofRequests [.claim "3" .servo, .claim "3" .stepper] =
          PinAssignment.ofRequests [.claim "3" .servo] ∧
        PinAssignment.ofRequests [.claim "3" .servo, .attach blockedMotor] =
          PinAssignment.ofRequests [.claim "3" .servo, .claim "4" .stepper]) ∧
      ∃ pins, PinAssignment.empty.reserve [⟨"3", .servo⟩] = .ok pins ∧
        (ofWorkspace .uno pins ⟨[misplacedMotor, otherMotor]⟩).value.pins.role? "3" =
          some .servo ∧
        (ofWorkspace .uno pins ⟨[misplacedMotor, otherMotor]⟩).value.pins.roles.entries =
          [("3", .servo), ("99", .stepper), ("0", .stepper)] := by
  obtain ⟨hrequests, hreported, hreserved⟩ := pins_of_requests .uno ⟨[misplacedMotor, otherMotor]⟩
  obtain ⟨-, hclaims, hmotors⟩ := hrequests [.claim "3" .servo]
  obtain ⟨hfails, hkeeps⟩ := hclaims "3" .stepper ⟨"3", .servo⟩
  have hclash := hfails.2 ⟨by decide, by decide, rfl⟩
  obtain ⟨pins, hreserve⟩ :
      ∃ pins, PinAssignment.empty.reserve [⟨"3", .servo⟩] = .ok pins := ⟨_, rfl⟩
  refine ⟨⟨hclash, hkeeps hclash, (hmotors blockedMotor).2.2 _ hclash⟩, pins, hreserve, ?_, ?_⟩
  · exact (hreserved _ pins hreserve).2 ⟨"3", .servo⟩ (by simp)
  · cases hreserve
    exact (hreported _).trans (by decide +kernel)

/-! ## Reservations in another order -/

/-- Only the conflicts that motors meet on the given pins show in the warnings. -/
theorem warnings_run_eq {m n : PinAssignment} (h : ∀ pin, m.clash? pin = n.clash? pin)
    (board : Board) (w : Workspace) :
    (run board m w).warnings = (run board n w).warnings := by
  have hstart : Behind [] (start m) (start n) := ⟨rfl, fun pin => (h pin).symm⟩
  have hrun : Behind [] (run board m w) (run board n w) :=
    hstart.addBlocks board fun _ _ => List.not_mem_nil
  exact Warnings.ext (OrderedMap.ext hrun.warnings.symm)

/-- Reservations succeed exactly if no pin is asked for in two roles, so in every order or in none;
and when they succeed, their order shows in a report only as the order of the pins. -/
theorem report_reserve_perm :
    (∀ rs : List Reservation, (∃ m, PinAssignment.empty.reserve rs = .ok m) ↔
        ∀ r ∈ rs, ∀ s ∈ rs, r.pin = s.pin → r.role = s.role) ∧
      ∀ rs ss : List Reservation, rs.Perm ss →
        (∃ m n, PinAssignment.empty.reserve rs = .ok m ∧ PinAssignment.empty.reserve ss = .ok n ∧
          ∀ board w,
            let report := fun pins => (ofWorkspace board pins w).value
            (report m).board = (report n).board ∧ (report m).parts = (report n).parts ∧
              (report m).warnings = (report n).warnings ∧
              (report m).pins.roles.entries.Perm (report n).pins.roles.entries) ∨
        ∃ e f, PinAssignment.empty.reserve rs = .error e ∧
          PinAssignment.empty.reserve ss = .error f := by
  refine ⟨PinAssignment.exists_reserve_ok_iff, ?_⟩
  intro rs ss hperm
  have hagree : (∃ m, PinAssignment.empty.reserve rs = .ok m) ↔
      ∃ n, PinAssignment.empty.reserve ss = .ok n := by
    rw [PinAssignment.exists_reserve_ok_iff, PinAssignment.exists_reserve_ok_iff]
    simp only [hperm.mem_iff]
  cases hm : PinAssignment.empty.reserve rs with
  | ok m =>
    obtain ⟨n, hn⟩ := hagree.1 ⟨m, hm⟩
    have hroles := PinAssignment.role?_eq_of_reserve_perm hm hn hperm
    have hclash : ∀ pin, m.clash? pin = n.clash? pin := fun pin => by
      rw [PinAssignment.clash?, PinAssignment.clash?, hroles]
    refine .inl ⟨m, n, rfl, hn, fun board w => ?_⟩
    simp only [value_eq_run]
    refine ⟨rfl, ?_, warnings_run_eq hclash board w, ?_⟩
    · show (run board m w).parts = (run board n w).parts
      rw [parts_run, parts_run]
    · show (run board m w).pins.roles.entries.Perm (run board n w).pins.roles.entries
      rw [roles_run, roles_run]
      exact OrderedMap.entries_addAll_perm (PinAssignment.entries_perm_of_reserve hm hn hperm) _
  | error e =>
    cases hn : PinAssignment.empty.reserve ss with
    | ok n =>
      obtain ⟨m, hm'⟩ := hagree.2 ⟨n, hn⟩
      rw [hm] at hm'
      cases hm'
    | error f => exact .inr ⟨e, f, rfl, rfl⟩

theorem report_reserve_perm_swapped :
    [(⟨"3", .servo⟩ : Reservation), ⟨"99", .i2c⟩].Perm [⟨"99", .i2c⟩, ⟨"3", .servo⟩] ∧
      ∃ m n, PinAssignment.empty.reserve [⟨"3", .servo⟩, ⟨"99", .i2c⟩] = .ok m ∧
        PinAssignment.empty.reserve [⟨"99", .i2c⟩, ⟨"3", .servo⟩] = .ok n ∧ m ≠ n ∧
        (ofWorkspace .uno m ⟨[misplacedMotor, otherMotor]⟩).value.warnings =
          (ofWorkspace .uno n ⟨[misplacedMotor, otherMotor]⟩).value.warnings := by
  have hperm : [(⟨"3", .servo⟩ : Reservation), ⟨"99", .i2c⟩].Perm [⟨"99", .i2c⟩, ⟨"3", .servo⟩] :=
    List.Perm.swap _ _ []
  refine ⟨hperm, ?_⟩
  rcases report_reserve_perm.2 _ _ hperm with ⟨m, n, hm, hn, hreport⟩ | ⟨e, f, he, -⟩
  · refine ⟨m, n, hm, hn, ?_, (hreport .uno ⟨[misplacedMotor, otherMotor]⟩).2.2.1⟩
    cases hm
    cases hn
    decide
  · cases he

end Compilation

end MotorSketch
