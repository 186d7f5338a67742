import Mathlib.Order.WellFounded
import MotorSketch.CommandLine.Program
import MotorSketch.Proofs.Pin.Reservations

/-!
# Outcomes of runs

A run fails if one of its checks fails, with the failure of the first one that does, and then leaves
nothing on the output stream or in a file.  Otherwise it has one text, which does not depend on
where it goes.  Nothing that is seen of a run but its log depends on the log setting.

    (run o contents writable).value = conclude o writable (prepare o contents)         (value_run)
    prepare o contents = .ok text → Writes o contents text                    (writes_of_prepare)
    outcome.failure = some why ↔ why is the failure of the first check that fails   (failure_run)
    prepare o contents does not depend on reservations and board, if motors are listed
                                                                         (prepare_listInstances)
-/

namespace MotorSketch.CommandLine

/-! ## Checks -/

/-- A board has the name, in any ASCII casing. -/
def KnownBoard (name : String) : Prop :=
  ∃ b ∈ Board.all, b.name.map Char.toLower = name.map Char.toLower

/-- What a check finds wrong, whatever the other checks find. -/
inductive Fails (o : Options) (contents : Option ByteArray) (writable : Bool) : Failure → Prop
  | board : ¬KnownBoard o.board → Fails o contents writable (.unknownBoard o.board)
  /-- The workspace file is not there or holds no text. -/
  | unreadable : (∀ s : String, contents ≠ some s.toUTF8) →
      Fails o contents writable (.load (.unreadable o.workspace))
  | unsound {s : String} {why : ReadError} :
      contents = some s.toUTF8 → Workspace.parse s = .error why →
        Fails o contents writable (.load (.unsound o.workspace why))
  /-- The first reservation of a pin that was reserved in another role. -/
  | reservation {before after : List Reservation} {r : Reservation} {existing : PinRole} :
      o.listInstances = false → o.reservations = before ++ r :: after →
        (∀ s ∈ before, ∀ t ∈ before, s.pin = t.pin → s.role = t.role) →
          ⟨r.pin, existing⟩ ∈ before → existing ≠ r.role →
            Fails o contents writable (.reservation r ⟨r.pin, existing⟩)
  | output {path : String} :
      o.output = some path → writable = false → Fails o contents writable (.save ⟨path⟩)

/-- The place of the check in the order of the checks. -/
def Failure.stage : Failure → Nat
  | unknownBoard _ => 0
  | load _ => 1
  | reservation _ _ => 2
  | save _ => 3

/-- No check in front of this one fails. -/
def FirstFailure (o : Options) (contents : Option ByteArray) (writable : Bool) (why : Failure) :
    Prop :=
  Fails o contents writable why ∧ ∀ other, Fails o contents writable other → why.stage ≤ other.stage

/-- The text that a run writes, if it writes one: the labels of the motors that can be chosen, each
on a line, or else the sketch of the compiled workspace, or either of them as JSON. -/
inductive Writes (o : Options) (contents : Option ByteArray) : String → Prop
  | motors {s : String} {w : Workspace} :
      contents = some s.toUTF8 → Workspace.parse s = .ok w → o.listInstances = true →
        Writes o contents
          (match o.format with
          | .json => (choicesToJson w.instanceChoices.value).pretty
          | .sketch => String.join (w.instanceChoices.value.map fun c => c.label ++ "\n"))
  | compiled {s : String} {w : Workspace} {board : Board} {pins : PinAssignment} :
      contents = some s.toUTF8 → Workspace.parse s = .ok w → o.listInstances = false →
        board ∈ Board.all → board.name.map Char.toLower = o.board.map Char.toLower →
          PinAssignment.empty.reserve o.reservations = .ok pins →
            Writes o contents
              (match o.format with
              | .json => (Compilation.ofWorkspace board pins w).value.json
              | .sketch => (Compilation.ofWorkspace board pins w).value.sketch)

variable {o : Options} {contents : Option ByteArray} {writable : Bool}

theorem knownBoard_iff {name : String} : KnownBoard name ↔ ∃ b, Board.find? name = some b := by
  rw [← Option.isSome_iff_exists]
  simp [KnownBoard, Board.find?]

theorem fails_unknownBoard_iff {name : String} :
    Fails o contents writable (.unknownBoard name) ↔
      name = o.board ∧ Board.find? o.board = none := by
  rw [Option.eq_none_iff_forall_ne_some, ← not_exists, ← knownBoard_iff]
  constructor
  · intro h
    cases h with
    | board h => exact ⟨rfl, h⟩
  · rintro ⟨rfl, h⟩
    exact .board h

theorem fails_load_iff {why : LoadError} :
    Fails o contents writable (.load why) ↔ Workspace.load o.workspace contents = .error why := by
  rw [Workspace.load_eq_error_iff]
  constructor
  · intro h
    cases h with
    | unreadable h => exact .inl ⟨h, rfl⟩
    | unsound hs hw => exact .inr ⟨_, _, hs, hw, rfl⟩
  · rintro (⟨h, rfl⟩ | ⟨s, why, hs, hw, rfl⟩)
    · exact .unreadable h
    · exact .unsound hs hw

theorem fails_reservation_iff {r : Reservation} {e : PinClash} :
    Fails o contents writable (.reservation r e) ↔
      o.listInstances = false ∧ PinAssignment.empty.reserve o.reservations = .error (r, e) := by
  rw [PinAssignment.reserve_eq_error_iff]
  constructor
  · intro h
    cases h with
    | reservation hl hsplit hagree htaken hother =>
      exact ⟨hl, _, _, hsplit, hagree, htaken, hother, rfl⟩
  · obtain ⟨pin, existing⟩ := e
    rintro ⟨hl, before, after, hsplit, hagree, htaken, hother, rfl⟩
    exact .reservation hl hsplit hagree htaken hother

theorem fails_save_iff {e : SaveError} :
    Fails o contents writable (.save e) ↔ o.output = some e.path ∧ writable = false := by
  constructor
  · intro h
    cases h with
    | output hpath hw => exact ⟨hpath, hw⟩
  · rintro ⟨hpath, hw⟩
    exact .output hpath hw

/-! ## Texts -/

/-- The text of a run, wherever it goes. -/
def prepare (o : Options) (contents : Option ByteArray) : Except Failure String :=
  match Board.find? o.board with
  | none => .error (.unknownBoard o.board)
  | some board =>
    match Workspace.load o.workspace contents with
    | .error why => .error (.load why)
    | .ok w => (compose o board w).value

/-- A text that is there is delivered. -/
def conclude (output : Option String) (writable : Bool) : Except Failure String → Outcome
  | .error why => .failed why
  | .ok text => deliver output writable text

theorem value_run (o : Options) (contents : Option ByteArray) (writable : Bool) :
    (run o contents writable).value = conclude o.output writable (prepare o contents) := by
  unfold run prepare
  cases Board.find? o.board with
  | none => rfl
  | some board =>
    cases Workspace.load o.workspace contents with
    | error why => rfl
    | ok w =>
      simp only [Logged.value_bind]
      cases (compose o board w).value <;> rfl

/-- The text is that of the motors or that of the report. -/
theorem prepare_eq {board : Board} {w : Workspace} (hb : Board.find? o.board = some board)
    (hw : Workspace.load o.workspace contents = .ok w) :
    prepare o contents = (compose o board w).value := by
  rw [prepare, hb]
  simp only [hw]

theorem value_compose_of_list (hl : o.listInstances = true) (board : Board) (w : Workspace) :
    (compose o board w).value = .ok (choicesText o.format w.instanceChoices.value) := by
  rw [compose, if_pos hl]
  rfl

theorem value_compose_of_error {e : Reservation × PinClash} (hl : o.listInstances = false)
    (he : PinAssignment.empty.reserve o.reservations = .error e) (board : Board) (w : Workspace) :
    (compose o board w).value = .error (.reservation e.1 e.2) := by
  rw [compose, if_neg (by simp [hl]), he]
  rfl

theorem value_compose_of_ok {pins : PinAssignment} (hl : o.listInstances = false)
    (he : PinAssignment.empty.reserve o.reservations = .ok pins) (board : Board) (w : Workspace) :
    (compose o board w).value =
      .ok (reportText o.format (Compilation.ofWorkspace board pins w).value) := by
  rw [compose, if_neg (by simp [hl]), he]
  rfl

theorem writes_of_prepare {text : String} (h : prepare o contents = .ok text) :
    Writes o contents text := by
  unfold prepare at h
  split at h
  · cases h
  next board hb =>
  split at h
  · cases h
  next w hw =>
  obtain ⟨s, hs, hparse⟩ := Workspace.exists_text_of_load hw
  cases hl : o.listInstances with
  | true =>
    rw [value_compose_of_list hl] at h
    cases h
    exact .motors hs hparse hl
  | false =>
    cases he : PinAssignment.empty.reserve o.reservations with
    | error e =>
      rw [value_compose_of_error hl he] at h
      cases h
    | ok pins =>
      rw [value_compose_of_ok hl he] at h
      cases h
      have hname : board.name.map Char.toLower = o.board.map Char.toLower := by
        simpa using List.find?_some hb
      exact .compiled hs hparse hl (Board.mem_all_of_find? hb) hname he

/-! ## The first failure -/

/-- A failing check is the first one if it is the only one up to its place. -/
theorem first_iff {first : Failure} (hf : Fails o contents writable first)
    (honly : ∀ other, Fails o contents writable other → other.stage ≤ first.stage → other = first)
    (why : Failure) : some first = some why ↔ FirstFailure o contents writable why := by
  constructor
  · rintro ⟨⟩
    refine ⟨hf, fun other hother => ?_⟩
    by_contra hlt
    have heq := honly other hother (by omega)
    exact hlt (heq ▸ Nat.le_refl _)
  · rintro ⟨hwhy, hle⟩
    rw [honly why hwhy (hle first hf)]

theorem not_fails_unknownBoard {board : Board} (hb : Board.find? o.board = some board)
    (name : String) : ¬Fails o contents writable (.unknownBoard name) := by
  simp [fails_unknownBoard_iff, hb]

theorem not_fails_load {w : Workspace} (hw : Workspace.load o.workspace contents = .ok w)
    (why : LoadError) : ¬Fails o contents writable (.load why) := by
  simp [fails_load_iff, hw]

theorem first_board (hb : Board.find? o.board = none) (why : Failure) :
    some (Failure.unknownBoard o.board) = some why ↔ FirstFailure o contents writable why := by
  refine first_iff (fails_unknownBoard_iff.2 ⟨rfl, hb⟩) (fun other hother hle => ?_) why
  cases other with
  | unknownBoard name => rw [(fails_unknownBoard_iff.1 hother).1]
  | load _ | reservation _ _ | save _ => simp [Failure.stage] at hle

theorem first_load {board : Board} {e : LoadError} (hb : Board.find? o.board = some board)
    (he : Workspace.load o.workspace contents = .error e) (why : Failure) :
    some (Failure.load e) = some why ↔ FirstFailure o contents writable why := by
  refine first_iff (fails_load_iff.2 he) (fun other hother hle => ?_) why
  cases other with
  | unknownBoard name => exact absurd hother (not_fails_unknownBoard hb name)
  | load e' =>
    rw [fails_load_iff, he] at hother
    rw [Except.error.inj hother]
  | reservation _ _ | save _ => simp [Failure.stage] at hle

theorem first_reservation {board : Board} {w : Workspace} {e : Reservation × PinClash}
    (hb : Board.find? o.board = some board)
    (hw : Workspace.load o.workspace contents = .ok w) (hl : o.listInstances = false)
    (he : PinAssignment.empty.reserve o.reservations = .error e) (why : Failure) :
    some (Failure.reservation e.1 e.2) = some why ↔ FirstFailure o contents writable why := by
  refine first_iff (fails_reservation_iff.2 ⟨hl, he⟩) (fun other hother hle => ?_) why
  cases other with
  | unknownBoard name => exact absurd hother (not_fails_unknownBoard hb name)
  | load e => exact absurd hother (not_fails_load hw e)
  | reservation r c =>
    rw [fails_reservation_iff, he] at hother
    cases hother.2
    rfl
  | save _ => simp [Failure.stage] at hle

/-- With a text, only the output can fail. -/
theorem first_output {board : Board} {w : Workspace} (hb : Board.find? o.board = some board)
    (hw : Workspace.load o.workspace contents = .ok w)
    (hr : ∀ r e, ¬Fails o contents writable (.reservation r e)) (text : String) (why : Failure) :
    (deliver o.output writable text).failure = some why ↔ FirstFailure o contents writable why := by
  have hsave : ∀ other, Fails o contents writable other →
      ∃ path, other = .save ⟨path⟩ ∧ o.output = some path ∧ writable = false := by
    intro other hother
    cases other with
    | unknownBoard name => exact absurd hother (not_fails_unknownBoard hb name)
    | load e => exact absurd hother (not_fails_load hw e)
    | reservation r e => exact absurd hother (hr r e)
    | save e => exact ⟨e.path, rfl, fails_save_iff.1 hother⟩
  by_cases hfail : ∃ path, o.output = some path ∧ writable = false
  · obtain ⟨path, hpath, hw⟩ := hfail
    have hfailed : (deliver o.output writable text).failure = some (.save ⟨path⟩) := by
      rw [hpath, hw]
      rfl
    rw [hfailed]
    refine first_iff (.output hpath hw) (fun other hother _ => ?_) why
    obtain ⟨path', rfl, hpath', -⟩ := hsave other hother
    rw [hpath] at hpath'
    cases hpath'
    rfl
  · have hnone : (deliver o.output writable text).failure = none := by
      cases ho : o.output with
      | none => rfl
      | some path =>
        cases writable with
        | true => rfl
        | false => exact absurd ⟨path, ho, rfl⟩ hfail
    rw [hnone]
    refine iff_of_false nofun fun ⟨hwhy, _⟩ => ?_
    obtain ⟨path, -, hpath⟩ := hsave why hwhy
    exact hfail ⟨path, hpath⟩

/-- The checks are made in order, and the first one that fails is the failure of the run. -/
theorem failure_run (o : Options) (contents : Option ByteArray) (writable : Bool) (why : Failure) :
    (run o contents writable).value.failure = some why ↔ FirstFailure o contents writable why := by
  rw [value_run]
  cases hb : Board.find? o.board with
  | none =>
    rw [prepare, hb]
    exact first_board hb why
  | some board =>
    cases hw : Workspace.load o.workspace contents with
    | error e =>
      rw [prepare, hb]
      simp only [hw]
      exact first_load hb hw why
    | ok w =>
      rw [prepare_eq hb hw]
      cases hl : o.listInstances with
      | true =>
        rw [value_compose_of_list hl]
        exact first_output hb hw (by simp [fails_reservation_iff, hl]) _ why
      | false =>
        cases he : PinAssignment.empty.reserve o.reservations with
        | error e =>
          rw [value_compose_of_error hl he]
          exact first_reservation hb hw hl he why
        | ok pins =>
          rw [value_compose_of_ok hl he]
          exact first_output hb hw (by simp [fails_reservation_iff, he]) _ why

/-! ## Outcomes -/

namespace Outcome

theorem status_eq_one_iff {outcome : Outcome} :
    outcome.status = 1 ↔ ∃ why, outcome.failure = some why := by
  cases outcome <;> simp [status, failure]

theorem silent_of_status {outcome : Outcome} (h : outcome.status = 1) :
    outcome.output = "" ∧ outcome.file = none := by
  cases outcome with
  | failed why => exact ⟨rfl, rfl⟩
  | printed _ | saved _ _ => cases h

/-- The text was written where it belongs, and nothing else was. -/
def Delivered (outcome : Outcome) (sink : Option String) (text : String) : Prop :=
  outcome.status = 0 ∧ outcome.failure = none ∧
    match sink with
    | none => outcome.output = text ∧ outcome.file = none
    | some path => outcome.output = "" ∧ outcome.file = some (path, text)

theorem delivered_deliver (sink : Option String) (text : String) :
    (deliver sink true text).Delivered sink text := by
  cases sink <;> exact ⟨rfl, rfl, rfl, rfl⟩

end Outcome

theorem fails_iff_exists_first :
    (∃ why, Fails o contents writable why) ↔ ∃ why, FirstFailure o contents writable why := by
  constructor
  · intro h
    obtain ⟨why, hwhy, hmin⟩ :=
      (measure Failure.stage).wf.has_min {why | Fails o contents writable why} h
    exact ⟨why, hwhy, fun other hother => Nat.le_of_not_lt (hmin other hother)⟩
  · rintro ⟨why, hwhy, -⟩
    exact ⟨why, hwhy⟩

/-- A run that does not fail has a text that goes elsewhere if the output is another one. -/
theorem delivered_of_success
    (h : ∀ why, (run o contents writable).value.failure ≠ some why) :
    ∃ text, (run o contents writable).value.Delivered o.output text ∧
      prepare o contents = .ok text := by
  rw [value_run] at h ⊢
  cases ht : prepare o contents with
  | error why =>
    rw [ht] at h
    exact absurd rfl (h why)
  | ok text =>
    refine ⟨text, ?_, rfl⟩
    rw [ht] at h
    cases ho : o.output with
    | none => exact Outcome.delivered_deliver none text
    | some path =>
      cases writable with
      | true => exact Outcome.delivered_deliver (some path) text
      | false =>
        rw [ho] at h
        exact absurd rfl (h _)

/-- If motors are listed, the text is that of the workspace on any board that is known. -/
theorem prepare_listInstances (hl : o.listInstances = true) {board : Board}
    (hb : Board.find? o.board = some board) : prepare o contents =
      match Workspace.load o.workspace contents with
      | .error why => .error (.load why)
      | .ok w => .ok (choicesText o.format w.instanceChoices.value) := by
  rw [prepare, hb]
  simp only []
  cases Workspace.load o.workspace contents with
  | error why => rfl
  | ok w => exact value_compose_of_list hl board w

theorem prepare_reservations (hl : o.listInstances = true) (rs : List Reservation) :
    prepare { o with reservations := rs } contents = prepare o contents := by
  cases hb : Board.find? o.board with
  | none =>
    rw [prepare, prepare, hb]
  | some board =>
    have hrs : ({ o with reservations := rs } : Options).listInstances = true := hl
    rw [prepare_listInstances hl hb, prepare_listInstances hrs hb]

theorem prepare_board (hl : o.listInstances = true) (ho : KnownBoard o.board) {name : String}
    (hn : KnownBoard name) : prepare { o with board := name } contents = prepare o contents := by
  obtain ⟨board, hb⟩ := knownBoard_iff.1 ho
  obtain ⟨board', hb'⟩ := knownBoard_iff.1 hn
  have hname : ({ o with board := name } : Options).listInstances = true := hl
  rw [prepare_listInstances hl hb, prepare_listInstances hname hb']

/-- A run fails as its first failing check says, and leaves nothing behind then; otherwise the text
of the motors or of the compiled workspace goes where it belongs, the same text for every output.
None of this depends on what is logged; and if motors are listed, neither on the reservations nor on
which known board it is. -/
theorem outcome_execute (o : Options) (setting : Option String) (contents : Option ByteArray)
    (writable : Bool) :
    let outcome := (execute o setting contents writable).outcome
    (∀ why, outcome.failure = some why ↔ FirstFailure o contents writable why) ∧
    (outcome.status = 1 ↔ ∃ why, Fails o contents writable why) ∧
    (outcome.status = 1 → outcome.output = "" ∧ outcome.file = none) ∧
    (outcome.status ≠ 1 → ∃ text, Writes o contents text ∧ outcome.Delivered o.output text ∧
      ∀ sink,
        (execute { o with output := sink } setting contents true).outcome.Delivered sink text) ∧
    (∀ verbose setting',
      (execute { o with verbose := verbose } setting' contents writable).outcome = outcome) ∧
    (o.listInstances = true →
      (∀ rs,
        (execute { o with reservations := rs } setting contents writable).outcome = outcome) ∧
      ∀ name, KnownBoard o.board → KnownBoard name →
        (execute { o with board := name } setting contents writable).outcome = outcome) := by
  have hstatus : (run o contents writable).value.status = 1 ↔
      ∃ why, Fails o contents writable why := by
    rw [Outcome.status_eq_one_iff, fails_iff_exists_first]
    simp only [failure_run]
  refine ⟨failure_run o contents writable, hstatus, Outcome.silent_of_status, ?text,
    fun _ _ => rfl, fun hl => ⟨fun rs => ?reservations, fun name ho hn => ?board⟩⟩
  case text =>
    intro h
    obtain ⟨text, hdelivered, ht⟩ := delivered_of_success fun why hwhy =>
      h (Outcome.status_eq_one_iff.2 ⟨why, hwhy⟩)
    refine ⟨text, writes_of_prepare ht, hdelivered, fun sink => ?_⟩
    have hsink : prepare { o with output := sink } contents = .ok text := ht
    show (run { o with output := sink } contents true).value.Delivered sink text
    rw [value_run, hsink]
    exact Outcome.delivered_deliver sink text
  case reservations =>
    show (run _ contents writable).value = (run o contents writable).value
    rw [value_run, value_run, prepare_reservations hl]
  case board =>
    show (run _ contents writable).value = (run o contents writable).value
    rw [value_run, value_run, prepare_board hl ho hn]

end MotorSketch.CommandLine
