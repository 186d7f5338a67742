import MotorSketch.Motor
import MotorSketch.Proofs.OrderedMap.Overlay

/-!
# Claims of pins

A claim that succeeds gives its pin the claimed role and leaves every other pin alone.  Hence
reservations that all succeed give each pin the role of its first reservation, and motors, which
claim pins for themselves only, add those of their pins that are free and never change what
conflicts other motors meet.

    m.claim p r = .ok m' → m'.role? q = if q = p then some r else m.role? q     (role?_claim)
    PinAssignment.empty.reserve rs = .ok m → m.role? p = reservedRole? rs p     (role?_of_reserve)
    ∃ rs, PinAssignment.empty.reserve rs = .ok m                                (exists_reserve)
    (motor.attach m).pins.roles = m.roles.addAll motor.claims                   (roles_attach)
    (motor.attach m).clashes = [motor.pin1, motor.pin2].filterMap m.clash?      (clashes_attach)
    (motor.attach m).pins.clash? p = m.clash? p                                 (clash?_attach)
-/

namespace MotorSketch

/-- The role that the first reservation of the pin asks for. -/
def reservedRole? (rs : List Reservation) (pin : String) : Option PinRole :=
  (rs.find? fun r => r.pin = pin).map Reservation.role

namespace PinAssignment

/-- The conflict that a motor meets on the pin. -/
def clash? (m : PinAssignment) (pin : String) : Option PinClash :=
  match m.role? pin with
  | none => none
  | some role => if role = .stepper then none else some ⟨pin, role⟩

/-! ## Claims and reservations -/

/-- A claim succeeds on a free pin and on one that has the role already. -/
theorem role?_before_claim {m m' : PinAssignment} {pin : String} {role : PinRole}
    (h : m.claim pin role = .ok m') : m.role? pin = none ∨ m.role? pin = some role := by
  unfold claim at h
  cases hp : m.role? pin with
  | none => exact .inl rfl
  | some existing =>
    rw [hp] at h
    by_cases he : existing = role
    · exact .inr (he ▸ rfl)
    · simp [he] at h

theorem role?_claim {m m' : PinAssignment} {pin : String} {role : PinRole}
    (h : m.claim pin role = .ok m') (pin' : String) :
    m'.role? pin' = if pin' = pin then some role else m.role? pin' := by
  by_cases hq : pin' = pin
  · rw [if_pos hq, hq]
    exact role?_of_claim h
  · rw [if_neg hq]
    unfold claim at h
    split at h
    · cases h
      exact (OrderedMap.get?_insert m.roles pin pin' role).trans (if_neg hq)
    · split at h
      · cases h
        rfl
      · cases h

theorem role?_reserve {m m' : PinAssignment} {rs : List Reservation} (h : m.reserve rs = .ok m')
    (pin : String) : m'.role? pin = (m.role? pin).or (reservedRole? rs pin) := by
  induction rs generalizing m with
  | nil =>
    cases h
    simp [reservedRole?]
  | cons r rs ih =>
    rw [reserve] at h
    split at h
    · next m₁ hc =>
      rw [ih h, role?_claim hc]
      by_cases hp : pin = r.pin
      · subst hp
        rcases role?_before_claim hc with hb | hb <;> simp [hb, reservedRole?]
      · simp [hp, Ne.symm hp, reservedRole?]
    · cases h

theorem role?_of_reserve {m : PinAssignment} {rs : List Reservation}
    (h : empty.reserve rs = .ok m) (pin : String) : m.role? pin = reservedRole? rs pin := by
  rw [role?_reserve h]
  rfl

/-- Reservations of further pins are added as they stand. -/
theorem reserve_fresh {m : PinAssignment} {es : List (String × PinRole)}
    (h : (Entries.keys (m.roles.entries ++ es)).Nodup) :
    m.reserve (es.map fun e => ⟨e.1, e.2⟩) = .ok ⟨⟨m.roles.entries ++ es, h⟩⟩ := by
  induction es generalizing m with
  | nil => simp [reserve]
  | cons e es ih =>
    have hfree : e.1 ∉ m.roles.keys := by
      intro hm
      rw [Entries.keys_append, List.nodup_append] at h
      exact h.2.2 e.1 hm e.1 (by simp) rfl
    have hclaim : m.claim e.1 e.2 = .ok ⟨m.roles.insert e.1 e.2⟩ := by
      rw [claim, role?, OrderedMap.get?_eq_none_iff.2 hfree]
    have hentries : (m.roles.insert e.1 e.2).entries ++ es = m.roles.entries ++ e :: es := by
      rw [← List.singleton_append, ← List.append_assoc]
      exact congrArg (· ++ es) (Entries.insert_of_not_mem hfree)
    have hrest := ih (m := ⟨m.roles.insert e.1 e.2⟩) (hentries ▸ h)
    rw [List.map_cons, reserve, hclaim]
    simp only [hrest, hentries]

/-- Every assignment is what some reservations give. -/
theorem exists_reserve (m : PinAssignment) : ∃ rs, empty.reserve rs = .ok m := by
  have hfresh : (Entries.keys (empty.roles.entries ++ m.roles.entries)).Nodup := m.roles.nodup_keys
  exact ⟨_, reserve_fresh hfresh⟩

/-- The assignment after a claim; one that fails changes nothing. -/
def claimed (m : PinAssignment) (pin : String) (role : PinRole) : PinAssignment :=
  match m.claim pin role with
  | .ok m' => m'
  | .error _ => m

theorem claimed_of_ok {m m' : PinAssignment} {pin : String} {role : PinRole}
    (h : m.claim pin role = .ok m') : m.claimed pin role = m' := by
  rw [claimed, h]

theorem claimed_of_error {m : PinAssignment} {pin : String} {role : PinRole} {e : PinClash}
    (h : m.claim pin role = .error e) : m.claimed pin role = m := by
  rw [claimed, h]

/-- A claim adds its pin if it is free. -/
theorem roles_claimed (m : PinAssignment) (pin : String) (role : PinRole) :
    (m.claimed pin role).roles = m.roles.addAll [(pin, role)] := by
  have hadd : m.roles.addAll [(pin, role)] =
      if pin ∈ m.roles.keys then m.roles else m.roles.insert pin role := rfl
  rw [hadd, claimed, claim, role?]
  cases hp : m.roles.get? pin with
  | none => rw [if_neg (OrderedMap.get?_eq_none_iff.1 hp)]
  | some existing =>
    rw [if_pos (OrderedMap.mem_keys_of_get? hp)]
    by_cases he : existing = role <;> simp [he]

/-- Claims for a motor do not add conflicts for motors, and remove none. -/
theorem clash?_claim_stepper {m m' : PinAssignment} {pin : String}
    (h : m.claim pin .stepper = .ok m') (pin' : String) : m'.clash? pin' = m.clash? pin' := by
  unfold clash?
  rw [role?_claim h]
  by_cases hp : pin' = pin
  · subst hp
    rcases role?_before_claim h with hb | hb <;> simp [hb]
  · simp [hp]

/-- A pin that has roles in two assignments with the same conflicts has the same role in both. -/
theorem role_eq_of_clash?_eq {m n : PinAssignment} {pin : String} {r s : PinRole}
    (h : m.clash? pin = n.clash? pin) (hm : m.role? pin = some r) (hn : n.role? pin = some s) :
    r = s := by
  unfold clash? at h
  rw [hm, hn] at h
  by_cases hr : r = .stepper
  · by_cases hs : s = .stepper
    · rw [hr, hs]
    · simp [hr, hs] at h
  · by_cases hs : s = .stepper
    · simp [hr, hs] at h
    · simpa [hr, hs] using h

theorem claim_stepper_eq_error_iff {m : PinAssignment} {pin : String} {e : PinClash} :
    m.claim pin .stepper = .error e ↔ m.clash? pin = some e := by
  unfold claim clash?
  cases m.role? pin with
  | none => simp
  | some role => by_cases hr : role = .stepper <;> simp [hr]

end PinAssignment

namespace Motor

/-! ## Motors -/

/-- What the motor asks for. -/
def claims (m : Motor) : List (String × PinRole) := [(m.pin1, .stepper), (m.pin2, .stepper)]

theorem fst_claimPin (state : PinAssignment × List PinClash) (pin : String) :
    (claimPin state pin).1 = state.1.claimed pin .stepper := by
  unfold claimPin PinAssignment.claimed
  cases state.1.claim pin .stepper <;> rfl

/-- Both pins are claimed, one after the other. -/
theorem pins_attach (m : Motor) (pins : PinAssignment) :
    (m.attach pins).pins = (pins.claimed m.pin1 .stepper).claimed m.pin2 .stepper := by
  show (claimPin (claimPin (pins, []) m.pin1) m.pin2).1 = _
  rw [fst_claimPin, fst_claimPin]

/-- The pins of the motor that are free are added. -/
theorem roles_attach (m : Motor) (pins : PinAssignment) :
    (m.attach pins).pins.roles = pins.roles.addAll m.claims := by
  rw [pins_attach, PinAssignment.roles_claimed, PinAssignment.roles_claimed,
    ← OrderedMap.addAll_append]
  rfl

theorem clashes_claimPin (state : PinAssignment × List PinClash) (pin : String) :
    (claimPin state pin).2 = state.2 ++ (state.1.clash? pin).toList := by
  unfold claimPin
  split
  · next h =>
    cases hc : state.1.clash? pin with
    | none => simp
    | some e =>
      rw [PinAssignment.claim_stepper_eq_error_iff.2 hc] at h
      cases h
  · next e h => rw [PinAssignment.claim_stepper_eq_error_iff.1 h, Option.toList_some]

theorem clash?_claimPin (state : PinAssignment × List PinClash) (pin pin' : String) :
    (claimPin state pin).1.clash? pin' = state.1.clash? pin' := by
  unfold claimPin
  split
  · next h => exact PinAssignment.clash?_claim_stepper h pin'
  · rfl

/-- The second pin meets the conflict that it would have met before the first was claimed. -/
theorem clashes_attach (m : Motor) (pins : PinAssignment) :
    (m.attach pins).clashes = [m.pin1, m.pin2].filterMap pins.clash? := by
  show (claimPin (claimPin (pins, []) m.pin1) m.pin2).2 = _
  rw [clashes_claimPin, clash?_claimPin, clashes_claimPin]
  cases h1 : pins.clash? m.pin1 <;> cases h2 : pins.clash? m.pin2 <;> simp [h1, h2]

theorem clash?_attach (m : Motor) (pins : PinAssignment) (pin : String) :
    (m.attach pins).pins.clash? pin = pins.clash? pin := by
  show (claimPin (claimPin (pins, []) m.pin1) m.pin2).1.clash? pin = _
  rw [clash?_claimPin, clash?_claimPin]

end Motor

end MotorSketch
