import MotorSketch.OrderedMap
import MotorSketch.Pin.Reservation

/-!
# Pin assignment

Which role each pin has been claimed for, in order of the first claims.  The first claim of a
pin wins; a claim for another role is a conflict and changes nothing.

    m.claim p r = .ok m' → m'.role? p = some r                            (role?_of_claim)
    m.claim p r = .error e ↔ m.role? p = some e.existing ∧ e.existing ≠ r ∧ e.pin = p
                                                                          (claim_eq_error_iff)
-/

namespace MotorSketch

/-- The pin has already been claimed for the role `existing`. -/
structure PinClash where
  pin : String
  existing : PinRole
  deriving DecidableEq

def PinClash.message (c : PinClash) : String :=
  "Pin " ++ c.pin ++ " already used as " ++ c.existing.tag ++ "."

structure PinAssignment where
  roles : OrderedMap String PinRole
  deriving DecidableEq

namespace PinAssignment

/-! ## Algorithm -/

def empty : PinAssignment := ⟨∅⟩

def role? (m : PinAssignment) (pin : String) : Option PinRole := m.roles.get? pin

def claim (m : PinAssignment) (pin : String) (role : PinRole) : Except PinClash PinAssignment :=
  match m.role? pin with
  | none => .ok ⟨m.roles.insert pin role⟩
  | some existing => if existing = role then .ok m else .error ⟨pin, existing⟩

/-- Claims the reserved pins in order; the first conflict is reported with its reservation. -/
def reserve (m : PinAssignment) : List Reservation → Except (Reservation × PinClash) PinAssignment
  | [] => .ok m
  | r :: rest =>
    match m.claim r.pin r.role with
    | .ok m' => m'.reserve rest
    | .error conflict => .error (r, conflict)

/-! ## Lemmas -/

theorem claim_eq_error_iff {m : PinAssignment} {pin : String} {role : PinRole} {e : PinClash} :
    m.claim pin role = .error e ↔
      m.role? pin = some e.existing ∧ e.existing ≠ role ∧ e.pin = pin := by
  obtain ⟨p, x⟩ := e
  unfold claim
  cases h : m.role? pin with
  | none => simp
  | some existing =>
    by_cases hr : existing = role
    · simp only [hr, if_true, reduceCtorEq, Option.some.injEq, false_iff]
      rintro ⟨rfl, hne, -⟩
      exact hne rfl
    · simp only [hr, if_false, Except.error.injEq, PinClash.mk.injEq, Option.some.injEq]
      constructor
      · rintro ⟨rfl, rfl⟩
        exact ⟨rfl, hr, rfl⟩
      · rintro ⟨rfl, -, rfl⟩
        exact ⟨rfl, rfl⟩

theorem role?_of_claim {m m' : PinAssignment} {pin : String} {role : PinRole}
    (h : m.claim pin role = .ok m') : m'.role? pin = some role := by
  unfold claim at h
  cases hp : m.role? pin with
  | none =>
    rw [hp] at h
    cases h
    simp [role?, OrderedMap.get?_insert]
  | some existing =>
    rw [hp] at h
    by_cases hr : existing = role
    · simp only [hr, if_true, Except.ok.injEq] at h
      rw [← h, hp, hr]
    · simp [hr] at h

end PinAssignment

end MotorSketch
