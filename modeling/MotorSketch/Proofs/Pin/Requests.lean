import Mathlib.Data.Finset.Card
import MotorSketch.Proofs.Pin.Claims

/-!
# Pins after any requests

An assignment is asked for single pins and for the pins of motors, in any order.  Every request
comes down to claims, and a claim adds its pin if it is free and changes nothing otherwise.  So
behind any requests the assignment holds the claimed pins in the order of their first claims, each
with the role of its first claim, and further requests only add to it.

    (m.after q).roles = m.roles.addAll q.claims                                      (roles_after)
    (ofRequests qs).roles.entries = earliest Prod.fst (qs.flatMap PinRequest.claims)
                                                                             (entries_ofRequests)
    (ofRequests qs).roles.entries <+: (ofRequests (qs ++ more)).roles.entries
                                                                      (entries_ofRequests_prefix)

A motor that is attached again behind any requests finds its pins as it has left them.

    m.role? pin = some role → (qs.foldl after m).role? pin = some role          (role?_foldl_after)
    motor.attach (qs.foldl after (motor.attach m).pins) is what it was at first     (attach_again)
-/

namespace MotorSketch

/-- An assignment is asked for a pin in some role, or for the pins of a motor. -/
inductive PinRequest
  | claim (pin : String) (role : PinRole)
  | attach (motor : Motor)

/-- The claims that the request makes, in order. -/
def PinRequest.claims : PinRequest → List (String × PinRole)
  | claim pin role => [(pin, role)]
  | attach motor => motor.claims

/-- A map has as many entries as it has keys. -/
theorem OrderedMap.size_eq_card {κ α : Type} [DecidableEq κ] (m : OrderedMap κ α) :
    m.size = m.keys.toFinset.card := by
  have hkeys : m.keys.length = m.size := List.length_map _
  have hcard := List.toFinset_card_of_nodup m.nodup_keys
  exact hkeys.symm.trans hcard.symm

namespace PinAssignment

/-! ## Steps -/

/-- The assignment after a request. -/
def after (m : PinAssignment) : PinRequest → PinAssignment
  | .claim pin role => m.claimed pin role
  | .attach motor => (motor.attach m).pins

theorem roles_after (m : PinAssignment) (q : PinRequest) :
    (m.after q).roles = m.roles.addAll q.claims := by
  cases q with
  | claim pin role => exact roles_claimed m pin role
  | attach motor => exact motor.roles_attach m

/-! ## Runs -/

/-- The assignment behind all requests. -/
def ofRequests (qs : List PinRequest) : PinAssignment := qs.foldl after empty

theorem ofRequests_append (qs more : List PinRequest) :
    ofRequests (qs ++ more) = more.foldl after (ofRequests qs) :=
  List.foldl_append

theorem roles_foldl_after (qs : List PinRequest) (m : PinAssignment) :
    (qs.foldl after m).roles = m.roles.addAll (qs.flatMap PinRequest.claims) :=
  foldl_writes roles _ roles_after qs m

theorem entries_ofRequests (qs : List PinRequest) :
    (ofRequests qs).roles.entries = earliest Prod.fst (qs.flatMap PinRequest.claims) := by
  rw [ofRequests, roles_foldl_after, OrderedMap.entries_addAll]
  exact List.filter_eq_self.2 fun e _ => by simp [empty]

theorem role?_ofRequests (qs : List PinRequest) (pin : String) :
    (ofRequests qs).role? pin =
      ((qs.flatMap PinRequest.claims).find? fun c => c.1 = pin).map Prod.snd := by
  rw [role?, ofRequests, roles_foldl_after, OrderedMap.get?_addAll]
  rfl

theorem size_ofRequests (qs : List PinRequest) :
    (ofRequests qs).roles.size =
      (Entries.keys (qs.flatMap PinRequest.claims)).toFinset.card := by
  have hkeys : (ofRequests qs).roles.keys.toFinset =
      (Entries.keys (qs.flatMap PinRequest.claims)).toFinset := by
    ext pin
    rw [List.mem_toFinset, List.mem_toFinset, ofRequests, roles_foldl_after,
      OrderedMap.mem_keys_addAll]
    simp [empty]
  rw [OrderedMap.size_eq_card, hkeys]

/-- What has been claimed keeps its place and its role. -/
theorem entries_ofRequests_prefix (qs more : List PinRequest) :
    (ofRequests qs).roles.entries <+: (ofRequests (qs ++ more)).roles.entries := by
  rw [ofRequests_append, roles_foldl_after, OrderedMap.entries_addAll]
  exact List.prefix_append _ _

/-- A motor asks for its two pins one after the other, however the first claim ends. -/
theorem ofRequests_attach (qs : List PinRequest) (motor : Motor) :
    ofRequests (qs ++ [.attach motor]) =
      ofRequests (qs ++ [.claim motor.pin1 .stepper, .claim motor.pin2 .stepper]) := by
  rw [ofRequests_append, ofRequests_append]
  exact motor.pins_attach (ofRequests qs)

theorem ofRequests_claim_of_error {qs : List PinRequest} {pin : String} {role : PinRole}
    {e : PinClash} (h : (ofRequests qs).claim pin role = .error e) :
    ofRequests (qs ++ [.claim pin role]) = ofRequests qs := by
  rw [ofRequests_append]
  exact claimed_of_error h

/-- A motor whose first pin is taken still gets its second one. -/
theorem ofRequests_attach_of_error {qs : List PinRequest} {motor : Motor} {e : PinClash}
    (h : (ofRequests qs).claim motor.pin1 .stepper = .error e) :
    ofRequests (qs ++ [.attach motor]) = ofRequests (qs ++ [.claim motor.pin2 .stepper]) := by
  have hfirst := ofRequests_claim_of_error h
  rw [ofRequests_attach, ← List.singleton_append, ← List.append_assoc, ofRequests_append, hfirst,
    ← ofRequests_append]

/-! ## Motors attached again -/

/-- A role that a pin has is kept. -/
theorem role?_after {m : PinAssignment} {pin : String} {role : PinRole}
    (h : m.role? pin = some role) (q : PinRequest) : (m.after q).role? pin = some role := by
  rw [role?, roles_after, OrderedMap.get?_addAll]
  show (m.role? pin).or _ = _
  rw [h, Option.some_or]

theorem role?_foldl_after {m : PinAssignment} {pin : String} {role : PinRole}
    (h : m.role? pin = some role) (qs : List PinRequest) :
    (qs.foldl after m).role? pin = some role := by
  induction qs generalizing m with
  | nil => exact h
  | cons q qs ih => exact ih (role?_after h q)

end PinAssignment

namespace Motor

/-- However its claims end, both pins of a motor have been claimed. -/
theorem exists_role?_attach (motor : Motor) (m : PinAssignment) {pin : String}
    (hpin : pin ∈ [motor.pin1, motor.pin2]) :
    ∃ role, (motor.attach m).pins.role? pin = some role := by
  apply OrderedMap.exists_get?_of_mem_keys
  rw [roles_attach, OrderedMap.mem_keys_addAll]
  exact .inr (by simpa [claims] using hpin)

/-- Behind any requests the pins of a motor are as it has left them, so it meets the conflicts that
it met and claims nothing more. -/
theorem attach_again (motor : Motor) (m : PinAssignment) (qs : List PinRequest) :
    let first := motor.attach m
    let later := qs.foldl PinAssignment.after first.pins
    let again := motor.attach later
    again.parts = first.parts ∧ again.clashes = first.clashes ∧ again.warning = first.warning ∧
      again.pins = later := by
  intro first later again
  have hkept : ∀ pin ∈ [motor.pin1, motor.pin2],
      ∃ role, first.pins.role? pin = some role ∧ later.role? pin = some role := by
    intro pin hpin
    obtain ⟨role, hfirst⟩ := motor.exists_role?_attach m hpin
    exact ⟨role, hfirst, PinAssignment.role?_foldl_after hfirst qs⟩
  have hclash : ∀ pin ∈ [motor.pin1, motor.pin2], later.clash? pin = m.clash? pin := by
    intro pin hpin
    obtain ⟨role, hfirst, hlater⟩ := hkept pin hpin
    rw [← motor.clash?_attach m pin, PinAssignment.clash?, PinAssignment.clash?, hfirst, hlater]
  have hclashes : again.clashes = first.clashes := by
    rw [clashes_attach, clashes_attach]
    exact List.filterMap_congr hclash
  have hroles : again.pins.roles = later.roles := by
    rw [roles_attach]
    apply OrderedMap.addAll_eq_self
    intro claim hclaim
    obtain ⟨role, -, hlater⟩ := hkept claim.1 (List.mem_map_of_mem (f := Prod.fst) hclaim)
    exact OrderedMap.mem_keys_of_get? hlater
  refine ⟨rfl, hclashes, ?_, congrArg PinAssignment.mk hroles⟩
  rw [Attachment.warning, Attachment.warning, hclashes]

end Motor

end MotorSketch
