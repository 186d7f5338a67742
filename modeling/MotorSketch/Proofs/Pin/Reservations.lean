import Mathlib.Data.List.Nodup
import Mathlib.Data.List.Pairwise
import MotorSketch.Proofs.Pin.Claims

/-!
# Reservations in any order

Reservations succeed exactly if no pin is asked for in two roles, which does not depend on their
order.  When they succeed, the pins are the reserved ones: their order follows the reservations,
but which pins there are, and in which roles, does not.

    (∃ m, PinAssignment.empty.reserve rs = .ok m) ↔
      no two of rs ask for one pin in two roles                              (exists_reserve_ok_iff)
    PinAssignment.empty.reserve rs = .ok m →
      m.roles.entries = earliest Prod.fst (rs.map Reservation.entry)            (entries_of_reserve)
    … → rs.Perm ss → m.roles.entries.Perm n.roles.entries                  (entries_perm_of_reserve)
    PinAssignment.empty.reserve rs = .error (r, e) ↔
      r is the first of rs to ask for a pin in another role than e.existing  (reserve_eq_error_iff)
-/

namespace MotorSketch

def Reservation.entry (r : Reservation) : String × PinRole := (r.pin, r.role)

namespace PinAssignment

variable {m n : PinAssignment} {rs ss : List Reservation}

/-! ## Success -/

/-- Behind a claim that succeeds a pin is free for the same roles as before, except that the
claimed pin is now free for the claimed role only. -/
theorem fits_claim {m' : PinAssignment} {pin : String} {role : PinRole}
    (h : m.claim pin role = .ok m') (s : Reservation) :
    (∀ x, m'.role? s.pin = some x → x = s.role) ↔
      (∀ x, m.role? s.pin = some x → x = s.role) ∧ (pin = s.pin → role = s.role) := by
  rw [role?_claim h]
  by_cases hs : s.pin = pin
  · rw [if_pos hs, hs]
    rcases role?_before_claim h with hb | hb <;> simp [hb]
  · rw [if_neg hs]
    simp [Ne.symm hs]

theorem exists_reserve_ok_iff_pairwise (m : PinAssignment) (rs : List Reservation) :
    (∃ m', m.reserve rs = .ok m') ↔
      (∀ r ∈ rs, ∀ x, m.role? r.pin = some x → x = r.role) ∧
        rs.Pairwise fun r s => r.pin = s.pin → r.role = s.role := by
  induction rs generalizing m with
  | nil => simp [reserve]
  | cons r rs ih =>
    rw [reserve, List.forall_mem_cons, List.pairwise_cons]
    cases h : m.claim r.pin r.role with
    | ok m' =>
      have hr : ∀ x, m.role? r.pin = some x → x = r.role := by
        rcases role?_before_claim h with hb | hb <;> simp [hb]
      simp only [ih, fits_claim h]
      constructor
      · rintro ⟨hrest, hpairs⟩
        exact ⟨⟨hr, fun s hs => (hrest s hs).1⟩, fun s hs => (hrest s hs).2, hpairs⟩
      · rintro ⟨⟨-, hfits⟩, hagree, hpairs⟩
        exact ⟨fun s hs => ⟨hfits s hs, hagree s hs⟩, hpairs⟩
    | error e =>
      obtain ⟨htaken, hother, -⟩ := claim_eq_error_iff.1 h
      refine iff_of_false (by simp) fun hall => ?_
      exact hother (hall.1.1 _ htaken)

theorem exists_reserve_ok_iff (rs : List Reservation) :
    (∃ m, empty.reserve rs = .ok m) ↔
      ∀ r ∈ rs, ∀ s ∈ rs, r.pin = s.pin → r.role = s.role := by
  have hsymm : Std.Symm fun r s : Reservation => r.pin = s.pin → r.role = s.role :=
    ⟨fun _ _ h he => (h he.symm).symm⟩
  rw [exists_reserve_ok_iff_pairwise]
  constructor
  · rintro ⟨-, hpairs⟩ r hr s hs
    exact hpairs.forall_of_forall (fun _ _ _ => rfl) hr hs
  · intro h
    have hfree : ∀ r ∈ rs, ∀ x, empty.role? r.pin = some x → x = r.role :=
      fun _ _ _ hx => nomatch hx
    exact ⟨hfree, List.pairwise_of_forall_mem_list h⟩

/-! ## Reserved pins -/

theorem roles_reserve (h : m.reserve rs = .ok n) :
    n.roles = m.roles.addAll (rs.map Reservation.entry) := by
  induction rs generalizing m with
  | nil =>
    cases h
    rfl
  | cons r rs ih =>
    rw [reserve] at h
    split at h
    · next m' hc =>
      rw [ih h, ← claimed_of_ok hc, roles_claimed, ← OrderedMap.addAll_append]
      rfl
    · cases h

theorem entries_of_reserve (h : empty.reserve rs = .ok m) :
    m.roles.entries = earliest Prod.fst (rs.map Reservation.entry) := by
  rw [roles_reserve h, OrderedMap.entries_addAll]
  exact List.filter_eq_self.2 fun e _ => by simp [empty]

/-- The pins that were asked for, each in the role that was asked for. -/
theorem role?_eq_some_iff_of_reserve (h : empty.reserve rs = .ok m) {pin : String}
    {role : PinRole} : m.role? pin = some role ↔ ⟨pin, role⟩ ∈ rs := by
  have hagree := (exists_reserve_ok_iff rs).1 ⟨m, h⟩
  rw [role?_of_reserve h, reservedRole?, Option.map_eq_some_iff]
  constructor
  · rintro ⟨r, hfind, rfl⟩
    have hpin : r.pin = pin := by simpa using List.find?_some hfind
    exact hpin ▸ List.mem_of_find?_eq_some hfind
  · intro hmem
    cases hfind : rs.find? fun r => r.pin = pin with
    | none => simpa using List.find?_eq_none.1 hfind _ hmem
    | some r =>
      have hpin : r.pin = pin := by simpa using List.find?_some hfind
      exact ⟨r, rfl, hagree r (List.mem_of_find?_eq_some hfind) _ hmem hpin⟩

/-- The order of the reservations decides only the order of the pins. -/
theorem role?_eq_of_reserve_perm (hm : empty.reserve rs = .ok m) (hn : empty.reserve ss = .ok n)
    (h : rs.Perm ss) (pin : String) : m.role? pin = n.role? pin := by
  ext role
  rw [role?_eq_some_iff_of_reserve hm, role?_eq_some_iff_of_reserve hn]
  exact h.mem_iff

theorem entries_perm_of_reserve (hm : empty.reserve rs = .ok m) (hn : empty.reserve ss = .ok n)
    (h : rs.Perm ss) : m.roles.entries.Perm n.roles.entries := by
  have hnodup : ∀ k : PinAssignment, k.roles.entries.Nodup := fun k =>
    List.Nodup.of_map Prod.fst k.roles.nodup_keys
  apply (List.perm_ext_iff_of_nodup (hnodup m) (hnodup n)).2
  rintro ⟨pin, role⟩
  rw [OrderedMap.mem_entries_iff, OrderedMap.mem_entries_iff]
  show m.role? pin = some role ↔ n.role? pin = some role
  rw [role?_eq_of_reserve_perm hm hn h]

/-! ## Failure -/

theorem reserve_append (m : PinAssignment) (rs ss : List Reservation) :
    m.reserve (rs ++ ss) = m.reserve rs >>= fun m' => m'.reserve ss := by
  induction rs generalizing m with
  | nil => rfl
  | cons r rs ih =>
    rw [List.cons_append, reserve, reserve]
    cases m.claim r.pin r.role with
    | ok m' => exact ih m'
    | error e => rfl

theorem split_of_reserve {r : Reservation} {e : PinClash} (h : m.reserve rs = .error (r, e)) :
    ∃ before after m', rs = before ++ r :: after ∧ m.reserve before = .ok m' ∧
      m'.claim r.pin r.role = .error e := by
  induction rs generalizing m with
  | nil => cases h
  | cons s rs ih =>
    rw [reserve] at h
    cases hc : m.claim s.pin s.role with
    | ok m' =>
      rw [hc] at h
      obtain ⟨before, after, m'', rfl, hb, he⟩ := ih h
      refine ⟨s :: before, after, m'', rfl, ?_, he⟩
      rw [reserve, hc]
      exact hb
    | error c =>
      rw [hc] at h
      cases h
      exact ⟨[], rs, m, rfl, rfl, hc⟩

/-- The reservation that fails is the first one for a pin that was asked for in another role. -/
theorem reserve_eq_error_iff {r : Reservation} {e : PinClash} :
    empty.reserve rs = .error (r, e) ↔ ∃ before after, rs = before ++ r :: after ∧
      (∀ s ∈ before, ∀ t ∈ before, s.pin = t.pin → s.role = t.role) ∧
      ⟨r.pin, e.existing⟩ ∈ before ∧ e.existing ≠ r.role ∧ e.pin = r.pin := by
  constructor
  · intro h
    obtain ⟨before, after, m', hsplit, hb, hclaim⟩ := split_of_reserve h
    obtain ⟨htaken, hother, hpin⟩ := claim_eq_error_iff.1 hclaim
    rw [role?_eq_some_iff_of_reserve hb] at htaken
    exact ⟨before, after, hsplit, (exists_reserve_ok_iff before).1 ⟨m', hb⟩, htaken, hother, hpin⟩
  · rintro ⟨before, after, rfl, hagree, htaken, hother, hpin⟩
    obtain ⟨m', hb⟩ := (exists_reserve_ok_iff before).2 hagree
    rw [← role?_eq_some_iff_of_reserve hb] at htaken
    have hclaim := claim_eq_error_iff.2 ⟨htaken, hother, hpin⟩
    rw [reserve_append, hb]
    show m'.reserve (r :: after) = _
    rw [reserve, hclaim]

end PinAssignment

end MotorSketch
