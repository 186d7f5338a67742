import MotorSketch.Proofs.OrderedMap.Overlay

/-!
# First items of a list

The items whose keys have not occurred before are picked from a list in order, each at the first
place of its key, one for every key.  That is all there is to know about them (`Firsts`).  A key may
occur more than once with the same item, so which items are picked does not fix their order: the
places do.

    p ∈ earliest (key of the item) xs.zipIdx ↔ p is the first place of its key     (mem_places_iff)
    Firsts key xs picked ↔ picked = earliest key xs                                    (firsts_iff)
    earliest key (xs ++ ys) = earliest key xs ++ those of ys with further keys    (earliest_append)
-/

namespace MotorSketch

section Lists

/-- Lists in one strict order are known from what is in them. -/
theorem eq_of_pairwise_of_mem_iff {α : Type} {lt : α → α → Prop}
    (hasymm : ∀ a b, lt a b → ¬lt b a) {xs ys : List α} (hxs : xs.Pairwise lt)
    (hys : ys.Pairwise lt) (h : ∀ a, a ∈ xs ↔ a ∈ ys) : xs = ys := by
  have hne : ∀ a b, lt a b → a ≠ b := fun a b hlt he => hasymm a b hlt (he ▸ hlt)
  have hperm : xs.Perm ys :=
    (List.perm_ext_iff_of_nodup (hxs.imp (hne _ _)) (hys.imp (hne _ _))).2 h
  exact List.Perm.eq_of_pairwise (fun a b _ _ hlt hgt => absurd hgt (hasymm a b hlt)) hxs hys hperm

variable {κ α : Type} [DecidableEq κ]

/-! ## Keys -/

theorem earliest_sublist (key : α → κ) (xs : List α) : (earliest key xs).Sublist xs := by
  induction xs with
  | nil => exact List.Sublist.refl []
  | cons x xs ih => exact (List.filter_sublist.trans ih).cons_cons x

theorem nodup_map_earliest (key : α → κ) (xs : List α) : ((earliest key xs).map key).Nodup := by
  induction xs with
  | nil => exact List.nodup_nil
  | cons x xs ih =>
    rw [earliest, List.map_cons, List.nodup_cons]
    constructor
    · simp
    · exact ih.sublist (List.filter_sublist.map key)

theorem exists_mem_earliest (key : α → κ) {xs : List α} {x : α} (hx : x ∈ xs) :
    ∃ y ∈ earliest key xs, key y = key x := by
  cases h : xs.find? fun y => key y = key x with
  | none => simpa using List.find?_eq_none.1 h x hx
  | some y =>
    have hy : key y = key x := by simpa using List.find?_some h
    exact ⟨y, mem_earliest_iff.2 (hy ▸ h), hy⟩

theorem mem_map_earliest {key : α → κ} {xs : List α} {k : κ} :
    k ∈ (earliest key xs).map key ↔ k ∈ xs.map key := by
  constructor
  · exact fun h => ((earliest_sublist key xs).map key).subset h
  · intro h
    obtain ⟨x, hx, rfl⟩ := List.mem_map.1 h
    obtain ⟨y, hy, hkey⟩ := exists_mem_earliest key hx
    exact List.mem_map.2 ⟨y, hy, hkey⟩

/-- The second list adds the items with further keys. -/
theorem earliest_append (key : α → κ) (xs ys : List α) :
    earliest key (xs ++ ys) =
      earliest key xs ++ (earliest key ys).filter fun y => key y ∉ (earliest key xs).map key := by
  simp only [mem_map_earliest]
  induction xs with
  | nil => exact (List.filter_eq_self.2 fun y _ => by simp).symm
  | cons x xs ih =>
    rw [List.cons_append, earliest, ih, earliest, List.filter_append, List.filter_filter,
      List.cons_append]
    congr 2
    apply List.filter_congr
    intro y _
    simp [not_or]

/-! ## Places -/

/-- The items stand at increasing places. -/
theorem pairwise_zipIdx (xs : List α) : xs.zipIdx.Pairwise fun p q => p.2 < q.2 := by
  have hplaces : (xs.zipIdx.map Prod.snd).Pairwise (· < ·) := by
    rw [List.zipIdx_map_snd]
    exact List.pairwise_lt_range'
  exact List.pairwise_map.1 hplaces

theorem zipIdx_eq_of_place {xs : List α} {p q : α × Nat} (hp : p ∈ xs.zipIdx) (hq : q ∈ xs.zipIdx)
    (h : p.2 = q.2) : p = q := by
  have hitem : some p.1 = some q.1 := by
    rw [← List.mem_zipIdx_iff_getElem?.1 hp, ← List.mem_zipIdx_iff_getElem?.1 hq, h]
  exact Prod.ext (Option.some_inj.1 hitem) h

/-- What is found stands at the first place at which it can be found. -/
theorem place_le_of_find? {xs : List α} {found : α × Nat → Bool} {p q : α × Nat}
    (hp : xs.zipIdx.find? found = some p) (hq : q ∈ xs.zipIdx) (hfound : found q = true) :
    p.2 ≤ q.2 := by
  obtain ⟨-, before, after, hsplit, hbefore⟩ := List.find?_eq_some_iff_append.1 hp
  have hplaces := pairwise_zipIdx xs
  rw [hsplit] at hq hplaces
  obtain ⟨-, hafter, -⟩ := List.pairwise_append.1 hplaces
  rcases List.mem_append.1 hq with hq | hq
  · have hnot := hbefore q hq
    simp [hfound] at hnot
  · rcases List.mem_cons.1 hq with rfl | hq
    · exact Nat.le_refl _
    · exact Nat.le_of_lt ((List.pairwise_cons.1 hafter).1 q hq)

theorem mem_places_iff {key : α → κ} {xs : List α} {p : α × Nat} :
    p ∈ earliest (fun q => key q.1) xs.zipIdx ↔
      p ∈ xs.zipIdx ∧ ∀ q ∈ xs.zipIdx, key q.1 = key p.1 → p.2 ≤ q.2 := by
  constructor
  · intro h
    refine ⟨(earliest_sublist _ _).subset h, fun q hq hkey => ?_⟩
    exact place_le_of_find? (mem_earliest_iff.1 h) hq (by simpa using hkey)
  · rintro ⟨hp, hfirst⟩
    obtain ⟨q, hq, hkey⟩ := exists_mem_earliest (fun q => key q.1) hp
    have hmem : q ∈ xs.zipIdx := (earliest_sublist _ _).subset hq
    have hle : q.2 ≤ p.2 := place_le_of_find? (mem_earliest_iff.1 hq) hp (by simpa using hkey.symm)
    have hplace : p.2 = q.2 := Nat.le_antisymm (hfirst q hmem hkey) hle
    exact zipIdx_eq_of_place hp hmem hplace ▸ hq

theorem map_fst_places (key : α → κ) (xs : List α) :
    (earliest (fun q => key q.1) xs.zipIdx).map Prod.fst = earliest key xs := by
  rw [← earliest_map, List.zipIdx_map_fst]

/-! ## What is picked -/

/-- The items are picked from the list in order, each at the first place of its key, and every key
has one. -/
structure Firsts (key : α → κ) (xs picked : List α) : Prop where
  places : ∃ places : List (α × Nat), places.Sublist xs.zipIdx ∧ picked = places.map Prod.fst ∧
    ∀ p ∈ places, ∀ q ∈ xs.zipIdx, key q.1 = key p.1 → p.2 ≤ q.2
  distinct : (picked.map key).Nodup
  complete : ∀ x ∈ xs, ∃ y ∈ picked, key y = key x

theorem firsts_earliest (key : α → κ) (xs : List α) : Firsts key xs (earliest key xs) where
  places := ⟨_, earliest_sublist _ _, (map_fst_places key xs).symm,
    fun _ hp => (mem_places_iff.1 hp).2⟩
  distinct := nodup_map_earliest key xs
  complete _ hx := exists_mem_earliest key hx

/-- The places of a list are in order, so places are known from which they are. -/
theorem places_ext {xs : List α} {ps qs : List (α × Nat)} (hp : ps.Sublist xs.zipIdx)
    (hq : qs.Sublist xs.zipIdx) (h : ∀ p, p ∈ ps ↔ p ∈ qs) : ps = qs :=
  eq_of_pairwise_of_mem_iff (fun _ _ hlt hgt => Nat.lt_asymm hlt hgt)
    ((pairwise_zipIdx xs).sublist hp) ((pairwise_zipIdx xs).sublist hq) h

theorem Firsts.eq_earliest {key : α → κ} {xs picked : List α} (h : Firsts key xs picked) :
    picked = earliest key xs := by
  obtain ⟨places, hsub, rfl, hfirst⟩ := h.places
  rw [← map_fst_places, places_ext hsub (earliest_sublist (fun q => key q.1) _)]
  intro p
  rw [mem_places_iff]
  constructor
  · exact fun hp => ⟨hsub.subset hp, hfirst p hp⟩
  · rintro ⟨hp, hmin⟩
    obtain ⟨y, hy, hkey⟩ := h.complete p.1 (List.fst_mem_of_mem_zipIdx hp)
    obtain ⟨q, hq, rfl⟩ := List.mem_map.1 hy
    -- Both places are the first one of the key.
    have hplace : p.2 = q.2 :=
      Nat.le_antisymm (hmin q (hsub.subset hq) hkey) (hfirst q hq p hp hkey.symm)
    exact zipIdx_eq_of_place hp (hsub.subset hq) hplace ▸ hq

theorem firsts_iff {key : α → κ} {xs picked : List α} :
    Firsts key xs picked ↔ picked = earliest key xs :=
  ⟨Firsts.eq_earliest, fun h => h ▸ firsts_earliest key xs⟩

end Lists

end MotorSketch
