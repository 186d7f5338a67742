import MotorSketch.Proofs.OrderedMap

/-!
# Overlays and first writes

Writing a map over another one is writing its entries in order, so overlays follow the runs of
writes that made the maps, and a map written over itself changes nothing.  The other way to take
in entries is to write only those whose keys are new; of several with one key the first one counts.

    (m.overlay n).get? k = (n.get? k).or (m.get? k)                               (get?_overlay)
    m.overlay (n.insertAll es) = (m.overlay n).insertAll es                  (overlay_insertAll)
    (m.overlay n).overlay o = m.overlay (n.overlay o)                            (overlay_assoc)
    (m.addAll es).entries = m.entries ++ the earliest of es with keys not in m  (entries_addAll)
    (m.addAll es).get? k = (m.get? k).or (the value of the first e ∈ es with key k)
                                                                                  (get?_addAll)
-/

namespace MotorSketch

/-! ## First items -/

section Lists

variable {κ α : Type} [DecidableEq κ]

/-- The items whose keys have not occurred before. -/
def earliest (key : α → κ) : List α → List α
  | [] => []
  | x :: xs => x :: (earliest key xs).filter fun y => key y ≠ key x

theorem mem_earliest_iff {key : α → κ} {xs : List α} {x : α} :
    x ∈ earliest key xs ↔ (xs.find? fun y => key y = key x) = some x := by
  induction xs with
  | nil => simp [earliest]
  | cons y ys ih =>
    rw [earliest, List.mem_cons, List.mem_filter, ih]
    by_cases h : key y = key x
    · rw [List.find?_cons_of_pos (by simpa using h), Option.some_inj]
      constructor
      · rintro (rfl | ⟨-, hne⟩)
        · rfl
        · simp [h] at hne
      · rintro rfl
        exact .inl rfl
    · rw [List.find?_cons_of_neg (by simpa using h)]
      constructor
      · rintro (rfl | ⟨hfind, -⟩)
        · exact absurd rfl h
        · exact hfind
      · intro hfind
        exact .inr ⟨hfind, by simpa using Ne.symm h⟩

/-- Of the items with a key the first one is kept. -/
theorem filter_earliest (key : α → κ) (xs : List α) (k : κ) :
    ((earliest key xs).filter fun x => key x = k) = (xs.find? fun x => key x = k).toList := by
  induction xs with
  | nil => rfl
  | cons y ys ih =>
    rw [earliest]
    by_cases h : key y = k
    · have hrest : ((earliest key ys).filter fun x => key x ≠ key y).filter
          (fun x => key x = k) = [] := by
        rw [List.filter_filter, List.filter_eq_nil_iff]
        intro x _
        simp [h]
      rw [List.filter_cons_of_pos (by simpa using h), hrest,
        List.find?_cons_of_pos (by simpa using h), Option.toList_some]
    · have hrest : ((earliest key ys).filter fun x => key x ≠ key y).filter
          (fun x => key x = k) = (earliest key ys).filter fun x => key x = k := by
        rw [List.filter_filter]
        apply List.filter_congr
        intro x _
        by_cases hx : key x = k
        · simp [hx, Ne.symm h]
        · simp [hx]
      rw [List.filter_cons_of_neg (by simpa using h), hrest, ih,
        List.find?_cons_of_neg (by simpa using h)]

theorem earliest_map {β : Type} (key : β → κ) (f : α → β) (xs : List α) :
    earliest key (xs.map f) = (earliest (fun x => key (f x)) xs).map f := by
  induction xs with
  | nil => rfl
  | cons x xs ih => rw [List.map_cons, earliest, ih, earliest, List.map_cons, List.filter_map]; rfl

end Lists

namespace OrderedMap

variable {κ α : Type} [DecidableEq κ]

/-! ## Overlays -/

theorem get?_overlay (m n : OrderedMap κ α) (k : κ) :
    (m.overlay n).get? k = (n.get? k).or (m.get? k) := by
  obtain ⟨es, hn⟩ := n
  simp only [overlay, get?]
  induction es generalizing m with
  | nil => rfl
  | cons e es ih =>
    obtain ⟨j, v⟩ := e
    obtain ⟨hj, hn'⟩ := List.nodup_cons.1 hn
    have hrest := ih (m.insert j v) hn'
    rw [insertAll_cons, hrest]
    have hinsert : Entries.find? k (m.insert j v).entries =
        if k = j then some v else Entries.find? k m.entries := get?_insert m j k v
    rw [hinsert, Entries.find?]
    by_cases h : j = k
    · subst h
      have hnone : Entries.find? j es = none := Entries.find?_eq_none_iff.2 hj
      simp [hnone]
    · simp [h, Ne.symm h]

theorem keys_overlay (m n : OrderedMap κ α) :
    (m.overlay n).keys = m.keys ++ n.keys.filter (· ∉ m.keys) := by
  have hnew : n.keys.removeAll m.keys = n.keys.filter (· ∉ m.keys) := by
    apply List.filter_congr
    intro k _
    simp
  have hm : m.keys.eraseDups = m.keys := eraseDups_of_nodup m.nodup_keys
  have hn : n.keys.Nodup := n.nodup_keys
  have hkeys : Entries.keys n.entries = n.keys := rfl
  rw [overlay, keys_insertAll, hkeys, List.eraseDups_append, hnew, hm,
    eraseDups_of_nodup (hn.filter _)]

theorem overlay_insert (m n : OrderedMap κ α) (k : κ) (v : α) :
    m.overlay (n.insert k v) = (m.overlay n).insert k v := by
  apply ext_get?
  · have hmem : k ∈ (m.overlay n).keys ↔ k ∈ m.keys ∨ k ∈ n.keys := by
      rw [keys_overlay, List.mem_append, List.mem_filter]
      by_cases hm : k ∈ m.keys <;> simp [hm]
    rw [keys_overlay, keys_insert, keys_insert]
    simp only [hmem]
    by_cases hn : k ∈ n.keys
    · simp [hn, keys_overlay]
    · by_cases hm : k ∈ m.keys <;> simp [hn, hm, keys_overlay, List.filter_append]
  · intro k'
    rw [get?_overlay, get?_insert, get?_insert, get?_overlay]
    split <;> rfl

theorem overlay_insertAll (m n : OrderedMap κ α) (es : List (κ × α)) :
    m.overlay (n.insertAll es) = (m.overlay n).insertAll es := by
  induction es generalizing n with
  | nil => rfl
  | cons e es ih => rw [insertAll_cons, ih, overlay_insert, insertAll_cons]

/-- The entries of a concatenation are those of its parts, one written over the other. -/
theorem ofList_append (es fs : List (κ × α)) :
    ofList (es ++ fs) = (ofList es).overlay (ofList fs) := by
  rw [ofList, ofList, ofList, insertAll_append, overlay_insertAll]
  rfl

theorem overlay_empty (m : OrderedMap κ α) : m.overlay ∅ = m := rfl

theorem empty_overlay (m : OrderedMap κ α) : (∅ : OrderedMap κ α).overlay m = m :=
  OrderedMap.ext (entries_ofList m.nodup_keys)

/-- The third map is a run of writes, and writes to an overlay are writes to its second map. -/
theorem overlay_assoc (m n o : OrderedMap κ α) :
    (m.overlay n).overlay o = m.overlay (n.overlay o) :=
  (overlay_insertAll m n o.entries).symm

theorem overlay_ofList (m : OrderedMap κ α) (es : List (κ × α)) :
    m.overlay (ofList es) = m.insertAll es := by
  rw [ofList, overlay_insertAll, overlay_empty]

omit [DecidableEq κ] in
theorem isEmpty_iff {m : OrderedMap κ α} : m.isEmpty = true ↔ m.keys = [] := by
  rw [isEmpty, List.isEmpty_iff, keys, Entries.keys, List.map_eq_nil_iff]

theorem isEmpty_overlay (m n : OrderedMap κ α) :
    (m.overlay n).isEmpty = (m.isEmpty && n.isEmpty) := by
  rw [Bool.eq_iff_iff, Bool.and_eq_true, isEmpty_iff, isEmpty_iff, isEmpty_iff, keys_overlay,
    List.append_eq_nil_iff]
  constructor
  · rintro ⟨hm, hn⟩
    rw [hm] at hn
    exact ⟨hm, by simpa using hn⟩
  · rintro ⟨hm, hn⟩
    exact ⟨hm, by rw [hn, List.filter_nil]⟩

theorem overlay_self (m : OrderedMap κ α) : m.overlay m = m := by
  apply ext_get?
  · have hnone : m.keys.filter (· ∉ m.keys) = [] := by
      rw [List.filter_eq_nil_iff]
      intro k hk
      simpa using hk
    rw [keys_overlay, hnone, List.append_nil]
  · intro k
    rw [get?_overlay]
    cases m.get? k <;> rfl

/-! ## First writes -/

/-- Writes the entries whose keys are new. -/
def addAll (m : OrderedMap κ α) (es : List (κ × α)) : OrderedMap κ α :=
  es.foldl (fun m e => if e.1 ∈ m.keys then m else m.insert e.1 e.2) m

theorem addAll_cons (m : OrderedMap κ α) (e : κ × α) (es : List (κ × α)) :
    m.addAll (e :: es) = (if e.1 ∈ m.keys then m else m.insert e.1 e.2).addAll es := rfl

theorem addAll_append (m : OrderedMap κ α) (es fs : List (κ × α)) :
    m.addAll (es ++ fs) = (m.addAll es).addAll fs :=
  List.foldl_append

theorem entries_addAll (m : OrderedMap κ α) (es : List (κ × α)) :
    (m.addAll es).entries = m.entries ++ (earliest Prod.fst es).filter (fun e => e.1 ∉ m.keys) := by
  induction es generalizing m with
  | nil => exact (List.append_nil _).symm
  | cons e es ih =>
    rw [addAll_cons, ih, earliest]
    by_cases he : e.1 ∈ m.keys
    · rw [if_pos he, List.filter_cons_of_neg (by simpa using he), List.filter_filter]
      congr 1
      apply List.filter_congr
      intro x _
      by_cases hx : x.1 ∈ m.keys
      · simp [hx]
      · have hne : x.1 ≠ e.1 := fun h => hx (h ▸ he)
        simp [hx, hne]
    · have hentries : (m.insert e.1 e.2).entries = m.entries ++ [e] :=
        Entries.insert_of_not_mem he
      have hkeys : (m.insert e.1 e.2).keys = m.keys ++ [e.1] := by rw [keys_insert, if_neg he]
      rw [if_neg he, hentries, hkeys, List.filter_cons_of_pos (by simpa using he),
        List.append_assoc, List.singleton_append, List.filter_filter]
      congr 2
      apply List.filter_congr
      intro x _
      simp [not_or]

theorem mem_keys_addAll {m : OrderedMap κ α} {es : List (κ × α)} {k : κ} :
    k ∈ (m.addAll es).keys ↔ k ∈ m.keys ∨ k ∈ Entries.keys es := by
  induction es generalizing m with
  | nil => simp [addAll]
  | cons e es ih =>
    rw [addAll_cons, ih, Entries.keys_cons, List.mem_cons]
    by_cases he : e.1 ∈ m.keys
    · rw [if_pos he]
      constructor
      · exact Or.imp_right .inr
      · rintro (h | rfl | h)
        · exact .inl h
        · exact .inl he
        · exact .inr h
    · rw [if_neg he, keys_insert, if_neg he, List.mem_append, List.mem_singleton, or_assoc]

theorem addAll_eq_self {m : OrderedMap κ α} {es : List (κ × α)}
    (h : ∀ e ∈ es, e.1 ∈ m.keys) : m.addAll es = m := by
  apply OrderedMap.ext
  rw [entries_addAll, List.filter_eq_nil_iff.2, List.append_nil]
  intro e he
  have hmem := List.mem_of_find?_eq_some (mem_earliest_iff.1 he)
  simpa using h e hmem

/-- What is there already wins, then the first of the added entries. -/
theorem get?_addAll (m : OrderedMap κ α) (es : List (κ × α)) (k : κ) :
    (m.addAll es).get? k = (m.get? k).or ((es.find? fun e => e.1 = k).map Prod.snd) := by
  induction es generalizing m with
  | nil => simp [addAll]
  | cons e es ih =>
    rw [addAll_cons, ih]
    by_cases he : e.1 = k
    · rw [List.find?_cons_of_pos (by simpa using he), Option.map_some]
      subst he
      by_cases hm : e.1 ∈ m.keys
      · rw [if_pos hm]
        obtain ⟨v, hv⟩ := exists_get?_of_mem_keys hm
        rw [hv, Option.some_or, Option.some_or]
      · rw [if_neg hm, get?_insert, if_pos rfl, get?_eq_none_iff.2 hm, Option.some_or,
          Option.none_or]
    · rw [List.find?_cons_of_neg (by simpa using he)]
      congr 1
      split
      · rfl
      · rw [get?_insert, if_neg (Ne.symm he)]

theorem entries_addAll_perm {m n : OrderedMap κ α} (h : m.entries.Perm n.entries)
    (es : List (κ × α)) : (m.addAll es).entries.Perm (n.addAll es).entries := by
  have hkeys : ∀ k, k ∈ m.keys ↔ k ∈ n.keys := fun k => (h.map Prod.fst).mem_iff
  have hnew : (earliest Prod.fst es).filter (fun e => e.1 ∉ m.keys) =
      (earliest Prod.fst es).filter fun e => e.1 ∉ n.keys := by
    simp only [hkeys]
  rw [entries_addAll, entries_addAll, hnew]
  exact h.append_right _

/-- Adding entries to a map that is added to already adds those that are left. -/
theorem entries_addAll_addAll (m : OrderedMap κ α) (es fs : List (κ × α)) :
    ((m.addAll es).addAll fs).entries =
      (m.addAll es).entries ++ (m.addAll fs).entries.filter fun e => e.1 ∉ (m.addAll es).keys := by
  have hold : m.entries.filter (fun e => e.1 ∉ (m.addAll es).keys) = [] := by
    rw [List.filter_eq_nil_iff]
    intro e he
    have hk : e.1 ∈ m.keys := List.mem_map_of_mem he
    simpa using mem_keys_addAll.2 (.inl hk)
  rw [entries_addAll (m.addAll es), entries_addAll m fs, List.filter_append, hold, List.nil_append,
    List.filter_filter]
  congr 1
  apply List.filter_congr
  intro e _
  by_cases he : e.1 ∈ m.keys
  · simp [he, mem_keys_addAll]
  · simp [he]

end OrderedMap

end MotorSketch
