import Mathlib.Data.List.Basic
import MotorSketch.OrderedMap

/-!
# Ordered maps by keys and values

An ordered map is known by the order of its keys and the value of each key.  A run of writes puts
the keys in the order in which they first occur, and the last write of a key decides its value.

    m.keys = n.keys → (∀ k, m.get? k = n.get? k) → m = n                      (ext_get?)
    (m.insertAll es).keys = (m.keys ++ Entries.keys es).eraseDups             (keys_insertAll)
    (ofList (xs.map fun x => (key x, value x))).entries =
      (latest key xs).map fun x => (key x, value x)                           (entries_ofList_map)

The value after a run of writes is an instance of a fact about any state with a part that each
step either overwrites or leaves alone (`foldl_overwrite`).
-/

namespace MotorSketch

/-! ## Runs of steps -/

/-- A part of the state that each step overwrites or leaves alone is, after all steps, what the
last overwriting one made of it. -/
theorem foldl_overwrite {σ α β : Type} {step : σ → α → σ} (inv : σ → Prop) (view : σ → β)
    {writes : α → Bool} {value : α → β} (hinv : ∀ s a, inv s → inv (step s a))
    (hview : ∀ s a, inv s → view (step s a) = if writes a then value a else view s)
    (xs : List α) (s : σ) (hs : inv s) :
    view (xs.foldl step s) = ((xs.filter writes).getLast?.map value).getD (view s) := by
  induction xs generalizing s with
  | nil => rfl
  | cons x xs ih =>
    rw [List.foldl_cons, ih (step s x) (hinv s x hs), hview s x hs]
    cases hx : writes x with
    | false => simp [hx]
    | true => cases h : (xs.filter writes).getLast? <;> simp [hx, h, List.getLast?_cons]

/-- A part of the state to which each step writes items has, after all steps, all items written
to it. -/
theorem foldl_writes {σ α β γ : Type} {step : σ → β → σ} (view : σ → γ) (write : γ → α → γ)
    {items : β → List α} (h : ∀ s b, view (step s b) = (items b).foldl write (view s))
    (xs : List β) (s : σ) :
    view (xs.foldl step s) = (xs.flatMap items).foldl write (view s) := by
  induction xs generalizing s with
  | nil => rfl
  | cons x xs ih => rw [List.foldl_cons, ih, h, List.flatMap_cons, List.foldl_append]

/-! ## Lists without repetitions -/

section Lists

variable {κ α : Type} [DecidableEq κ]

theorem eraseDups_of_nodup {ks : List κ} (h : ks.Nodup) : ks.eraseDups = ks := by
  induction ks with
  | nil => rfl
  | cons k ks ih =>
    obtain ⟨hk, hn⟩ := List.nodup_cons.1 h
    have hf : ks.filter (fun b => !b == k) = ks :=
      List.filter_eq_self.2 fun a ha => by simpa using fun e : a = k => hk (e ▸ ha)
    rw [List.eraseDups_cons, hf, ih hn]

theorem eraseDups_map {β : Type} [DecidableEq β] {f : κ → β} (hf : ∀ a b, f a = f b → a = b) :
    ∀ ks : List κ, (ks.map f).eraseDups = ks.eraseDups.map f
  | [] => rfl
  | k :: ks => by
    have hp : ks.filter ((fun b => !b == f k) ∘ f) = ks.filter fun b => !b == k :=
      List.filter_congr fun b _ => by
        have : f b = f k ↔ b = k := ⟨hf b k, congrArg f⟩
        simp [this]
    have := List.length_filter_le (fun b => !b == k) ks
    rw [List.map_cons, List.eraseDups_cons, List.eraseDups_cons, List.map_cons, List.filter_map,
      hp, eraseDups_map hf]
termination_by ks => ks.length

/-- For each key, in order of first occurrence, the last item with this key. -/
def latest (key : α → κ) (xs : List α) : List α :=
  (xs.map key).eraseDups.filterMap fun k => (xs.filter fun x => key x = k).getLast?

/-- Only which items share a key matters, not what the keys are. -/
theorem latest_comp {β : Type} [DecidableEq β] {f : κ → β} (hf : ∀ a b, f a = f b → a = b)
    (key : α → κ) (xs : List α) : latest (fun x => f (key x)) xs = latest key xs := by
  have hmap : xs.map (fun x => f (key x)) = (xs.map key).map f := by simp
  rw [latest, latest, hmap, eraseDups_map hf, List.filterMap_map]
  apply List.filterMap_congr
  intro k _
  have hp : (fun x => decide (f (key x) = f k)) = fun x => decide (key x = k) := by
    funext x
    simpa using ⟨hf (key x) k, congrArg f⟩
  simp only [Function.comp_apply, hp]

theorem latest_ne_nil (key : α → κ) {xs : List α} (h : xs ≠ []) : latest key xs ≠ [] := by
  obtain ⟨x, xs, rfl⟩ := List.exists_cons_of_ne_nil h
  have hlast : ((x :: xs).filter fun y => key y = key x).getLast? ≠ none := by simp
  obtain ⟨y, hy⟩ := Option.ne_none_iff_exists'.1 hlast
  rw [latest, List.map_cons, List.eraseDups_cons, List.filterMap_cons, hy]
  exact List.cons_ne_nil _ _

theorem flatMap_filter {β : Type} (p : α → Bool) (f : α → List β) (xs : List α) :
    (xs.filter p).flatMap f = xs.flatMap fun x => if p x then f x else [] := by
  induction xs with
  | nil => rfl
  | cons x xs ih => cases h : p x <;> simp [h, ih]

end Lists

theorem Entries.insert_of_not_mem {κ α : Type} [DecidableEq κ] {k : κ} {v : α}
    {es : List (κ × α)} (h : k ∉ Entries.keys es) : Entries.insert k v es = es ++ [(k, v)] := by
  induction es with
  | nil => rfl
  | cons e es ih =>
    obtain ⟨j, w⟩ := e
    rw [Entries.keys_cons, List.mem_cons, not_or] at h
    rw [Entries.insert, if_neg (Ne.symm h.1), ih h.2, List.cons_append]

theorem Entries.exists_insert_of_mem {κ α : Type} [DecidableEq κ] {k : κ} {es : List (κ × α)}
    (h : k ∈ Entries.keys es) (v : α) :
    ∃ before u after, es = before ++ (k, u) :: after ∧
      Entries.insert k v es = before ++ (k, v) :: after := by
  induction es with
  | nil => cases h
  | cons e es ih =>
    obtain ⟨j, w⟩ := e
    by_cases hj : j = k
    · subst hj
      exact ⟨[], w, es, rfl, if_pos rfl⟩
    · rw [Entries.keys_cons, List.mem_cons] at h
      obtain ⟨before, u, after, rfl, hinsert⟩ := ih (h.resolve_left (Ne.symm hj))
      exact ⟨(j, w) :: before, u, after, rfl, by rw [Entries.insert, if_neg hj, hinsert]; rfl⟩

namespace OrderedMap

variable {κ α : Type} [DecidableEq κ]

/-! ## Keys and values -/

theorem entries_eq_filterMap (m : OrderedMap κ α) :
    m.entries = m.keys.filterMap fun k => (m.get? k).map fun v => (k, v) := by
  obtain ⟨es, hn⟩ := m
  simp only [keys, get?]
  induction es with
  | nil => rfl
  | cons e es ih =>
    obtain ⟨k, v⟩ := e
    obtain ⟨hk, hn'⟩ := List.nodup_cons.1 hn
    have hrest : (Entries.keys es).filterMap
          (fun k' => (Entries.find? k' ((k, v) :: es)).map fun v => (k', v)) =
        (Entries.keys es).filterMap fun k' => (Entries.find? k' es).map fun v => (k', v) := by
      apply List.filterMap_congr
      intro k' hk'
      have hne : k ≠ k' := fun e => hk (e ▸ hk')
      simp [Entries.find?, hne]
    rw [Entries.keys_cons, List.filterMap_cons, hrest, ← ih hn']
    simp [Entries.find?]

theorem values_eq_filterMap (m : OrderedMap κ α) : m.values = m.keys.filterMap m.get? := by
  rw [values, entries_eq_filterMap, List.map_filterMap]
  simp [Function.comp_def]

omit [DecidableEq κ] in
theorem keys_eq_nil_iff {m : OrderedMap κ α} : m.keys = [] ↔ m = ∅ := by
  constructor
  · exact fun h => OrderedMap.ext (List.map_eq_nil_iff.1 h)
  · rintro rfl
    rfl

theorem ext_get? {m n : OrderedMap κ α} (hk : m.keys = n.keys) (hg : ∀ k, m.get? k = n.get? k) :
    m = n := by
  apply OrderedMap.ext
  rw [entries_eq_filterMap m, entries_eq_filterMap n, hk]
  simp only [hg]

/-! ## Runs of writes -/

theorem keys_insertAll (m : OrderedMap κ α) (es : List (κ × α)) :
    (m.insertAll es).keys = (m.keys ++ Entries.keys es).eraseDups := by
  induction es generalizing m with
  | nil =>
    rw [insertAll_nil, Entries.keys_nil, List.append_nil]
    exact (eraseDups_of_nodup m.nodup_keys).symm
  | cons e es ih =>
    obtain ⟨k, v⟩ := e
    rw [insertAll_cons, ih, keys_insert, Entries.keys_cons]
    split
    · next h =>
      rw [List.eraseDups_append, List.eraseDups_append, List.cons_removeAll]
      simp [h]
    · next h => rw [List.append_assoc, List.singleton_append]

theorem get?_insertAll (m : OrderedMap κ α) (es : List (κ × α)) (k : κ) :
    (m.insertAll es).get? k =
      ((es.filter fun e => e.1 = k).getLast?.map fun e => some e.2).getD (m.get? k) := by
  refine foldl_overwrite (fun _ => True) (fun m => m.get? k) ?_ ?_ es m trivial
  · exact fun _ _ _ => trivial
  · intro m e _
    rw [get?_insert]
    by_cases h : e.1 = k
    · simp [h]
    · simp [h, Ne.symm h]

theorem get?_ofList_map (key : α → κ) {β : Type} (value : α → β) (xs : List α) (k : κ) :
    (ofList (xs.map fun x => (key x, value x))).get? k =
      (xs.filter fun x => key x = k).getLast?.map value := by
  rw [ofList, get?_insertAll, List.filter_map, List.getLast?_map]
  cases h : (xs.filter fun x => key x = k).getLast? <;> simp [Function.comp_def, h]

theorem entries_ofList_map (key : α → κ) {β : Type} (value : α → β) (xs : List α) :
    (ofList (xs.map fun x => (key x, value x))).entries =
      (latest key xs).map fun x => (key x, value x) := by
  have hkeys : (ofList (xs.map fun x => (key x, value x))).keys = (xs.map key).eraseDups := by
    simp [ofList, keys_insertAll, Entries.keys, Function.comp_def]
  rw [entries_eq_filterMap, hkeys, latest, List.map_filterMap]
  apply List.filterMap_congr
  intro k _
  rw [get?_ofList_map]
  cases h : (xs.filter fun x => key x = k).getLast? with
  | none => rfl
  | some x =>
    have hx : key x = k := by
      have := List.mem_filter.1 (List.mem_of_getLast? h)
      simpa using this.2
    simp [hx]

theorem insert_insert (m : OrderedMap κ α) (k : κ) (u v : α) :
    (m.insert k u).insert k v = m.insert k v := by
  apply ext_get?
  · have hk : k ∈ (m.insert k u).keys := Entries.mem_keys_insert.2 (.inl rfl)
    rw [keys_insert, if_pos hk, keys_insert, keys_insert]
  · intro k'
    rw [get?_insert, get?_insert, get?_insert]
    split <;> rfl

/-- A key that is there keeps its place. -/
theorem insert_comm {m : OrderedMap κ α} {k k' : κ} (hk : k ∈ m.keys) (hne : k' ≠ k) (v w : α) :
    (m.insert k v).insert k' w = (m.insert k' w).insert k v := by
  have hk' : k ∈ (m.insert k' w).keys := Entries.mem_keys_insert.2 (.inr hk)
  apply ext_get?
  · rw [keys_insert, keys_insert, if_pos hk, keys_insert _ k, if_pos hk', keys_insert]
  · intro j
    rw [get?_insert, get?_insert, get?_insert, get?_insert]
    by_cases hj : j = k
    · rw [if_pos hj, if_pos hj, if_neg (hj ▸ hne.symm)]
    · rw [if_neg hj, if_neg hj]

theorem insertAll_insert {m : OrderedMap κ α} {k : κ} (hk : k ∈ m.keys) (v : α)
    {es : List (κ × α)} (h : k ∉ Entries.keys es) :
    (m.insert k v).insertAll es = (m.insertAll es).insert k v := by
  induction es generalizing m with
  | nil => rfl
  | cons e es ih =>
    rw [Entries.keys_cons, List.mem_cons, not_or] at h
    rw [insertAll_cons, insert_comm hk (Ne.symm h.1)]
    exact ih (Entries.mem_keys_insert.2 (.inr hk)) h.2

/-- Entries with distinct keys are kept as they are. -/
theorem entries_ofList {es : List (κ × α)} (h : (Entries.keys es).Nodup) :
    (ofList es).entries = es := by
  have hstep : ∀ (es : List (κ × α)) (m : OrderedMap κ α),
      (Entries.keys (m.entries ++ es)).Nodup → (m.insertAll es).entries = m.entries ++ es := by
    intro es
    induction es with
    | nil => simp
    | cons e es ih =>
      intro m hn
      have hk : e.1 ∉ Entries.keys m.entries := by
        intro hm
        rw [Entries.keys_append, List.nodup_append] at hn
        exact hn.2.2 e.1 hm e.1 (by simp) rfl
      have hi : (m.insert e.1 e.2).entries = m.entries ++ [e] := Entries.insert_of_not_mem hk
      rw [insertAll_cons, ih _ (by rw [hi]; simpa using hn), hi, List.append_assoc]
      rfl
  exact hstep es ∅ h

/-- A part of the state to which each step writes entries has, after all steps, all entries
written to it. -/
theorem foldl_insertAll {σ β : Type} {step : σ → β → σ} (view : σ → OrderedMap κ α)
    {entries : β → List (κ × α)} (h : ∀ s b, view (step s b) = (view s).insertAll (entries b))
    (xs : List β) (s : σ) : view (xs.foldl step s) = (view s).insertAll (xs.flatMap entries) :=
  foldl_writes view (fun (m : OrderedMap κ α) (e : κ × α) => m.insert e.1 e.2) h xs s

theorem mem_keys_of_get? {m : OrderedMap κ α} {k : κ} {v : α} (h : m.get? k = some v) :
    k ∈ m.keys := by
  by_contra hn
  rw [get?_eq_none_iff.2 hn] at h
  cases h

theorem exists_get?_of_mem_keys {m : OrderedMap κ α} {k : κ} (h : k ∈ m.keys) :
    ∃ v, m.get? k = some v := by
  rw [← Option.ne_none_iff_exists', Ne, get?_eq_none_iff, not_not]
  exact h

theorem mem_entries_iff {m : OrderedMap κ α} {k : κ} {v : α} :
    (k, v) ∈ m.entries ↔ m.get? k = some v := by
  rw [entries_eq_filterMap, List.mem_filterMap]
  constructor
  · rintro ⟨k', -, h⟩
    obtain ⟨v', hv, he⟩ := Option.map_eq_some_iff.1 h
    cases he
    exact hv
  · intro h
    exact ⟨k, mem_keys_of_get? h, by rw [h, Option.map_some]⟩

/-- Writing what is there already changes nothing. -/
theorem insert_eq_self {m : OrderedMap κ α} {k : κ} {v : α} (h : m.get? k = some v) :
    m.insert k v = m := by
  refine ext_get? (by rw [keys_insert, if_pos (mem_keys_of_get? h)]) fun k' => ?_
  rw [get?_insert]
  split
  · next e => rw [e, h]
  · rfl

/-- An entry that every item writes again stays where the first one put it. -/
theorem entries_ofList_shared {β : Type} {l : κ} {v : α} (key : β → κ) (value : β → α)
    (hl : ∀ x, key x ≠ l) (xs : List β) :
    (ofList (xs.flatMap fun x => [(l, v), (key x, value x)])).entries =
      if xs = [] then []
      else (l, v) :: (latest key xs).map fun x => (key x, value x) := by
  have again : ∀ (xs : List β) (m : OrderedMap κ α), m.get? l = some v →
      m.insertAll (xs.flatMap fun x => [(l, v), (key x, value x)]) =
        m.insertAll (xs.map fun x => (key x, value x)) := by
    intro xs
    induction xs with
    | nil => exact fun _ _ => rfl
    | cons x xs ih =>
      intro m hm
      rw [List.flatMap_cons, List.cons_append, insertAll_cons, insert_eq_self hm,
        List.singleton_append, insertAll_cons, List.map_cons, insertAll_cons]
      exact ih _ (by rw [get?_insert, if_neg (hl x).symm, hm])
  have behind : ∀ (es : List (κ × α)) (m n : OrderedMap κ α), l ∉ Entries.keys es →
      m.entries = (l, v) :: n.entries →
        (m.insertAll es).entries = (l, v) :: (n.insertAll es).entries := by
    intro es
    induction es with
    | nil => exact fun _ _ _ h => h
    | cons e es ih =>
      intro m n hn h
      rw [Entries.keys_cons, List.mem_cons, not_or] at hn
      refine ih _ _ hn.2 ?_
      show Entries.insert e.1 e.2 m.entries = _
      rw [h, Entries.insert, if_neg hn.1]
      rfl
  cases xs with
  | nil => rfl
  | cons x xs =>
    have hkeys : l ∉ Entries.keys ((x :: xs).map fun x => (key x, value x)) := by
      simpa [Entries.keys] using ⟨(hl x).symm, fun y _ => hl y⟩
    rw [if_neg (List.cons_ne_nil x xs), ← entries_ofList_map, ofList, List.flatMap_cons,
      List.cons_append, insertAll_cons, List.singleton_append, insertAll_cons, again xs]
    · exact behind _ ((∅ : OrderedMap κ α).insert l v) ∅ hkeys rfl
    · rw [get?_insert, if_neg (hl x).symm, get?_insert, if_pos rfl]

end OrderedMap

end MotorSketch
