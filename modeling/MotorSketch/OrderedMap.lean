/-!
# Ordered maps

A map keeps its entries in the order in which their keys first came.  Writing a key that is
present replaces the value where it stands, writing a new key appends it, and erasing a key
closes the gap.

    (m.insert k v).get? k' = if k' = k then some v else m.get? k'              (get?_insert)
    (m.insert k v).keys = if k ∈ m.keys then m.keys else m.keys ++ [k]         (keys_insert)
    (m.erase k).get? k' = if k' = k then none else m.get? k'                   (get?_erase)
    (m.erase k).keys = m.keys.filter (· ≠ k)                                   (keys_erase)

`Entries` holds the operations on bare lists of entries, which other types with keyed parts use
as well; `OrderedMap` adds that the keys are distinct.
-/

namespace MotorSketch

namespace Entries

variable {κ α : Type}

/-! ## Algorithm -/

def keys (es : List (κ × α)) : List κ := es.map Prod.fst

@[simp] theorem keys_nil : keys ([] : List (κ × α)) = [] := rfl

@[simp] theorem keys_cons (e : κ × α) (es : List (κ × α)) : keys (e :: es) = e.1 :: keys es := rfl

@[simp] theorem keys_append (es fs : List (κ × α)) : keys (es ++ fs) = keys es ++ keys fs := by
  simp [keys]

variable [DecidableEq κ]

def find? (k : κ) : List (κ × α) → Option α
  | [] => none
  | (k', v) :: rest => if k' = k then some v else find? k rest

def insert (k : κ) (v : α) : List (κ × α) → List (κ × α)
  | [] => [(k, v)]
  | (k', v') :: rest => if k' = k then (k, v) :: rest else (k', v') :: insert k v rest

def erase (k : κ) : List (κ × α) → List (κ × α)
  | [] => []
  | (k', v) :: rest => if k' = k then rest else (k', v) :: erase k rest

/-! ## Lemmas -/

theorem find?_eq_none_iff {k : κ} {es : List (κ × α)} : find? k es = none ↔ k ∉ keys es := by
  induction es with
  | nil => simp [find?]
  | cons e es ih =>
    obtain ⟨k', v⟩ := e
    by_cases h : k' = k
    · simp [find?, h]
    · simp [find?, h, ih, Ne.symm h]

theorem find?_insert (k k' : κ) (v : α) (es : List (κ × α)) :
    find? k' (insert k v es) = if k' = k then some v else find? k' es := by
  induction es with
  | nil =>
    by_cases h : k = k'
    · simp [insert, find?, h]
    · simp [insert, find?, h, Ne.symm h]
  | cons e es ih =>
    obtain ⟨j, w⟩ := e
    by_cases hj : j = k
    · subst hj
      by_cases h : j = k'
      · simp [insert, find?, h]
      · simp [insert, find?, h, Ne.symm h]
    · by_cases h : j = k'
      · subst h
        simp [insert, find?, hj]
      · simp [insert, find?, hj, h, ih]

theorem keys_insert (k : κ) (v : α) (es : List (κ × α)) :
    keys (insert k v es) = if k ∈ keys es then keys es else keys es ++ [k] := by
  induction es with
  | nil => simp [insert]
  | cons e es ih =>
    obtain ⟨j, w⟩ := e
    by_cases hj : j = k
    · simp [insert, hj]
    · by_cases hm : k ∈ keys es <;> simp [insert, hj, Ne.symm hj, ih, hm]

theorem mem_keys_insert {k k' : κ} {v : α} {es : List (κ × α)} :
    k' ∈ keys (insert k v es) ↔ k' = k ∨ k' ∈ keys es := by
  rw [keys_insert]
  by_cases h : k ∈ keys es
  · rw [if_pos h]
    exact ⟨Or.inr, fun | .inl e => e ▸ h | .inr m => m⟩
  · simp [h, or_comm]

theorem mem_of_mem_insert {k : κ} {v : α} {es : List (κ × α)} {e : κ × α}
    (h : e ∈ insert k v es) : e = (k, v) ∨ e ∈ es := by
  induction es with
  | nil => exact .inl (List.mem_singleton.1 h)
  | cons f es ih =>
    obtain ⟨j, w⟩ := f
    rw [insert] at h
    split at h
    · exact (List.mem_cons.1 h).imp_right (List.mem_cons_of_mem _)
    · rcases List.mem_cons.1 h with h | h
      · exact .inr (h ▸ List.mem_cons_self)
      · exact (ih h).imp_right (List.mem_cons_of_mem _)

theorem mem_of_mem_erase {k : κ} {es : List (κ × α)} {e : κ × α} (h : e ∈ erase k es) :
    e ∈ es := by
  induction es with
  | nil => exact h
  | cons f es ih =>
    obtain ⟨j, w⟩ := f
    rw [erase] at h
    split at h
    · exact List.mem_cons_of_mem _ h
    · rcases List.mem_cons.1 h with h | h
      · exact h ▸ List.mem_cons_self
      · exact List.mem_cons_of_mem _ (ih h)

theorem nodup_keys_insert {k : κ} {v : α} {es : List (κ × α)} (h : (keys es).Nodup) :
    (keys (insert k v es)).Nodup := by
  rw [keys_insert]
  split
  · exact h
  · next hk =>
    refine List.nodup_append.2 ⟨h, by simp, ?_⟩
    intro a ha b hb
    rw [List.mem_singleton.1 hb]
    exact fun e => hk (e ▸ ha)

theorem keys_erase {k : κ} {es : List (κ × α)} (h : (keys es).Nodup) :
    keys (erase k es) = (keys es).filter (· ≠ k) := by
  induction es with
  | nil => rfl
  | cons e es ih =>
    obtain ⟨j, w⟩ := e
    obtain ⟨hj, hn⟩ := List.nodup_cons.1 h
    by_cases hjk : j = k
    · subst hjk
      have : (keys es).filter (· ≠ j) = keys es :=
        List.filter_eq_self.2 fun a ha => by simpa using fun e : a = j => hj (e ▸ ha)
      simpa [erase] using this.symm
    · simp only [erase, if_neg hjk, keys_cons, ih hn]
      rw [List.filter_cons_of_pos (by simpa using hjk)]

theorem nodup_keys_erase {k : κ} {es : List (κ × α)} (h : (keys es).Nodup) :
    (keys (erase k es)).Nodup := by
  rw [keys_erase h]
  exact h.filter _

theorem find?_erase {k k' : κ} {es : List (κ × α)} (h : (keys es).Nodup) :
    find? k' (erase k es) = if k' = k then none else find? k' es := by
  induction es with
  | nil => simp [erase, find?]
  | cons e es ih =>
    obtain ⟨j, w⟩ := e
    obtain ⟨hj, hn⟩ := List.nodup_cons.1 h
    by_cases hjk : j = k
    · subst hjk
      by_cases hk : k' = j
      · simpa [erase, hk] using find?_eq_none_iff.2 hj
      · simp [erase, find?, hk, Ne.symm hk]
    · by_cases hk : j = k'
      · subst hk
        simp [erase, find?, hjk]
      · simp [erase, find?, hjk, hk, ih hn]

end Entries

/-- Entries with distinct keys, in order of first insertion. -/
structure OrderedMap (κ α : Type) where
  entries : List (κ × α)
  nodup_keys : (Entries.keys entries).Nodup
  deriving DecidableEq

namespace OrderedMap

variable {κ α : Type}

/-! ## Operations -/

def empty : OrderedMap κ α := ⟨[], .nil⟩

instance : EmptyCollection (OrderedMap κ α) := ⟨empty⟩

instance : Inhabited (OrderedMap κ α) := ⟨empty⟩

def keys (m : OrderedMap κ α) : List κ := Entries.keys m.entries

def values (m : OrderedMap κ α) : List α := m.entries.map Prod.snd

def size (m : OrderedMap κ α) : Nat := m.entries.length

def isEmpty (m : OrderedMap κ α) : Bool := m.entries.isEmpty

@[ext] theorem ext {m n : OrderedMap κ α} (h : m.entries = n.entries) : m = n := by
  cases m
  cases n
  cases h
  rfl

@[simp] theorem keys_empty : (∅ : OrderedMap κ α).keys = [] := rfl

variable [DecidableEq κ]

def get? (m : OrderedMap κ α) (k : κ) : Option α := Entries.find? k m.entries

def insert (m : OrderedMap κ α) (k : κ) (v : α) : OrderedMap κ α :=
  ⟨Entries.insert k v m.entries, Entries.nodup_keys_insert m.nodup_keys⟩

def erase (m : OrderedMap κ α) (k : κ) : OrderedMap κ α :=
  ⟨Entries.erase k m.entries, Entries.nodup_keys_erase m.nodup_keys⟩

/-- Writes the entries one after the other. -/
def insertAll (m : OrderedMap κ α) (es : List (κ × α)) : OrderedMap κ α :=
  es.foldl (fun m e => m.insert e.1 e.2) m

def ofList (es : List (κ × α)) : OrderedMap κ α := insertAll ∅ es

/-- Writes every entry of `n` over `m`. -/
def overlay (m n : OrderedMap κ α) : OrderedMap κ α := m.insertAll n.entries

/-! ## Lemmas -/

@[simp] theorem get?_empty (k : κ) : (∅ : OrderedMap κ α).get? k = none := rfl

theorem get?_eq_none_iff {m : OrderedMap κ α} {k : κ} : m.get? k = none ↔ k ∉ m.keys :=
  Entries.find?_eq_none_iff

theorem get?_insert (m : OrderedMap κ α) (k k' : κ) (v : α) :
    (m.insert k v).get? k' = if k' = k then some v else m.get? k' :=
  Entries.find?_insert k k' v m.entries

theorem keys_insert (m : OrderedMap κ α) (k : κ) (v : α) :
    (m.insert k v).keys = if k ∈ m.keys then m.keys else m.keys ++ [k] :=
  Entries.keys_insert k v m.entries

theorem insert_ne_empty (m : OrderedMap κ α) (k : κ) (v : α) : m.insert k v ≠ ∅ := by
  intro h
  have := get?_insert m k k v
  rw [h, if_pos rfl] at this
  cases this

theorem get?_erase (m : OrderedMap κ α) (k k' : κ) :
    (m.erase k).get? k' = if k' = k then none else m.get? k' :=
  Entries.find?_erase m.nodup_keys

theorem keys_erase (m : OrderedMap κ α) (k : κ) :
    (m.erase k).keys = m.keys.filter (· ≠ k) :=
  Entries.keys_erase m.nodup_keys

@[simp] theorem insertAll_nil (m : OrderedMap κ α) : m.insertAll [] = m := rfl

@[simp] theorem insertAll_cons (m : OrderedMap κ α) (e : κ × α) (es : List (κ × α)) :
    m.insertAll (e :: es) = (m.insert e.1 e.2).insertAll es := rfl

theorem insertAll_append (m : OrderedMap κ α) (es fs : List (κ × α)) :
    m.insertAll (es ++ fs) = (m.insertAll es).insertAll fs := by
  simp [insertAll]

end OrderedMap

end MotorSketch
