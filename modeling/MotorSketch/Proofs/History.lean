import Mathlib.Data.Nat.Find

/-!
# What holds since when

Properties of what has been done so far come to hold and cease to hold as more is done.  Keys that
have such a property each are listed in the order in which it last came to hold for them: what is
done next either leaves the list alone, takes out a key, or adds one at the end.

    since holds (past ++ [a]) = past.length + 1 if `holds` has just come to hold, since holds past if
      not                                                                            (since_append)
    InOrder holds past keys → InOrder holds (past ++ [a]) …                             (InOrder.next)
-/

namespace MotorSketch

variable {κ α : Type}

/-! ## Moments -/

/-- How much had been done when the property last came to hold; 0 if it never did. -/
def since (holds : List α → Bool) (past : List α) : Nat :=
  Nat.findGreatest (fun n => holds (past.take (n - 1)) = false ∧ holds (past.take n) = true)
    past.length

theorem since_le (holds : List α → Bool) (past : List α) : since holds past ≤ past.length :=
  Nat.findGreatest_le _

theorem findGreatest_congr {p q : Nat → Prop} [DecidablePred p] [DecidablePred q] {n : Nat}
    (h : ∀ i ≤ n, p i ↔ q i) : Nat.findGreatest p n = Nat.findGreatest q n := by
  induction n with
  | zero => rfl
  | succ n ih =>
    have hrest := ih fun i hi => h i (Nat.le_succ_of_le hi)
    rw [Nat.findGreatest_succ, Nat.findGreatest_succ, hrest]
    simp only [h (n + 1) (Nat.le_refl _)]

theorem since_append (holds : List α → Bool) (past : List α) (a : α) :
    since holds (past ++ [a]) =
      if holds past = false ∧ holds (past ++ [a]) = true then past.length + 1
      else since holds past := by
  have hbefore : (past ++ [a]).take (past.length + 1 - 1) = past := by simp
  have hafter : (past ++ [a]).take (past.length + 1) = past ++ [a] :=
    List.take_of_length_le (by simp)
  have hearlier : ∀ n ≤ past.length, (past ++ [a]).take n = past.take n := fun n hn => by
    rw [List.take_append_of_le_length hn]
  rw [since, List.length_append, List.length_singleton, Nat.findGreatest_succ, hbefore, hafter,
    since]
  congr 1
  apply findGreatest_congr
  intro n hn
  rw [hearlier n hn, hearlier (n - 1) (by omega)]

theorem since_append_of_eq {holds : List α → Bool} {past : List α} {a : α}
    (h : holds (past ++ [a]) = holds past) : since holds (past ++ [a]) = since holds past := by
  rw [since_append, if_neg]
  rintro ⟨hnot, hholds⟩
  rw [h, hnot] at hholds
  cases hholds

/-! ## Keys in order -/

/-- The keys that have the property, in the order in which it last came to hold for them. -/
structure InOrder (holds : κ → List α → Bool) (past : List α) (keys : List κ) : Prop where
  mem_iff : ∀ k, k ∈ keys ↔ holds k past = true
  sorted : keys.Pairwise fun j k => since (holds j) past < since (holds k) past

theorem inOrder_nil {holds : κ → List α → Bool} (h : ∀ k, holds k [] = false) :
    InOrder holds [] [] :=
  ⟨fun k => by simp [h k], .nil⟩

namespace InOrder

variable {holds : κ → List α → Bool} {past : List α} {keys : List κ} {a : α} {k : κ}

theorem nodup (h : InOrder holds past keys) : keys.Nodup :=
  h.sorted.imp fun hlt he => by simp [he] at hlt

theorem same (h : InOrder holds past keys) (hsame : ∀ j, holds j (past ++ [a]) = holds j past) :
    InOrder holds (past ++ [a]) keys where
  mem_iff j := by rw [hsame, h.mem_iff]
  sorted := h.sorted.imp fun {i j} hlt => by
    rwa [since_append_of_eq (hsame i), since_append_of_eq (hsame j)]

variable [DecidableEq κ]

/-- A key that loses the property is taken out. -/
theorem removed (h : InOrder holds past keys) (hk : holds k (past ++ [a]) = false)
    (hother : ∀ j, j ≠ k → holds j (past ++ [a]) = holds j past) :
    InOrder holds (past ++ [a]) (keys.filter (· ≠ k)) where
  mem_iff j := by
    rw [List.mem_filter]
    by_cases hj : j = k
    · simp [hj, hk]
    · simp [hj, hother j hj, h.mem_iff]
  sorted := by
    refine (h.sorted.filter _).imp_of_mem fun {i j} hi hj hlt => ?_
    have hik : i ≠ k := by simpa using (List.mem_filter.1 hi).2
    have hjk : j ≠ k := by simpa using (List.mem_filter.1 hj).2
    rwa [since_append_of_eq (hother i hik), since_append_of_eq (hother j hjk)]

/-- A key that has the property is in the list, at the end if it has not been there. -/
theorem included (h : InOrder holds past keys) (hk : holds k (past ++ [a]) = true)
    (hother : ∀ j, j ≠ k → holds j (past ++ [a]) = holds j past) :
    InOrder holds (past ++ [a]) (if k ∈ keys then keys else keys ++ [k]) := by
  by_cases hmem : k ∈ keys
  · rw [if_pos hmem]
    apply h.same
    intro j
    by_cases hj : j = k
    · rw [hj, hk, (h.mem_iff k).1 hmem]
    · exact hother j hj
  · have hnot : holds k past = false := by simpa [h.mem_iff] using hmem
    have hne : ∀ j ∈ keys, j ≠ k := fun j hj he => hmem (he ▸ hj)
    have hold : ∀ j ∈ keys, since (holds j) (past ++ [a]) = since (holds j) past := fun j hj =>
      since_append_of_eq (hother j (hne j hj))
    have hnew : since (holds k) (past ++ [a]) = past.length + 1 := by
      rw [since_append, if_pos ⟨hnot, hk⟩]
    rw [if_neg hmem]
    constructor
    · intro j
      rw [List.mem_append, List.mem_singleton]
      by_cases hj : j = k
      · simp [hj, hk]
      · simp [hj, hother j hj, h.mem_iff]
    · refine List.pairwise_append.2 ⟨?_, List.pairwise_singleton _ _, ?_⟩
      · exact h.sorted.imp_of_mem fun {i j} hi hj hlt => by rwa [hold i hi, hold j hj]
      · intro i hi j hj
        have hle := since_le (holds i) past
        rw [List.mem_singleton.1 hj, hold i hi, hnew]
        omega

/-- What is done next concerns one key only. -/
theorem next (h : InOrder holds past keys) (k : κ)
    (hother : ∀ j, j ≠ k → holds j (past ++ [a]) = holds j past) :
    InOrder holds (past ++ [a])
      (if holds k (past ++ [a]) = true then if k ∈ keys then keys else keys ++ [k]
        else keys.filter (· ≠ k)) := by
  by_cases hk : holds k (past ++ [a]) = true
  · rw [if_pos hk]
    exact h.included hk hother
  · rw [if_neg hk]
    exact h.removed (by simpa using hk) hother

end InOrder

end MotorSketch
