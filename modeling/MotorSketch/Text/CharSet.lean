/-!
# Character sets

A set of characters is given by the ranges of its code points, in ascending order.

    containsCode n s = true ↔ ∃ r ∈ s, r.1 ≤ n ∧ n ≤ r.2  for an ascending s     (contains_iff)
-/

namespace MotorSketch.Text

/-- Ranges `(first, last)` of code points, in ascending order. -/
abbrev CharSet := List (Nat × Nat)

namespace CharSet

/-! ## Algorithm -/

/-- The search ends at the first range that starts beyond the code point. -/
def containsCode (n : Nat) : CharSet → Bool
  | [] => false
  | (first, last) :: rest =>
    if n < first then false else if n ≤ last then true else containsCode n rest

def contains (s : CharSet) (c : Char) : Bool := containsCode c.toNat s

/-- Each range ends before the next one starts. -/
def Ascending (s : CharSet) : Prop := s.Pairwise fun r t => r.2 < t.1

/-! ## Lemmas -/

theorem contains_iff {s : CharSet} {n : Nat} (h : s.Ascending) (hr : ∀ r ∈ s, r.1 ≤ r.2) :
    containsCode n s = true ↔ ∃ r ∈ s, r.1 ≤ n ∧ n ≤ r.2 := by
  induction s with
  | nil => simp [containsCode]
  | cons r s ih =>
    obtain ⟨hrs, h⟩ := List.pairwise_cons.1 h
    have hle := hr r (by simp)
    have ih := ih h fun t ht => hr t (by simp [ht])
    obtain ⟨a, b⟩ := r
    simp only [containsCode, List.mem_cons, exists_eq_or_imp]
    split
    · next hn =>
      refine iff_of_false (by simp) ?_
      rintro (h' | ⟨t, ht, h1, -⟩)
      · omega
      · have := hrs t ht
        simp only at this hle
        omega
    · split
      · simp only [true_iff]
        left
        omega
      · rw [ih]
        constructor
        · exact Or.inr
        · rintro (h' | h')
          · omega
          · exact h'

end CharSet

end MotorSketch.Text
