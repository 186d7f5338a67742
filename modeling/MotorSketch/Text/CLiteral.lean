import MotorSketch.Text.Hex

/-!
# C string literals

A text as adjacent string literals of C.  Control characters are written in hexadecimal, and the
literal ends behind them, since a hexadecimal escape takes all digits that follow it.
-/

namespace MotorSketch.Text

/-! ## Algorithm -/

def cLiteralChar (c : Char) : List Char :=
  match c with
  | '\\' => ['\\', '\\']
  | '"' => ['\\', '"']
  | '\n' => ['\\', 'n']
  | '\r' => ['\\', 'r']
  | '\t' => ['\\', 't']
  | c =>
    if c.toNat < 0x20 ∨ c = '\x7f' then ['\\', 'x'] ++ hexPair c.toNat ++ ['"', '"'] else [c]

def cLiteralChars (s : List Char) : List Char := '"' :: (s.flatMap cLiteralChar ++ ['"'])

def cLiteral (s : String) : String := String.ofList (cLiteralChars s.toList)

/-! ## Lemmas -/

theorem no_control_digitChar : ∀ n, n < 16 →
    0x20 ≤ (Nat.digitChar n).toNat ∧ Nat.digitChar n ≠ '\x7f' := by
  decide

/-- Neither a control character nor a line break stands in a literal. -/
theorem no_control_of_mem_cLiteralChar {c d : Char} (h : d ∈ cLiteralChar c) :
    0x20 ≤ d.toNat ∧ d ≠ '\x7f' := by
  have hex : ∀ n, n < 0x80 → ∀ d ∈ hexPair n, 0x20 ≤ d.toNat ∧ d ≠ '\x7f' := by
    intro n hn d hd
    simp only [hexPair, List.mem_cons, List.not_mem_nil, or_false] at hd
    rcases hd with rfl | rfl
    · exact no_control_digitChar _ (by omega)
    · exact no_control_digitChar _ (by omega)
  unfold cLiteralChar at h
  split at h
  case h_6 =>
    split at h
    · next hc =>
      have hn : c.toNat < 0x80 := by
        rcases hc with hc | rfl
        · omega
        · decide
      simp only [List.mem_append, List.mem_cons, List.not_mem_nil, or_false] at h
      rcases h with (h | h) | h
      · rcases h with rfl | rfl <;> decide
      · exact hex _ hn d h
      · rcases h with rfl | rfl <;> decide
    · next hc =>
      rw [List.mem_singleton] at h
      subst h
      exact ⟨Nat.le_of_not_lt fun h => hc (.inl h), fun h => hc (.inr h)⟩
  all_goals
    simp only [List.mem_cons, List.not_mem_nil, or_false] at h
    rcases h with rfl | rfl <;> decide

end MotorSketch.Text
