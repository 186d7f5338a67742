import MotorSketch.Json.Literal

/-!
# Spellings of text literals

Between its quotes a text may write a character as it stands, by its short escape or by its
16-bit units, each in capital or small hexadecimal digits.  Whatever was chosen, the scan finds
the pieces that were written; whether they are a text is for `decode` to say.

    Spells ps cs → scan (cs ++ '"' :: rest) = ⟨ps, none, rest⟩                   (scan_of_spells)
-/

namespace MotorSketch.Json.Literal

/-- The characters write the pieces in order. -/
inductive Spells : List Piece → List Char → Prop
  | nil : Spells [] []
  | plain {c : Char} {ps : List Piece} {cs : List Char} :
      c ≠ '"' → c ≠ '\\' → ¬c.toNat < 0x20 → Spells ps cs → Spells (.char c :: ps) (c :: cs)
  | escape {e c : Char} {ps : List Piece} {cs : List Char} :
      simpleEscape? e = some c → Spells ps cs → Spells (.char c :: ps) ('\\' :: e :: cs)
  | unit {a b c d : Char} {u : Nat} {ps : List Piece} {cs : List Char} :
      hexUnit? a b c d = some u → Spells ps cs →
        Spells (.unit u :: ps) ('\\' :: 'u' :: a :: b :: c :: d :: cs)

theorem scan_escaped {e c : Char} (h : simpleEscape? e = some c) (rest : List Char) :
    scan ('\\' :: e :: rest) = (scan rest).push (.char c) := by
  have he : e ≠ 'u' := by
    rintro rfl
    cases h
  rw [scan.eq_6 e rest (fun _ _ _ _ _ hu _ => he hu) he, h]

theorem scan_of_spells {ps : List Piece} {cs : List Char} (h : Spells ps cs) (rest : List Char) :
    scan (cs ++ '"' :: rest) = ⟨ps, none, rest⟩ := by
  induction h with
  | nil => simp [scan]
  | plain hq hb hc _ ih =>
    rw [List.cons_append, scan_plain hq hb hc, ih]
    rfl
  | escape he _ ih =>
    rw [List.cons_append, List.cons_append, scan_escaped he, ih]
    rfl
  | unit hu _ ih =>
    simp only [List.cons_append]
    rw [scan_unit hu, ih]
    rfl

end MotorSketch.Json.Literal
