import Mathlib.Data.List.Nodup
import MotorSketch.Proofs.Decimal.Numeral
import MotorSketch.Proofs.Dropdown

/-!
# The pins of a board

A board from counts has as many pins as were counted, and no two of them are the same: a number has
one numeral, and the numeral of a digital pin never starts with the letter of the analog ones.  What
a dropdown of pins offers is what the board has, from its first pin on.

    (ofCounts n d digital analog).pins.Nodup                                 (nodup_pins_ofCounts)
    (ofCounts n d digital analog).hasPin p ↔ p is the numeral of some i < digital, or
      "A" and the numeral of some i < analog                                 (hasPin_ofCounts_iff)
    (Dropdown.ofSource (.pins b)).offers p ↔ b.hasPin p                          (offers_pins_iff)
-/

namespace MotorSketch.Board

open Decimal (IsNumeral isNumeral_iff isNumeral_toString toString_injective)

variable {name displayName p : String} {digital analog : Nat}

/-! ## Counted pins -/

theorem length_pins_ofCounts :
    (ofCounts name displayName digital analog).pins.length = digital + analog := by
  simp [ofCounts, numberedPins, analogPins]

theorem nodup_numberedPins (count : Nat) : (numberedPins count).Nodup :=
  List.nodup_range.map toString_injective

theorem nodup_analogPins (count : Nat) : (analogPins count).Nodup :=
  List.nodup_range.map fun _ _ h => toString_injective ((String.append_right_inj "A").1 h)

/-- A numeral is made of digits only. -/
theorem toString_ne_analog (n : Nat) (t : String) : toString n ≠ "A" ++ t := by
  intro h
  have hmem : 'A' ∈ (toString n).toList := by
    rw [h, String.toList_append]
    exact List.mem_append_left _ (by decide)
  exact absurd ((isNumeral_toString n).digits 'A' hmem) (by decide)

theorem nodup_pins_ofCounts : (ofCounts name displayName digital analog).pins.Nodup := by
  refine List.nodup_append.2 ⟨nodup_numberedPins digital, nodup_analogPins analog, ?_⟩
  rintro _ hnumbered _ hanalog
  obtain ⟨n, -, rfl⟩ := List.mem_map.1 hnumbered
  obtain ⟨m, -, rfl⟩ := List.mem_map.1 hanalog
  exact toString_ne_analog n (toString m)

theorem hasPin_ofCounts_iff :
    (ofCounts name displayName digital analog).hasPin p = true ↔
      (∃ n, n < digital ∧ IsNumeral n p) ∨ ∃ n t, n < analog ∧ p = "A" ++ t ∧ IsNumeral n t := by
  rw [hasPin_iff, mem_pins_ofCounts]
  simp only [isNumeral_iff]
  refine or_congr Iff.rfl (exists_congr fun n => ?_)
  constructor
  · rintro ⟨hn, rfl⟩
    exact ⟨toString n, hn, rfl, rfl⟩
  · rintro ⟨_, hn, rfl, rfl⟩
    exact ⟨hn, rfl⟩

example : ["13", "14", "A5", "a5", "A05"].map uno.hasPin = [true, false, true, false, false] := by
  decide

theorem pins_ofCounts_ne_nil (h : 0 < digital + analog) :
    (ofCounts name displayName digital analog).pins ≠ [] := by
  rwa [← List.length_pos_iff, length_pins_ofCounts]

/-! ## First pins and dropdowns -/

variable {b : Board}

theorem head?_pins (h : b.pins ≠ []) : b.pins.head? = some b.firstPin := by
  rw [firstPin, List.head?_eq_some_head h]
  rfl

theorem hasPin_firstPin (h : b.pins ≠ []) : b.hasPin b.firstPin = true :=
  hasPin_iff.2 (List.mem_of_head? (head?_pins h))

theorem offers_pins_iff : (Dropdown.ofSource (.pins b)).offers p = true ↔ b.hasPin p = true := by
  rw [Dropdown.offers_iff, hasPin_iff]
  simp [Dropdown.ofSource, ChoiceSource.choices, Choice.plain]

theorem head?_choices_pins (h : b.pins ≠ []) :
    (Dropdown.ofSource (.pins b)).choices.head? = some (.plain b.firstPin) := by
  show (b.pins.map Choice.plain).head? = _
  rw [List.head?_map, head?_pins h]
  rfl

end MotorSketch.Board
