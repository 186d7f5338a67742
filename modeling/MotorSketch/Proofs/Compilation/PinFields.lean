import MotorSketch.Proofs.Board
import MotorSketch.Proofs.Compilation.Warnings

/-!
# Pin fields

A block is warned of an invalid pin exactly when one of its pin fields holds something that the
dropdown of the board does not offer.  A field that is missing never counts: it stands for the first
pin, which a board with pins has and offers.

    (addBlock board b c).value.warnings.get? b.id .invalidPin is there ↔ b.StraysFrom …
                                                                        (isSome_invalidPin_addBlock)
    (ofCounts name displayName digital analog).PinsAgree digital analog        (pinsAgree_ofCounts)
-/

namespace MotorSketch

/-- One of the pin fields holds a value that the dropdown does not offer. -/
def Block.StraysFrom (d : Dropdown) (b : Block) : Prop :=
  ∃ field ∈ ["STEPPER_PIN1", "STEPPER_PIN2"], ∃ p, b.field? field = some p ∧ d.offers p = false

namespace Block

variable {board : Board}

theorem isSome_together {first second : Option String} :
    (together first second).isSome = true ↔ first.isSome = true ∨ second.isSome = true := by
  cases first <;> cases second <;> simp [together]

/-- A block without the field has the first pin, which is valid. -/
theorem isSome_invalidPinMessage (h : board.pins ≠ []) {b : Block} {field : String} :
    (invalidPinMessage board (b.pinIn board field)).isSome = true ↔
      ∃ p, b.field? field = some p ∧ (Dropdown.ofSource (.pins board)).offers p = false := by
  simp only [← Bool.not_eq_true, Board.offers_pins_iff, Board.hasPin_iff]
  rw [← pinOf_eq_pinIn, invalidPinMessage, Board.pinOf]
  cases b.field? field with
  | none => simpa using Board.hasPin_iff.1 (Board.hasPin_firstPin h)
  | some p => simp

theorem isSome_invalidPin (h : board.pins ≠ []) (rs : List Reservation) (b : Block) :
    (b.warning board rs .invalidPin).isSome = true ↔
      b.StraysFrom (.ofSource (.pins board)) := by
  rw [warning, isSome_together, isSome_invalidPinMessage h, isSome_invalidPinMessage h,
    StraysFrom, List.exists_mem_cons_iff, List.exists_mem_cons_iff]
  simp

end Block

namespace Compilation

open Board Block

variable {board : Board}

/-- What one visit leaves, whatever was compiled before it. -/
theorem isSome_invalidPin_addBlock (h : board.pins ≠ []) {b : Block} (hb : b.configures)
    (c : Compilation) :
    ((addBlock board b c).value.warnings.get? b.id .invalidPin).isSome = true ↔
      b.StraysFrom (.ofSource (.pins board)) := by
  obtain ⟨rs, hr⟩ := c.pins.exists_reserve
  rw [get?_warnings_addBlock hr (fun _ => rfl), if_pos (by simp [Block.raises, hb]),
    isSome_invalidPin h]

/-- What a run leaves for an id: what its last configuring block with that id asks for. -/
theorem isSome_invalidPin_run (h : board.pins ≠ []) (pins : PinAssignment) (w : Workspace)
    (id : String) :
    ((run board pins w).warnings.get? id .invalidPin).isSome = true ↔
      ∃ b, (w.visited.filter fun b => b.id == id && b.configures).getLast? = some b ∧
        b.StraysFrom (.ofSource (.pins board)) := by
  obtain ⟨rs, hr⟩ := pins.exists_reserve
  rw [get?_warnings_run hr]
  show (((w.visited.filter fun b => b.id == id && b.configures).getLast?.bind
    fun b => b.warning board rs .invalidPin).isSome = true) ↔ _
  cases (w.visited.filter fun b => b.id == id && b.configures).getLast? with
  | none => simp
  | some b => simp [isSome_invalidPin h]

/-- What is offered for a pin field, what is valid there and what stands in for a missing one are
the same pins: so many digital ones, named by numerals, and so many analog ones behind them. -/
structure PinsAgree (board : Board) (digital analog : Nat) : Prop where
  length : board.pins.length = digital + analog
  nodup : board.pins.Nodup
  offers_iff : ∀ p, (Dropdown.ofSource (.pins board)).offers p = true ↔ board.hasPin p = true
  hasPin_iff : ∀ p, board.hasPin p = true ↔
    (∃ n, n < digital ∧ Decimal.IsNumeral n p) ∨
      ∃ n t, n < analog ∧ p = "A" ++ t ∧ Decimal.IsNumeral n t
  first : (Dropdown.ofSource (.pins board)).choices.head? = some (.plain board.firstPin)
  value : (Dropdown.ofSource (.pins board)).value = some board.firstPin
  /-- Each visit of a configuring block sets or clears the warning, whatever came before. -/
  visit : ∀ (b : Block) (c : Compilation), b.configures →
    (((addBlock board b c).value.warnings.get? b.id .invalidPin).isSome = true ↔
      b.StraysFrom (.ofSource (.pins board)))
  /-- Of several configuring blocks with one id the last one decides. -/
  report : ∀ (pins : PinAssignment) (w : Workspace) (id : String),
    ((ofWorkspace board pins w).value.warnings.get? id .invalidPin).isSome = true ↔
      ∃ b, (w.visited.filter fun b => b.id == id && b.configures).getLast? = some b ∧
        b.StraysFrom (.ofSource (.pins board))

/-- On every board from counts, the pins that are offered are those that raise no warning. -/
theorem pinsAgree_ofCounts {digital analog : Nat} (h : 0 < digital + analog)
    (name displayName : String) :
    PinsAgree (.ofCounts name displayName digital analog) digital analog := by
  have hne : (Board.ofCounts name displayName digital analog).pins ≠ [] := pins_ofCounts_ne_nil h
  constructor
  case length => exact length_pins_ofCounts
  case nodup => exact nodup_pins_ofCounts
  case offers_iff => exact fun p => offers_pins_iff
  case hasPin_iff => exact fun p => hasPin_ofCounts_iff
  case first => exact head?_choices_pins hne
  case value =>
    rw [Dropdown.value_eq, head?_choices_pins hne]
    rfl
  case visit => exact fun b c hb => isSome_invalidPin_addBlock hne hb c
  case report =>
    intro pins w id
    rw [value_eq_run]
    exact isSome_invalidPin_run hne pins w id

/-- A board without digital pins. -/
def analogBoard : Board := .ofCounts "analog" "Analog" 0 2

/-- A motor on the second analog pin, and on that pin written with a leading zero. -/
def zeroedMotor : Block :=
  ⟨"m", "stepper_configure", .ofList [("STEPPER_PIN1", "A1"), ("STEPPER_PIN2", "A01")], [], none,
    false⟩

/-- A motor without pin fields is on the first pin, here an analog one, and is not warned of it. -/
theorem pinsAgree_analogBoard :
    let first := (addBlock analogBoard zeroedMotor (start .empty)).value.warnings
    let warnings := (ofWorkspace analogBoard .empty ⟨[zeroedMotor, otherMotor]⟩).value.warnings
    0 < 0 + 2 ∧ zeroedMotor.configures ∧
      (Dropdown.ofSource (.pins analogBoard)).value = some "A0" ∧
      (first.get? "m" .invalidPin).isSome = true ∧
      (warnings.get? "m" .invalidPin).isSome = true ∧
      (warnings.get? "n" .invalidPin).isSome = false := by
  have hpins : PinsAgree analogBoard 0 2 := pinsAgree_ofCounts (by decide) "analog" "Analog"
  have hstrays : zeroedMotor.StraysFrom (.ofSource (.pins analogBoard)) :=
    ⟨"STEPPER_PIN2", by decide, "A01", by decide, by decide⟩
  refine ⟨by decide, by decide, hpins.value, ?_, ?_, ?_⟩
  · exact (hpins.visit zeroedMotor (start .empty) (by decide)).2 hstrays
  · exact (hpins.report .empty ⟨[zeroedMotor, otherMotor]⟩ "m").2 ⟨zeroedMotor, by decide, hstrays⟩
  · rw [← Bool.not_eq_true, hpins.report .empty ⟨[zeroedMotor, otherMotor]⟩ "n"]
    rintro ⟨b, hb, field, -, p, hp, -⟩
    have hother : some otherMotor = some b := hb
    cases hother
    cases hp

end Compilation

end MotorSketch
