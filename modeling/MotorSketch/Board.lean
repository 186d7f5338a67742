/-!
# Boards

A board offers numbered digital pins and, behind them, analog pins named `A0`, `A1`, ….  Boards
are looked up by name, in any ASCII casing.

    p ∈ (ofCounts n d digital analog).pins ↔ p = toString i for some i < digital, or
      p = "A" ++ toString i for some i < analog                            (mem_pins_ofCounts)
-/

namespace MotorSketch

structure Board where
  name : String
  displayName : String
  /-- The pins that can be chosen, in the order in which they are offered. -/
  pins : List String
  deriving DecidableEq

namespace Board

/-! ## Algorithm -/

def numberedPins (count : Nat) : List String := (List.range count).map toString

def analogPins (count : Nat) : List String := (List.range count).map fun n => "A" ++ toString n

def ofCounts (name displayName : String) (digital analog : Nat) : Board :=
  ⟨name, displayName, numberedPins digital ++ analogPins analog⟩

def uno : Board := ofCounts "uno" "Arduino Uno" 14 6

def leonardo : Board := ofCounts "leonardo" "Arduino Leonardo" 14 6

def mega : Board := ofCounts "mega" "Arduino Mega 2560" 54 16

def all : List Board := [uno, leonardo, mega]

def hasPin (b : Board) (pin : String) : Bool := b.pins.contains pin

/-- The pin that a new block starts with. -/
def firstPin (b : Board) : String := b.pins.head?.getD "0"

def find? (name : String) : Option Board :=
  all.find? fun b => b.name.map Char.toLower == name.map Char.toLower

/-! ## Lemmas -/

theorem hasPin_iff {b : Board} {pin : String} : b.hasPin pin = true ↔ pin ∈ b.pins := by
  simp [hasPin]

theorem mem_pins_ofCounts {name displayName p : String} {digital analog : Nat} :
    p ∈ (ofCounts name displayName digital analog).pins ↔
      (∃ n, n < digital ∧ toString n = p) ∨ ∃ n, n < analog ∧ "A" ++ toString n = p := by
  simp [ofCounts, numberedPins, analogPins]

theorem mem_all_of_find? {name : String} {b : Board} (h : find? name = some b) : b ∈ all :=
  List.mem_of_find?_eq_some h

end Board

end MotorSketch
