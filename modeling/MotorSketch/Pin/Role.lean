import MotorSketch.Text.Blank

/-!
# Pin roles

What a pin is claimed for.  Every role has a tag; a written role is trimmed and taken to upper
case, ASCII letters only, before it is compared with the tags.

    ofTag? t = some r ↔ r.tag = t                                         (ofTag?_eq_some_iff)
    parse s = .ok r ↔ normalTag s = r.tag                                 (parse_eq_ok_iff)
-/

namespace MotorSketch

inductive PinRole
  | input
  | output
  | pwm
  | servo
  | stepper
  | serial
  | i2c
  | spi
  deriving DecidableEq, Inhabited

/-- A text that names no role, as it was compared with the tags. -/
structure UnknownRole where
  text : String
  deriving DecidableEq

def UnknownRole.message (e : UnknownRole) : String := "Unknown pin type: " ++ e.text

namespace PinRole

/-! ## Algorithm -/

def tag : PinRole → String
  | input => "INPUT"
  | output => "OUTPUT"
  | pwm => "PWM"
  | servo => "SERVO"
  | stepper => "STEPPER"
  | serial => "SERIAL"
  | i2c => "I2C"
  | spi => "SPI"

def all : List PinRole := [input, output, pwm, servo, stepper, serial, i2c, spi]

def ofTag? (t : String) : Option PinRole := all.find? fun r => r.tag == t

def normalTag (s : String) : String := (Text.trim s).map Char.toUpper

def parse (s : String) : Except UnknownRole PinRole :=
  match ofTag? (normalTag s) with
  | some r => .ok r
  | none => .error ⟨normalTag s⟩

/-! ## Lemmas -/

theorem mem_all (r : PinRole) : r ∈ all := by
  cases r <;> decide

theorem tag_injective {r s : PinRole} (h : r.tag = s.tag) : r = s := by
  revert h
  cases r <;> cases s <;> decide

theorem ofTag?_eq_some_iff {t : String} {r : PinRole} : ofTag? t = some r ↔ r.tag = t := by
  constructor
  · intro h
    simpa using List.find?_some h
  · rintro rfl
    cases r <;> decide

theorem ofTag?_tag (r : PinRole) : ofTag? r.tag = some r := ofTag?_eq_some_iff.2 rfl

theorem parse_eq_ok_iff {s : String} {r : PinRole} : parse s = .ok r ↔ normalTag s = r.tag := by
  unfold parse
  split
  · next r' h =>
    rw [ofTag?_eq_some_iff] at h
    rw [← h, Except.ok.injEq]
    exact ⟨fun e => e ▸ rfl, tag_injective⟩
  · next h =>
    refine iff_of_false (by simp) fun e => ?_
    rw [ofTag?_eq_some_iff.2 e.symm] at h
    cases h

end PinRole

end MotorSketch
