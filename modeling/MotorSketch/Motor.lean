import MotorSketch.Instance
import MotorSketch.Pin.Assignment
import MotorSketch.Sketch.Parts
import MotorSketch.Warnings

/-!
# Motors

What is written for a configured motor, and for a request that it moves.  A motor needs the
library, a global object and its speed set up; both of its pins are claimed.  The code of a motor
does not depend on the pins that are claimed already: conflicts are reported beside it.

    (m.attach pins).parts = m.parts                                             (parts_attach)
    stepCode n s = none ↔ stepWarning n = some missingConfigurationText
                                                                    (stepCode_eq_none_iff)
-/

namespace MotorSketch

def missingConfigurationText : String :=
  "A STEPPER configuration block has to be added in to be able to use this block!"

/-- A motor on two pins; where the code for its steps or its speed is missing, the default
stands. -/
structure Motor where
  name : String
  pin1 : String
  pin2 : String
  steps : Option String
  speed : Option String
  deriving DecidableEq

/-- The code, or the default if it is missing or blank. -/
def codeOr (default : String) (code : Option String) : String :=
  match code with
  | none => default
  | some c => if Text.trim c = "" then default else c

namespace Motor

/-! ## Algorithm -/

def libraryKey : String := "define_stepper"

def libraryInclude : String := "#include <Stepper.h>"

def objectKey (name : String) : String := "global_stepper_" ++ name

def speedKey (name : String) : String := "setup_stepper_" ++ name

def objectCode (m : Motor) : String :=
  "Stepper " ++ m.name ++ "(" ++ codeOr "360" m.steps ++ ", " ++ m.pin1 ++ ", " ++ m.pin2 ++ ");"

def speedCode (m : Motor) : String := m.name ++ ".setSpeed(" ++ codeOr "90" m.speed ++ ");"

def parts (m : Motor) : Sketch.Parts :=
  ⟨.ofList [(libraryKey, libraryInclude), (objectKey m.name, m.objectCode)],
    .ofList [(speedKey m.name, m.speedCode)], ∅⟩

/-- Claims the pin for a motor; a conflict is added to those before it. -/
def claimPin (state : PinAssignment × List PinClash) (pin : String) :
    PinAssignment × List PinClash :=
  match state.1.claim pin .stepper with
  | .ok pins => (pins, state.2)
  | .error clash => (state.1, state.2 ++ [clash])

/-- The pins after the claims of both pins, and the conflicts. -/
def claimPins (m : Motor) (pins : PinAssignment) : PinAssignment × List PinClash :=
  [m.pin1, m.pin2].foldl claimPin (pins, [])

/-- A motor attached to its pins. -/
structure Attachment where
  parts : Sketch.Parts
  pins : PinAssignment
  clashes : List PinClash

def attach (m : Motor) (pins : PinAssignment) : Attachment :=
  ⟨m.parts, (m.claimPins pins).1, (m.claimPins pins).2⟩

def Attachment.warning (a : Attachment) : Option String :=
  joinMessages (a.clashes.map PinClash.message)

/-- The call that moves the named motor; there is none for the name of an unnamed motor. -/
def stepCode (name : String) (steps : Option String) : Option String :=
  if name = unnamedInstance then none
  else some (name ++ ".steps(" ++ codeOr "0" steps ++ ")")

/-- A warning stands for a call that cannot be written. -/
def stepWarning (name : String) : Option String :=
  if name = unnamedInstance then some missingConfigurationText else none

/-! ## Lemmas -/

@[simp] theorem parts_attach (m : Motor) (pins : PinAssignment) : (m.attach pins).parts = m.parts :=
  rfl

theorem stepCode_eq_none_iff {name : String} {steps : Option String} :
    stepCode name steps = none ↔ stepWarning name = some missingConfigurationText := by
  unfold stepCode stepWarning
  by_cases h : name = unnamedInstance <;> simp [h]

end Motor

end MotorSketch
