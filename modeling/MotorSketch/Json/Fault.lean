/-!
# Faults

Where a text stops being JSON.  A value that is wanted is read with more care than one that is
passed over, so a break in the text tells for both what is wrong.
-/

namespace MotorSketch.Json

/-- Either something else stands where the text should go on, or the text ends too early. -/
inductive Fault
  | malformed
  | truncated
  deriving DecidableEq

/-- A place where the text cannot be read further: the fault for a reader who wants the value,
and the fault for one who passes over it. -/
structure Break where
  kept : Fault
  skipped : Fault
  deriving DecidableEq

def Break.malformed : Break := ⟨.malformed, .malformed⟩

def Break.truncated : Break := ⟨.truncated, .truncated⟩

end MotorSketch.Json
