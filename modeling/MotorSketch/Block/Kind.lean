/-!
# Kinds of blocks

The kinds of blocks that mean something to the generator, by the name of their type.
-/

namespace MotorSketch

inductive BlockKind
  | configure
  | step
  | number
  | text
  | reference
  | arithmetic
  | other
  deriving DecidableEq

namespace BlockKind

def ofName (s : String) : BlockKind :=
  match s with
  | "stepper_configure" => configure
  | "stepper_step" => step
  | "math_number" => number
  | "text" => text
  | "variables_get" => reference
  | "math_arithmetic" => arithmetic
  | _ => other

end BlockKind

end MotorSketch
