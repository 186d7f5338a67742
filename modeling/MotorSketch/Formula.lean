import MotorSketch.Text.Blank
import MotorSketch.Text.CLiteral

/-!
# Formulas

The value that a block computes: an atom, a text, or an operation on two formulas.  A formula is
written fully parenthesised, powers as calls.
-/

namespace MotorSketch

inductive Operator
  | add
  | minus
  | multiply
  | divide
  | power
  deriving DecidableEq

namespace Operator

def tag : Operator → String
  | add => "ADD"
  | minus => "MINUS"
  | multiply => "MULTIPLY"
  | divide => "DIVIDE"
  | power => "POWER"

def all : List Operator := [add, minus, multiply, divide, power]

def ofTag? (t : String) : Option Operator := all.find? fun o => o.tag == t

/-- The sign between the operands, if the operator has one. -/
def sign? : Operator → Option String
  | add => some "+"
  | minus => some "-"
  | multiply => some "*"
  | divide => some "/"
  | power => none

theorem ofTag?_eq_some_iff {t : String} {o : Operator} : ofTag? t = some o ↔ o.tag = t := by
  constructor
  · intro h
    simpa using List.find?_some h
  · rintro rfl
    cases o <;> decide

end Operator

inductive Formula
  | atom (s : String)
  | text (s : String)
  | binary (o : Operator) (a b : Formula)
  deriving DecidableEq

namespace Formula

/-- Stands for an operand that is missing. -/
def zero : Formula := atom "0"

def code : Formula → String
  | atom s => s
  | text s => Text.cLiteral s
  | binary o a b =>
    match o.sign? with
    | some sign => "(" ++ a.code ++ " " ++ sign ++ " " ++ b.code ++ ")"
    | none => "pow(" ++ a.code ++ ", " ++ b.code ++ ")"

/-- The trimmed text as an atom, unless it is blank. -/
def ofField? (field : Option String) : Option Formula :=
  match field with
  | none => none
  | some s => if Text.trim s = "" then none else some (atom (Text.trim s))

end Formula

end MotorSketch
