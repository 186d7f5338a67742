import MotorSketch.Block
import MotorSketch.Block.Kind
import MotorSketch.Formula
import MotorSketch.Log

/-!
# Formulas of blocks

The formula that a block stands for.  Operands that are missing or have no value count as zero,
and an operator that is missing or unknown as addition; an unknown operator and a block that has
no value by its kind are reported.

    operand name inputs = (Entries.find? name inputs).elim (pure none) formula
                                                                        (operand_eq_find?)
-/

namespace MotorSketch.Block

/-! ## Algorithm -/

def operatorOf (id : String) (tag : Option String) : Logged Operator :=
  match tag with
  | none => pure .add
  | some t =>
    match Operator.ofTag? t with
    | some o => pure o
    | none => do
      Logged.log (.unknownOperator id t)
      return .add

mutual

def formula : Block → Logged (Option Formula)
  | ⟨id, kind, fields, inputs, _, _⟩ =>
    match BlockKind.ofName kind with
    | .number => pure (Formula.ofField? (fields.get? "NUM"))
    | .text => pure (some (.text ((fields.get? "TEXT").getD "")))
    | .reference => pure (Formula.ofField? (fields.get? "VAR"))
    | .arithmetic => do
      let a ← operand "A" inputs
      let b ← operand "B" inputs
      let o ← operatorOf id (fields.get? "OP")
      return some (.binary o (a.getD .zero) (b.getD .zero))
    | .configure | .step | .other => do
      Logged.log (.noValue id kind)
      return none

/-- The formula of the block plugged into the named input. -/
def operand (name : String) : List (String × Block) → Logged (Option Formula)
  | [] => pure none
  | (k, b) :: more => if k = name then formula b else operand name more

end

/-- The code of the block's formula. -/
def code (b : Block) : Logged (Option String) := do
  let f ← b.formula
  return f.map Formula.code

/-- The code of what is plugged into the named input. -/
def pluggedCode (b : Block) (name : String) : Logged (Option String) := do
  let f ← operand name b.inputs
  return f.map Formula.code

/-! ## Lemmas -/

theorem operand_eq_find? (name : String) (inputs : List (String × Block)) :
    operand name inputs = (Entries.find? name inputs).elim (pure none) formula := by
  induction inputs with
  | nil => simp [operand, Entries.find?]
  | cons e more ih =>
    obtain ⟨k, b⟩ := e
    by_cases h : k = name
    · simp [operand, Entries.find?, h]
    · simp [operand, Entries.find?, h, ih]

end MotorSketch.Block
