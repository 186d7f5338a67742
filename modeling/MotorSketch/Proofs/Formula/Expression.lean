import MotorSketch.Proofs.Compilation.Step
import MotorSketch.Proofs.Formula.Reading

/-!
# Expressions of value blocks

The expression of a value block is told by its kind alone: the trimmed field of a number or a
variable, the text of a text block, and for arithmetic the operator over both operands.  If no atom
in it holds a blank, a bracket, a comma or a quote, the code is read back as exactly this
expression, so code keeps every grouping and the order of all operands.

    b.formula.value = b.expression                                                   (value_formula)
    b.expression = some f → f.Plain → f.Readable                               (readable_expression)
    b.code.value.map ofCode? = b.expression.map some  for plain atoms               (ofCode?_value)
-/

namespace MotorSketch

namespace Formula

/-- No atom holds a blank, a bracket, a comma or a quote; texts are free. -/
def Plain : Formula → Prop
  | atom s => ∀ c ∈ s.toList, isAtomChar c
  | text _ => True
  | binary _ a b => a.Plain ∧ b.Plain

instance decidablePlain : (f : Formula) → Decidable f.Plain
  | atom s => decidable_of_iff (s.toList.all isAtomChar) List.all_eq_true
  | text _ => .isTrue trivial
  | binary _ a b => @instDecidableAnd _ _ (decidablePlain a) (decidablePlain b)

theorem readable_of_ofField? {field : Option String} {f : Formula} (h : ofField? field = some f)
    (hf : f.Plain) : f.Readable := by
  unfold ofField? at h
  split at h
  · cases h
  · split at h
    · cases h
    · next hs =>
      cases h
      exact ⟨hs, hf⟩

theorem readable_zero : zero.Readable := ⟨by decide, List.all_eq_true.1 (by decide)⟩

end Formula

namespace Block

/-! ## Algorithm -/

mutual

/-- The expression of a value block; other blocks and blank fields have none. -/
def expression : Block → Option Formula
  | ⟨_, kind, fields, inputs, _, _⟩ =>
    if kind = "math_number" then Formula.ofField? (fields.get? "NUM")
    else if kind = "variables_get" then Formula.ofField? (fields.get? "VAR")
    else if kind = "text" then some (.text ((fields.get? "TEXT").getD ""))
    else if kind = "math_arithmetic" then
      some (.binary (((fields.get? "OP").bind Operator.ofTag?).getD .add)
        ((operandExpression "A" inputs).getD (.atom "0"))
        ((operandExpression "B" inputs).getD (.atom "0")))
    else none

/-- The expression of the block plugged into the named input. -/
def operandExpression (name : String) : List (String × Block) → Option Formula
  | [] => none
  | (k, b) :: more => if k = name then expression b else operandExpression name more

end

/-- The atoms of the expression, if there is one, are plain. -/
def PlainAtoms (b : Block) : Prop := ∀ f ∈ b.expression, f.Plain

instance (b : Block) : Decidable b.PlainAtoms :=
  inferInstanceAs (Decidable (∀ f ∈ b.expression, f.Plain))

/-! ## Lemmas -/

mutual

/-- What is reported on the way does not touch the expression. -/
theorem value_formula (b : Block) : b.formula.value = b.expression := by
  match b with
  | ⟨id, kind, fields, inputs, next, disabled⟩ =>
    rw [formula, expression]
    cases hkind : BlockKind.ofName kind with
    | number | text | reference | configure | step =>
      obtain rfl := BlockKind.eq_of_ofName_eq hkind rfl
      rfl
    | arithmetic =>
      obtain rfl := BlockKind.eq_of_ofName_eq hkind rfl
      simp [value_operatorOf, value_operand_eq, Formula.zero]
    | other =>
      have hnumber := BlockKind.ne_of_ofName_eq_other (k := .number) hkind rfl
      have hreference := BlockKind.ne_of_ofName_eq_other (k := .reference) hkind rfl
      have htext := BlockKind.ne_of_ofName_eq_other (k := .text) hkind rfl
      have harithmetic := BlockKind.ne_of_ofName_eq_other (k := .arithmetic) hkind rfl
      rw [if_neg hnumber, if_neg hreference, if_neg htext, if_neg harithmetic]
      rfl

theorem value_operand_eq (name : String) (inputs : List (String × Block)) :
    (operand name inputs).value = operandExpression name inputs := by
  match inputs with
  | [] => rfl
  | (k, b) :: more =>
    rw [operand, operandExpression]
    split
    · exact value_formula b
    · exact value_operand_eq name more

end

theorem value_code (b : Block) : b.code.value = b.expression.map Formula.code := by
  rw [code, Logged.value_bind, value_formula]
  rfl

mutual

theorem readable_expression {b : Block} {f : Formula} (h : b.expression = some f) (hf : f.Plain) :
    f.Readable := by
  match b with
  | ⟨id, kind, fields, inputs, next, disabled⟩ =>
    rw [expression] at h
    split at h
    · exact Formula.readable_of_ofField? h hf
    split at h
    · exact Formula.readable_of_ofField? h hf
    split at h
    · cases h
      trivial
    split at h
    · cases h
      exact ⟨readable_operandExpression hf.1, readable_operandExpression hf.2⟩
    · cases h

/-- The zero in place of a missing operand is readable, too. -/
theorem readable_operandExpression {name : String} {inputs : List (String × Block)}
    (h : ((operandExpression name inputs).getD (.atom "0")).Plain) :
    ((operandExpression name inputs).getD (.atom "0")).Readable := by
  match inputs with
  | [] => exact Formula.readable_zero
  | (k, b) :: more =>
    rw [operandExpression] at h ⊢
    split
    · next hk =>
      rw [if_pos hk] at h
      cases hb : b.expression with
      | none => exact Formula.readable_zero
      | some f =>
        rw [hb] at h
        exact readable_expression hb h
    · next hk =>
      rw [if_neg hk] at h
      exact readable_operandExpression h

end

theorem ofCode?_value {b : Block} (h : b.PlainAtoms) :
    b.code.value.map Formula.ofCode? = b.expression.map some := by
  rw [value_code]
  cases hb : b.expression with
  | none => rfl
  | some f => exact congrArg some (Formula.ofCode?_code (readable_expression hb (h f hb)))

/-- Code keeps the tree.  The code of a value block with plain atoms is read back as exactly the
expression of the block, so two such blocks have equal code just if they have equal expressions. -/
theorem expression_of_code :
    (∀ b : Block, b.PlainAtoms → b.code.value.map Formula.ofCode? = b.expression.map some) ∧
      ∀ a b : Block, a.PlainAtoms → b.PlainAtoms →
        (a.code.value = b.code.value ↔ a.expression = b.expression) := by
  refine ⟨fun b h => ofCode?_value h, fun a b ha hb => ?_⟩
  constructor
  · intro h
    have hread : a.expression.map some = b.expression.map some := by
      rw [← ofCode?_value ha, ← ofCode?_value hb, h]
    exact Option.map_injective (fun _ _ => Option.some.inj) hread
  · intro h
    rw [value_code, value_code, h]

/-- An unknown operation on a power and a text.  The power is of the variable `pow` and a negative
number, plugged into the named inputs; the text has a bracket, a quote, and a control character in
front of a digit. -/
def power (left right : String) : Block :=
  ⟨"s", "math_arithmetic", .ofList [("OP", "MODULO")],
    [("A", ⟨"p", "math_arithmetic", .ofList [("OP", "POWER")],
      [(left, ⟨"v", "variables_get", .ofList [("VAR", " pow ")], [], none, false⟩),
        (right, ⟨"n", "math_number", .ofList [("NUM", "-5")], [], none, false⟩)], none, false⟩),
      ("B", ⟨"t", "text", .ofList [("TEXT", "(\", \x01f")], [], none, false⟩)], none, false⟩

theorem expression_of_code_power :
    (power "A" "B").PlainAtoms ∧ (power "B" "A").PlainAtoms ∧
      (power "A" "B").code.value = some "(pow(pow, -5) + \"(\\\", \\x01\"\"f\")" ∧
      (power "A" "B").code.value.map Formula.ofCode? =
        some (some (.binary .add (.binary .power (.atom "pow") (.atom "-5"))
          (.text "(\", \x01f"))) ∧
      (power "A" "B").code.value ≠ (power "B" "A").code.value := by
  have hleft : (power "A" "B").PlainAtoms := by decide +kernel
  have hright : (power "B" "A").PlainAtoms := by decide +kernel
  obtain ⟨hread, hequal⟩ := expression_of_code
  refine ⟨hleft, hright, by decide +kernel, ?_, ?_⟩
  · rw [hread _ hleft]
    decide +kernel
  · rw [Ne, hequal _ _ hleft hright]
    decide +kernel

end Block

end MotorSketch
