import MotorSketch.Block.Formula
import MotorSketch.Motor

/-!
# Code of formulas

A block that has a formula has code that is not blank, so a default stands for the code of an
input exactly where no formula is plugged in.

    b.formula.value = some f → Text.trim f.code ≠ ""                          (trim_code_ne_empty)
    codeOr d (b.pluggedCode input).value = (b.pluggedCode input).value.getD d (codeOr_pluggedCode)
-/

namespace MotorSketch

theorem Text.trim_ne_empty {s : String} {c : Char} (hs : s.toList.head? = some c)
    (hc : Text.isBlank c = false) : Text.trim s ≠ "" := by
  intro h
  obtain ⟨rest, hs⟩ := List.head?_eq_some_iff.1 hs
  have hstart : Text.trimStartChars (c :: rest) = c :: rest :=
    Text.trimStartChars_eq_self (by simpa using hc)
  have hnil : Text.trimEndChars (c :: rest) = [] := by
    have := congrArg String.toList h
    rwa [Text.toList_trim, hs, Text.trimChars, hstart, String.toList_empty] at this
  obtain ⟨t, ht, hb⟩ := Text.trimEndChars_append_blanks (c :: rest)
  rw [hnil, List.nil_append] at ht
  have := hb c (ht ▸ List.mem_cons_self)
  rw [hc] at this
  cases this

namespace Formula

theorem trim_code_of_ofField? {field : Option String} {f : Formula} (h : ofField? field = some f) :
    Text.trim f.code ≠ "" := by
  unfold ofField? at h
  split at h
  · cases h
  · next s =>
    split at h
    · cases h
    · next hs =>
      cases h
      have : Text.trim (Text.trim s) = Text.trim s := by
        apply String.toList_inj.1
        rw [Text.toList_trim, Text.toList_trim, Text.trimChars_trimChars]
      rw [code, this]
      exact hs

theorem trim_code_binary (o : Operator) (a b : Formula) : Text.trim (binary o a b).code ≠ "" := by
  rw [code]
  split
  · exact Text.trim_ne_empty (c := '(') (by simp) (by decide)
  · exact Text.trim_ne_empty (c := 'p') (by simp) (by decide)

end Formula

namespace Block

theorem trim_code_ne_empty {b : Block} {f : Formula} (h : b.formula.value = some f) :
    Text.trim f.code ≠ "" := by
  obtain ⟨id, kind, fields, inputs, next, disabled⟩ := b
  rw [formula] at h
  split at h
  · exact Formula.trim_code_of_ofField? h
  · cases h
    exact Text.trim_ne_empty (c := '"') (by simp [Formula.code, Text.cLiteral, Text.cLiteralChars])
      (by decide)
  · exact Formula.trim_code_of_ofField? h
  · cases h
    exact Formula.trim_code_binary _ _ _
  all_goals cases h

/-- Which operator a tag stands for does not depend on the block that has the tag. -/
theorem value_operatorOf (id : String) (tag : Option String) :
    (operatorOf id tag).value = (tag.bind Operator.ofTag?).getD .add := by
  unfold operatorOf
  cases tag with
  | none => rfl
  | some t =>
    dsimp only
    cases h : Operator.ofTag? t <;> simp [h]

theorem value_operand (name : String) (inputs : List (String × Block)) :
    (operand name inputs).value = (Entries.find? name inputs).bind fun b => b.formula.value := by
  rw [operand_eq_find?]
  cases Entries.find? name inputs <;> rfl

theorem value_pluggedCode (b : Block) (input : String) :
    (b.pluggedCode input).value =
      (b.input? input).bind fun p => p.formula.value.map Formula.code := by
  rw [pluggedCode, operand_eq_find?, input?]
  cases Entries.find? input b.inputs <;> rfl

theorem codeOr_pluggedCode (b : Block) (input default : String) :
    codeOr default (b.pluggedCode input).value = (b.pluggedCode input).value.getD default := by
  rw [value_pluggedCode]
  cases b.input? input with
  | none => rfl
  | some p =>
    cases h : p.formula.value with
    | none => simp [h, codeOr]
    | some f => simp [h, codeOr, trim_code_ne_empty h]

end Block

end MotorSketch
