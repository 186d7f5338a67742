import MotorSketch.Proofs.Sketch.Sections
import MotorSketch.Proofs.Text.CLiteral

/-!
# Literals in a sketch

A C literal holds no line break, and a quote is its last character.  So wherever it stands in the
code of a sketch, it is written in one line: lines are split, indented and trimmed around it.

    before ++ cLiteral s ++ after ∈ p.codes →
      ∃ line ∈ textLines p, Holds line s before after                     (exists_textLine_literal)
-/

namespace MotorSketch.Sketch

open Text (cLiteral)

/-- All code of the sketch. -/
def Parts.codes (p : Parts) : List String :=
  p.definitions.values ++ p.setups.values ++ p.body.values

/-- The line holds the literal of `s` as it stands in the code, between `before` and `after`: behind
all that is in front of it in its line of the code, and an indentation if there is one. -/
def Holds (line : List Char) (s before after : String) : Prop :=
  ∃ indent l r : List Char, (indent = [] ∨ indent = [' ', ' ']) ∧
    Text.IsLastLine l before.toList ∧ r <+: after.toList ∧
    line = indent ++ (l ++ (cLiteral s).toList ++ r)

/-! ## Literals -/

theorem literal_ne_nil (s : String) : (cLiteral s).toList ≠ [] := by
  simp [Text.toList_cLiteral, Text.cLiteralChars]

theorem getLast?_literal (s : String) : (cLiteral s).toList.getLast? = some '"' := by
  simp [Text.toList_cLiteral, Text.cLiteralChars, List.getLast?_cons]

theorem newline_not_mem_literal (s : String) : '\n' ∉ (cLiteral s).toList := by
  intro h
  have := (Text.no_control_of_mem_cLiteral h).1
  revert this
  decide

/-! ## Lines -/

section Lines

variable {s before after : String}

variable (s before after) in
theorem exists_definitionLine_literal :
    ∃ line ∈ definitionLines (before ++ cLiteral s ++ after), Holds line s before after := by
  have hlast : ∀ c ∈ (before.toList ++ (cLiteral s).toList).getLast?, Text.isBlank c = false := by
    intro c hc
    rw [List.getLast?_append, getLast?_literal, Option.some_or] at hc
    cases hc
    decide
  have htrim : (Text.trimEnd (before ++ cLiteral s ++ after)).toList =
      before.toList ++ (cLiteral s).toList ++ Text.trimEndChars after.toList := by
    rw [Text.toList_trimEnd, String.toList_append, String.toList_append,
      Text.trimEndChars_append hlast]
  obtain ⟨l, r, hl, hr, hmem⟩ := Text.mem_splitOn_around (newline_not_mem_literal s)
    before.toList (Text.trimEndChars after.toList)
  refine ⟨_, ?_, [], l, r, .inl rfl, hl, hr.trans (Text.trimEndChars_prefix _), rfl⟩
  rw [definitionLines, htrim]
  exact hmem

theorem exists_statement_literal {codes : List String}
    (h : before ++ cLiteral s ++ after ∈ codes) :
    ∃ line ∈ (statementLines codes).map statementLine, Holds line s before after := by
  have hr : (cLiteral s).toList.getLast? ≠ some '\r' := by
    rw [getLast?_literal]
    decide
  obtain ⟨l, r, hl, hr, hmem⟩ := Text.mem_lineChars_around (newline_not_mem_literal s)
    (literal_ne_nil s) hr before.toList after.toList
  have hline : String.ofList (l ++ (cLiteral s).toList ++ r) ∈ statementLines codes := by
    refine List.mem_flatMap.2 ⟨_, h, List.mem_map.2 ⟨_, ?_, rfl⟩⟩
    rw [String.toList_append, String.toList_append]
    exact hmem
  refine ⟨_, List.mem_map.2 ⟨_, hline, rfl⟩, [' ', ' '], l, r, .inr rfl, hl, hr, ?_⟩
  -- The line is not empty, since the literal stands in it, so it is indented.
  have hne : String.ofList (l ++ (cLiteral s).toList ++ r) ≠ "" := by
    intro he
    have hnil := congrArg String.toList he
    rw [String.toList_ofList, String.toList_empty, List.append_eq_nil_iff,
      List.append_eq_nil_iff] at hnil
    exact literal_ne_nil s hnil.1.2
  rw [statementLine, if_neg hne, String.toList_ofList]
  rfl

theorem exists_textLine_literal {p : Parts} (h : before ++ cLiteral s ++ after ∈ p.codes) :
    ∃ line ∈ textLines p, Holds line s before after := by
  have hfunction : ∀ (signature : String) (codes : List String),
      before ++ cLiteral s ++ after ∈ codes →
        ∃ line ∈ functionLines signature codes, Holds line s before after := by
    intro signature codes hc
    obtain ⟨line, hline, hholds⟩ := exists_statement_literal hc
    exact ⟨line, List.mem_cons_of_mem _ (List.mem_append_left _ hline), hholds⟩
  simp only [Parts.codes, List.mem_append] at h
  rcases h with (h | h) | h
  · obtain ⟨line, hline, hholds⟩ := exists_definitionLine_literal s before after
    have hgroup : ∀ keep : String → Bool, keep (before ++ cLiteral s ++ after) →
        line ∈ (p.definitions.values.filter keep).flatMap definitionLines := by
      intro keep hk
      exact List.mem_flatMap.2 ⟨_, List.mem_filter.2 ⟨h, hk⟩, hline⟩
    refine ⟨line, ?_, hholds⟩
    simp only [textLines, headerLines, List.mem_append]
    cases hi : isInclude (before ++ cLiteral s ++ after) with
    | true => exact .inl (.inl (.inl (.inl (.inl (.inl (hgroup _ hi))))))
    | false => exact .inl (.inl (.inl (.inl (.inr (hgroup _ (by simp [hi]))))))
  · obtain ⟨line, hline, hholds⟩ := hfunction "void setup()" _ h
    refine ⟨line, ?_, hholds⟩
    simp only [textLines, List.mem_append]
    exact .inl (.inl (.inr hline))
  · obtain ⟨line, hline, hholds⟩ := hfunction "void loop()" _ h
    refine ⟨line, ?_, hholds⟩
    simp only [textLines, List.mem_append]
    exact .inr hline

end Lines

/-- Text literals survive.  The literal of a text is a sequence of adjacent C literals that is read
as the text; it holds no control character; and wherever it stands in the code of a sketch, one
line of the sketch holds it as it is. -/
theorem literal_of_text (s : String) :
    Text.ofCLiterals? (cLiteral s) = some s ∧
      (∀ c ∈ (cLiteral s).toList, 0x20 ≤ c.toNat ∧ c ≠ '\x7f') ∧
      ∀ (p : Parts) (before after : String), before ++ cLiteral s ++ after ∈ p.codes →
        ∃ line ∈ (write p).toList.splitOn '\n', Holds line s before after := by
  refine ⟨Text.ofCLiterals?_cLiteral s, fun c => Text.no_control_of_mem_cLiteral, ?_⟩
  intro p before after h
  obtain ⟨line, hline, hholds⟩ := exists_textLine_literal h
  refine ⟨line, ?_, hholds⟩
  rw [splitOn_write]
  exact List.mem_append_left _ hline

/-- The second of three lines prints a text with a control character in front of a digit. -/
def printed : Parts :=
  ⟨∅, .ofList [("p", "a();\n\tprint(" ++ cLiteral "1\t\x01f" ++ ");\r\nb();")], ∅⟩

theorem literal_of_text_printed :
    "a();\n\tprint(" ++ cLiteral "1\t\x01f" ++ ");\r\nb();" ∈ printed.codes ∧
      Text.ofCLiterals? (cLiteral "1\t\x01f") = some "1\t\x01f" ∧
      ∃ line ∈ (write printed).toList.splitOn '\n',
        Holds line "1\t\x01f" "a();\n\tprint(" ");\r\nb();" := by
  have hcode : "a();\n\tprint(" ++ cLiteral "1\t\x01f" ++ ");\r\nb();" ∈ printed.codes := by
    decide +kernel
  obtain ⟨hread, -, hline⟩ := literal_of_text "1\t\x01f"
  exact ⟨hcode, hread, hline printed _ _ hcode⟩

end MotorSketch.Sketch
