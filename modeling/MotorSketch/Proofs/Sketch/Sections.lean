import MotorSketch.Proofs.Text.Line
import MotorSketch.Sketch.Text

/-!
# Sections of a sketch

A sketch is read back from its last line: a closing brace, the lines of the statements, which are
empty or indented, and the first line that is neither, which is the signature.  Code may contain
lines that look like a signature or a closing brace; indented, they are statements.  What is left
in front of both functions is the header.

    (write p).toList = joinLines (textLines p)                                    (toList_write)
    (write p).toList.splitOn '\n' = textLines p ++ [[]]                          (splitOn_write)
    readFunction? signature ((functionLines signature codes).reverse ++ before) =
      some (statementLines codes, before)                           (readFunction?_functionLines)
    read? (write p) = some (sections p)                                            (read?_write)
-/

namespace MotorSketch

namespace Sketch

/-! ## Lines of a sketch -/

/-- The lines of a definition in the header. -/
def definitionLines (code : String) : List (List Char) := (Text.trimEnd code).toList.splitOn '\n'

/-- The lines of the header; an empty line ends each group. -/
def headerLines (definitions : List String) : List (List Char) :=
  let includes := definitions.filter isInclude
  let globals := definitions.filter fun code => !isInclude code
  includes.flatMap definitionLines ++ (if includes.isEmpty || globals.isEmpty then [] else [[]]) ++
    globals.flatMap definitionLines ++ (if definitions.isEmpty then [] else [[]])

def statementLine (line : String) : List Char := if line = "" then [] else ' ' :: ' ' :: line.toList

def signatureLine (signature : String) : List Char := (signature ++ " \x7b").toList

/-- The lines of a function. -/
def functionLines (signature : String) (codes : List String) : List (List Char) :=
  signatureLine signature :: ((statementLines codes).map statementLine ++ [['\x7d']])

/-- The lines of the sketch. -/
def textLines (p : Parts) : List (List Char) :=
  headerLines p.definitions.values ++ functionLines "void setup()" p.setups.values ++ [[]] ++
    functionLines "void loop()" p.body.values

theorem toList_definitionLine (code : String) :
    (definitionLine code).toList = Text.joinLines (definitionLines code) := by
  rw [definitionLine, String.toList_append, definitionLines, Text.joinLines_splitOn]
  rfl

theorem toList_indentLine (line : String) :
    (indentLine line).toList = Text.joinLines [statementLine line] := by
  unfold indentLine statementLine
  split
  · rfl
  · simp [Text.joinLines]

theorem toList_header (definitions : List String) :
    (header definitions).toList = Text.joinLines (headerLines definitions) := by
  have hgroup : ∀ codes : List String, (String.join (codes.map definitionLine)).toList =
      Text.joinLines (codes.flatMap definitionLines) := by
    intro codes
    rw [Text.joinLines_flatMap, String.toList_join, List.flatMap_map]
    simp only [toList_definitionLine]
  have hgap : ∀ b : Bool, (if b then "" else "\n").toList =
      Text.joinLines (if b then [] else [[]]) := by
    intro b
    cases b <;> rfl
  simp only [header, headerLines, String.toList_append, Text.joinLines_append, hgroup, hgap]

theorem toList_function_eq_joinLines (signature : String) (codes : List String) :
    (function signature codes).toList = Text.joinLines (functionLines signature codes) := by
  have hstatements : (statementLines codes).flatMap (fun l => (indentLine l).toList) =
      Text.joinLines ((statementLines codes).map statementLine) := by
    simp only [toList_indentLine, ← Text.joinLines_flatMap, List.map_eq_flatMap]
  rw [toList_function, hstatements, functionLines, Text.joinLines_cons, Text.joinLines_append,
    signatureLine]
  simp [Text.joinLines]

theorem toList_write (p : Parts) : (write p).toList = Text.joinLines (textLines p) := by
  simp only [write, textLines, String.toList_append, Text.joinLines_append, toList_header,
    toList_function_eq_joinLines]
  rfl

theorem not_mem_of_mem_functionLines {signature : String} (hs : '\n' ∉ signature.toList)
    {codes : List String} {l : List Char} (h : l ∈ functionLines signature codes) : '\n' ∉ l := by
  simp only [functionLines, List.mem_cons, List.mem_append, List.mem_map, List.not_mem_nil,
    or_false] at h
  rcases h with rfl | ⟨line, hline, rfl⟩ | rfl
  · simp [signatureLine, hs]
  · unfold statementLine
    split
    · simp
    · obtain ⟨code, -, hline⟩ := List.mem_flatMap.1 hline
      obtain ⟨cs, hcs, rfl⟩ := List.mem_map.1 hline
      simpa using Text.not_mem_of_mem_lineChars hcs
  · decide

theorem not_mem_of_mem_headerLines {definitions : List String} {l : List Char}
    (h : l ∈ headerLines definitions) : '\n' ∉ l := by
  have hgroup : ∀ codes : List String, l ∈ codes.flatMap definitionLines → '\n' ∉ l := by
    intro codes hl
    obtain ⟨code, -, hl⟩ := List.mem_flatMap.1 hl
    exact Text.not_mem_of_mem_splitOn hl
  have hgap : ∀ b : Bool, l ∈ (if b then [] else [[]] : List (List Char)) → '\n' ∉ l := by
    intro b hl
    cases b with
    | true => cases hl
    | false =>
      rw [List.mem_singleton.1 hl]
      simp
  simp only [headerLines, List.mem_append] at h
  rcases h with ((h | h) | h) | h
  · exact hgroup _ h
  · exact hgap _ h
  · exact hgroup _ h
  · exact hgap _ h

theorem splitOn_write (p : Parts) : (write p).toList.splitOn '\n' = textLines p ++ [[]] := by
  rw [toList_write]
  apply Text.splitOn_joinLines
  intro l hl
  simp only [textLines, List.mem_append] at hl
  rcases hl with ((hl | hl) | hl) | hl
  · exact not_mem_of_mem_headerLines hl
  · exact not_mem_of_mem_functionLines (by decide) hl
  · rw [List.mem_singleton.1 hl]
    simp
  · exact not_mem_of_mem_functionLines (by decide) hl

/-! ## Reading -/

/-- The header, and the lines of the statements of each function. -/
structure Sections where
  header : String
  setup : List String
  loop : List String
  deriving DecidableEq

/-- The line is empty, or indented by two blanks. -/
def isStatement (line : List Char) : Bool := line.isEmpty || [' ', ' '].isPrefixOf line

/-- Reads a function off some lines in reversed order: a closing brace, statements, and the line of
the signature.  Gives the statements without their indentation, and the lines in front. -/
def readFunction? (signature : String) (lines : List (List Char)) :
    Option (List String × List (List Char)) :=
  match lines with
  | [] => none
  | closing :: lines =>
    match lines.dropWhile isStatement with
    | [] => none
    | first :: before =>
      if closing = ['\x7d'] ∧ first = signatureLine signature then
        some ((lines.takeWhile isStatement).reverse.map fun l => String.ofList (l.drop 2), before)
      else none

/-- Reads a sketch from its end: both functions with an empty line between them, and the header. -/
def read? (text : String) : Option Sections :=
  match (text.toList.splitOn '\n').reverse with
  | [] :: lines =>
    match readFunction? "void loop()" lines with
    | some (loop, [] :: lines) =>
      match readFunction? "void setup()" lines with
      | some (setup, lines) =>
        some ⟨String.ofList (Text.joinLines lines.reverse), setup, loop⟩
      | none => none
    | _ => none
  | _ => none

def sections (p : Parts) : Sections :=
  ⟨header p.definitions.values, statementLines p.setups.values, statementLines p.body.values⟩

/-! ## Lemmas -/

theorem isStatement_statementLine (line : String) : isStatement (statementLine line) := by
  unfold statementLine
  split <;> simp [isStatement]

theorem drop_statementLine (line : String) :
    String.ofList ((statementLine line).drop 2) = line := by
  unfold statementLine
  split
  · next h => exact h.symm
  · simp

theorem readFunction?_functionLines {signature : String}
    (hs : isStatement (signatureLine signature) = false) (codes : List String)
    (before : List (List Char)) :
    readFunction? signature ((functionLines signature codes).reverse ++ before) =
      some (statementLines codes, before) := by
  let statements := ((statementLines codes).map statementLine).reverse
  have hall : ∀ l ∈ statements, isStatement l := by
    intro l hl
    obtain ⟨line, -, rfl⟩ := List.mem_map.1 (List.mem_reverse.1 hl)
    exact isStatement_statementLine line
  have hlines : (functionLines signature codes).reverse ++ before =
      ['\x7d'] :: (statements ++ signatureLine signature :: before) := by
    simp [functionLines, statements]
  -- No line of the code ends the statements, only the signature does.
  have htake : (statements ++ signatureLine signature :: before).takeWhile isStatement =
      statements := by
    rw [List.takeWhile_append_of_pos hall, List.takeWhile_cons_of_neg (by simp [hs]),
      List.append_nil]
  have hdrop : (statements ++ signatureLine signature :: before).dropWhile isStatement =
      signatureLine signature :: before := by
    rw [List.dropWhile_append_of_pos hall, List.dropWhile_cons_of_neg (by simp [hs])]
  rw [hlines, readFunction?, hdrop, htake]
  simp [statements, drop_statementLine, Function.comp_def]

theorem read?_write (p : Parts) : read? (write p) = some (sections p) := by
  have hlines : ((write p).toList.splitOn '\n').reverse =
      [] :: ((functionLines "void loop()" p.body.values).reverse ++
        [] :: ((functionLines "void setup()" p.setups.values).reverse ++
          (headerLines p.definitions.values).reverse)) := by
    rw [splitOn_write, textLines]
    simp
  have hheader : String.ofList (Text.joinLines (headerLines p.definitions.values)) =
      header p.definitions.values := by
    rw [← toList_header, String.ofList_toList]
  have hsetup : isStatement (signatureLine "void setup()") = false := by decide
  have hloop : isStatement (signatureLine "void loop()") = false := by decide
  simp only [read?, hlines, readFunction?_functionLines hsetup, readFunction?_functionLines hloop,
    List.reverse_reverse, hheader, sections]

/-- Statements that look like the end of a function and the start of the next one. -/
example :
    read? (write ⟨∅, .ofList [("s", "\x7d\nvoid loop() \x7b")], .ofList [("b", "f();\r\n\n")]⟩) =
      some ⟨"", ["\x7d", "void loop() \x7b"], ["f();", ""]⟩ := by
  decide +kernel

/-- A sketch determines its sections: read back from the last line, it gives the header and the
exact lines of both functions, whatever lines are in the code.  So two sketches are the same text
just if their headers and the lines of their functions are equal. -/
theorem sections_of_write :
    (∀ p : Parts, read? (write p) = some ⟨header p.definitions.values,
        p.setups.values.flatMap Text.lines, p.body.values.flatMap Text.lines⟩) ∧
      ∀ p q : Parts, write p = write q ↔
        header p.definitions.values = header q.definitions.values ∧
          p.setups.values.flatMap Text.lines = q.setups.values.flatMap Text.lines ∧
          p.body.values.flatMap Text.lines = q.body.values.flatMap Text.lines := by
  refine ⟨read?_write, fun p q => ?_⟩
  constructor
  · intro h
    have hsections : sections p = sections q := by
      rw [← Option.some_inj, ← read?_write, ← read?_write, h]
    exact ⟨congrArg Sections.header hsections, congrArg Sections.setup hsections,
      congrArg Sections.loop hsections⟩
  · rintro ⟨hheader, hsetup, hloop⟩
    have hfunction : ∀ (signature : String) (codes codes' : List String),
        statementLines codes = statementLines codes' →
          function signature codes = function signature codes' := by
      intro signature codes codes' h
      rw [function, function, h]
    rw [write, write, hheader, hfunction _ _ _ hsetup, hfunction _ _ _ hloop]

end Sketch

end MotorSketch
