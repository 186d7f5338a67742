import MotorSketch.Proofs.Compilation.Parts
import MotorSketch.Proofs.Text.Line

/-!
# The header of a compiled sketch

The declaration of a motor starts with a word of its own and ends with a semicolon, whatever its
name, its pins and its formulas are.  So it is never taken for an include, and nothing of it is
trimmed.  The header of a compiled sketch is the include of the library, an empty line, the
declarations, and another empty line; without motors it is empty.

    isInclude (b.objectText board) = false                                (isInclude_objectText)
    definitionLine (b.objectText board) = b.objectText board ++ "\n"  (definitionLine_objectText)
    header (i :: ds) = definitionLine i ++ "\n" ++ … ++ "\n"                       (header_include)
-/

namespace MotorSketch

/-! ## Declarations -/

namespace Sketch

theorem isInclude_of_head? {code : String} {c : Char} (h : code.toList.head? = some c)
    (hb : Text.isBlank c = false) (hc : c ≠ '#') : isInclude code = false := by
  obtain ⟨rest, hcode⟩ := List.head?_eq_some_iff.1 h
  have hinclude : "#include".toList = '#' :: "include".toList := by decide
  rw [isInclude, Text.toList_trimStart, hcode, Text.trimStartChars,
    List.dropWhile_cons_of_neg (by simp [hb]), hinclude, List.isPrefixOf]
  simp [Ne.symm hc]

/-- Nothing is trimmed off code that ends with a character that is no blank. -/
theorem definitionLine_of_getLast? {code : String} {c : Char} (h : code.toList.getLast? = some c)
    (hb : Text.isBlank c = false) : definitionLine code = code ++ "\n" := by
  have hlast : ∀ d ∈ code.toList.getLast?, Text.isBlank d = false := by
    intro d hd
    rw [h] at hd
    cases hd
    exact hb
  rw [definitionLine, Text.trimEnd, Text.trimEndChars_eq_self hlast, String.ofList_toList]

end Sketch

namespace Block

theorem isInclude_objectText (board : Board) (b : Block) :
    Sketch.isInclude (b.objectText board) = false := by
  have hstart : ∀ s t : String, s.toList.head? = some 'S' → (s ++ t).toList.head? = some 'S' := by
    intro s t h
    rw [String.toList_append, List.head?_append, h, Option.some_or]
  have hhead : (b.objectText board).toList.head? = some 'S' := by
    unfold objectText
    iterate 8 apply hstart
    rfl
  exact Sketch.isInclude_of_head? hhead (by decide) (by decide)

theorem definitionLine_objectText (board : Board) (b : Block) :
    Sketch.definitionLine (b.objectText board) = b.objectText board ++ "\n" := by
  have hlast : ∀ t : String, (t ++ ");").toList.getLast? = some ';' := by
    intro t
    rw [String.toList_append, List.getLast?_append]
    rfl
  exact Sketch.definitionLine_of_getLast? (hlast _) (by decide)

end Block

namespace Motor

theorem isInclude_libraryInclude : Sketch.isInclude libraryInclude := by decide

theorem definitionLine_libraryInclude :
    Sketch.definitionLine libraryInclude = "#include <Stepper.h>\n" := by
  decide

end Motor

/-! ## Headers -/

theorem Sketch.header_include {i : String} {ds : List String} (hi : isInclude i)
    (hds : ∀ d ∈ ds, isInclude d = false) (hne : ds ≠ []) :
    header (i :: ds) =
      definitionLine i ++ "\n" ++ String.join (ds.map definitionLine) ++ "\n" := by
  have hincludes : (i :: ds).filter isInclude = [i] := by
    rw [List.filter_cons_of_pos hi, List.filter_eq_nil_iff.2 fun d hd => by simp [hds d hd]]
  have hglobals : (i :: ds).filter (fun code => !isInclude code) = ds := by
    rw [List.filter_cons_of_neg (by simp [hi])]
    exact List.filter_eq_self.2 fun d hd => by simp [hds d hd]
  simp only [header, hincludes, hglobals]
  simp [hne]

namespace Compilation

section Definitions

variable (board : Board) (pins : PinAssignment) (w : Workspace)

/-- The declarations of the motors, in order of their first occurrence. -/
def declarations : List String :=
  (latest Block.declaredName (w.visited.filter Block.configures)).map (Block.objectText board)

theorem isInclude_of_mem_declarations {d : String} (h : d ∈ declarations board w) :
    Sketch.isInclude d = false := by
  obtain ⟨b, -, rfl⟩ := List.mem_map.1 h
  exact Block.isInclude_objectText board b

theorem values_definitions :
    (run board pins w).parts.definitions.values =
      if w.visited.filter Block.configures = [] then []
      else Motor.libraryInclude :: declarations board w := by
  have hentries := OrderedMap.entries_ofList_shared (fun b => Motor.objectKey b.declaredName)
    (Block.objectText board) (fun b => Motor.libraryKey_ne_objectKey b.declaredName)
    (v := Motor.libraryInclude) (w.visited.filter Block.configures)
  rw [latest_comp objectKey_injective] at hentries
  rw [parts_run, OrderedMap.values, hentries, declarations]
  split
  · rfl
  · simp

theorem header_definitions :
    Sketch.header (run board pins w).parts.definitions.values =
      if w.visited.filter Block.configures = [] then ""
      else "#include <Stepper.h>\n" ++ "\n" ++
        String.join ((declarations board w).map (· ++ "\n")) ++ "\n" := by
  rw [values_definitions]
  split
  · rfl
  · next hmotors =>
    have hne : declarations board w ≠ [] := by
      simpa [declarations] using latest_ne_nil Block.declaredName hmotors
    have hlines : (declarations board w).map Sketch.definitionLine =
        (declarations board w).map (· ++ "\n") := by
      apply List.map_congr_left
      intro d hd
      obtain ⟨b, -, rfl⟩ := List.mem_map.1 hd
      exact Block.definitionLine_objectText board b
    rw [Sketch.header_include Motor.isInclude_libraryInclude
      (fun d hd => isInclude_of_mem_declarations board w hd) hne, hlines,
      Motor.definitionLine_libraryInclude]

/-- Only the include is taken for one. -/
theorem filter_definitions :
    (run board pins w).parts.definitions.values.filter Sketch.isInclude =
        (if w.visited.filter Block.configures = [] then [] else [Motor.libraryInclude]) ∧
      (run board pins w).parts.definitions.values.filter (fun code => !Sketch.isInclude code) =
        declarations board w := by
  have hnone : ∀ d ∈ declarations board w, Sketch.isInclude d = false :=
    fun d hd => isInclude_of_mem_declarations board w hd
  rw [values_definitions]
  split
  · next hmotors =>
    rw [declarations, hmotors]
    exact ⟨rfl, rfl⟩
  · rw [List.filter_cons_of_pos Motor.isInclude_libraryInclude,
      List.filter_cons_of_neg (by simp [Motor.isInclude_libraryInclude])]
    constructor
    · rw [List.filter_eq_nil_iff.2 fun d hd => by simp [hnone d hd]]
    · exact List.filter_eq_self.2 fun d hd => by simp [hnone d hd]

end Definitions

/-- The header of a compiled sketch.  If a visited block configures a motor, the sketch starts with
the include, an empty line, the declaration of each motor as it is, and an empty line; otherwise it
starts with `setup`.  The include is the only definition that is taken for one, and the others are
the declarations. -/
theorem header_ofWorkspace (board : Board) (pins : PinAssignment) (w : Workspace) :
    let motors := w.visited.filter Block.configures
    let declarations := (latest Block.declaredName motors).map (Block.objectText board)
    let report := (ofWorkspace board pins w).value
    (∃ rest, report.sketch =
        (if motors = [] then ""
          else "#include <Stepper.h>\n" ++ "\n" ++ String.join (declarations.map (· ++ "\n")) ++
            "\n") ++ "void setup() \x7b\n" ++ rest) ∧
      report.parts.definitions.values.filter Sketch.isInclude =
          (if motors = [] then [] else ["#include <Stepper.h>"]) ∧
        report.parts.definitions.values.filter (fun code => !Sketch.isInclude code) =
          declarations := by
  simp only [value_eq_run]
  refine ⟨?_, filter_definitions board pins w⟩
  have hstart : ∀ codes : List String, ∃ rest,
      Sketch.function "void setup()" codes = "void setup() \x7b\n" ++ rest := by
    intro codes
    refine ⟨String.join ((Sketch.statementLines codes).map Sketch.indentLine) ++ "\x7d\n", ?_⟩
    rw [Sketch.function, ← String.append_assoc]
    rfl
  obtain ⟨rest, hsetup⟩ := hstart (run board pins w).parts.setups.values
  refine ⟨rest ++ "\n" ++ Sketch.function "void loop()" (run board pins w).parts.body.values, ?_⟩
  show Sketch.write (run board pins w).parts = _
  rw [Sketch.write, header_definitions, hsetup]
  simp only [String.append_assoc]
  rfl

end Compilation

end MotorSketch
