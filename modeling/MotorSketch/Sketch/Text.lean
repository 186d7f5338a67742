import MotorSketch.Sketch.Parts
import MotorSketch.Text.Blank
import MotorSketch.Text.Line

/-!
# The text of a sketch

A sketch starts with the includes, followed by the other definitions, each without the blanks at
its end.  Then come the functions `setup` and `loop`; the lines of their statements are indented,
and empty lines stay empty.

    (function signature codes).toList = signature.toList ++ " \x7b\n".toList ++
      (statementLines codes).flatMap (fun l => (indentLine l).toList) ++ "\x7d\n".toList
                                                                        (toList_function)
-/

namespace MotorSketch.Sketch

/-! ## Algorithm -/

/-- The code is an include, up to blanks in front of it. -/
def isInclude (code : String) : Bool :=
  "#include".toList.isPrefixOf (Text.trimStart code).toList

def definitionLine (code : String) : String := Text.trimEnd code ++ "\n"

/-- The includes and the other definitions, with an empty line behind each group; the first of
these is left out when either group is empty. -/
def header (definitions : List String) : String :=
  let includes := definitions.filter isInclude
  let globals := definitions.filter fun code => !isInclude code
  String.join (includes.map definitionLine) ++
    (if includes.isEmpty || globals.isEmpty then "" else "\n") ++
    String.join (globals.map definitionLine) ++
    (if definitions.isEmpty then "" else "\n")

def indentLine (line : String) : String := if line = "" then "\n" else "  " ++ line ++ "\n"

/-- The lines of a function body. -/
def statementLines (codes : List String) : List String := codes.flatMap Text.lines

def function (signature : String) (codes : List String) : String :=
  signature ++ " \x7b\n" ++ String.join ((statementLines codes).map indentLine) ++ "\x7d\n"

def write (p : Parts) : String :=
  header p.definitions.values ++ function "void setup()" p.setups.values ++ "\n" ++
    function "void loop()" p.body.values

/-! ## Lemmas -/

theorem toList_function (signature : String) (codes : List String) :
    (function signature codes).toList = signature.toList ++ " \x7b\n".toList ++
      (statementLines codes).flatMap (fun l => (indentLine l).toList) ++ "\x7d\n".toList := by
  simp only [function, String.toList_append, String.toList_join, List.flatMap_map]

end MotorSketch.Sketch
