import MotorSketch.OrderedMap

/-!
# Folders

A folder of plain files.  A path leads into the folder if it goes on behind the folder's own path
with the name of a file.  Names and paths have bounded sizes, and no NUL.

    f.write? p c = some g → g.read? p = some c                            (read?_of_write?)
-/

namespace MotorSketch

structure Folder where
  path : String
  /-- The contents of the files, by name. -/
  files : OrderedMap String ByteArray

namespace Folder

/-! ## Algorithm -/

/-- A name has at most 255 bytes and no NUL, and does not lead out of the folder. -/
def isFileName (name : String) : Bool :=
  name.utf8ByteSize ≤ 255 && !name.toList.contains '\x00' && name != ".."

/-- The name of a file in the folder.  Empty parts of a path and single dots lead nowhere; the
last part has to be the name.  A path has at most 4095 bytes. -/
def fileName? (f : Folder) (path : String) : Option String :=
  let start := (f.path ++ "/").toList
  if path.utf8ByteSize ≤ 4095 ∧ start.isPrefixOf path.toList then
    let parts := ((path.toList.drop start.length).splitOn '/').map String.ofList
    match parts.filter fun p => p != "" && p != "." with
    | [name] => if isFileName name ∧ parts.getLast? = some name then some name else none
    | _ => none
  else none

def read? (f : Folder) (path : String) : Option ByteArray := (f.fileName? path).bind f.files.get?

/-- Writes a file, if the path leads into the folder. -/
def write? (f : Folder) (path : String) (contents : ByteArray) : Option Folder :=
  (f.fileName? path).map fun name => { f with files := f.files.insert name contents }

/-! ## Lemmas -/

theorem read?_of_write? {f g : Folder} {path : String} {contents : ByteArray}
    (h : f.write? path contents = some g) : g.read? path = some contents := by
  obtain ⟨name, hn, rfl⟩ := Option.map_eq_some_iff.1 h
  have : ({ f with files := f.files.insert name contents } : Folder).fileName? path =
      f.fileName? path := rfl
  rw [read?, this, hn, Option.bind_some, OrderedMap.get?_insert, if_pos rfl]

end Folder

end MotorSketch
