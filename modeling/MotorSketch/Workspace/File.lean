import MotorSketch.Folder
import MotorSketch.Workspace.Reader
import MotorSketch.Workspace.Writer

/-!
# Workspace files

A workspace file holds the JSON text of a workspace in UTF-8.  It is written over several lines;
any text that reads as a workspace can be loaded.

    load path (some s.toUTF8) = (parse s).mapError (.unsound path)                (load_toUTF8)
    load path c = .error (.unreadable path), if c is no text                       (load_of_ne)
    w.saveTo f path = .ok g →
      loadFrom g path = (parse w.pretty).mapError (.unsound path)           (loadFrom_of_saveTo)
-/

namespace MotorSketch

inductive LoadError
  /-- The file is not there or holds no text. -/
  | unreadable (path : String)
  | unsound (path : String) (why : ReadError)
  deriving DecidableEq

def LoadError.message : LoadError → String
  | unreadable path => "Failed to read " ++ path
  | unsound path _ => "Failed to parse workspace " ++ path

/-- The file cannot be written. -/
structure SaveError where
  path : String
  deriving DecidableEq

def SaveError.message (e : SaveError) : String := "Failed to write " ++ e.path

/-- The headline of a text that reads as no workspace. -/
def unsoundText : String := "Failed to parse workspace JSON"

namespace Workspace

/-! ## Algorithm -/

/-- Loads the workspace at `path`, whose bytes are given if it can be read. -/
def load (path : String) (contents : Option ByteArray) : Except LoadError Workspace :=
  match contents.bind String.fromUTF8? with
  | none => .error (.unreadable path)
  | some text => (parse text).mapError (.unsound path)

/-- The bytes of the saved workspace. -/
def fileBytes (w : Workspace) : ByteArray := w.pretty.toUTF8

def loadFrom (f : Folder) (path : String) : Except LoadError Workspace := load path (f.read? path)

def saveTo (w : Workspace) (f : Folder) (path : String) : Except SaveError Folder :=
  match f.write? path w.fileBytes with
  | some g => .ok g
  | none => .error ⟨path⟩

/-! ## Lemmas -/

/-- The contents are a text if they are its bytes. -/
theorem bind_fromUTF8?_eq_some_iff {contents : Option ByteArray} {s : String} :
    contents.bind String.fromUTF8? = some s ↔ contents = some s.toUTF8 := by
  rw [Option.bind_eq_some_iff]
  constructor
  · rintro ⟨b, rfl, h⟩
    unfold String.fromUTF8? at h
    split at h
    · cases h
      rfl
    · cases h
  · rintro rfl
    refine ⟨s.toUTF8, rfl, ?_⟩
    unfold String.fromUTF8?
    split
    · rfl
    · next h => exact absurd s.isValidUTF8 h

theorem load_toUTF8 (path s : String) :
    load path (some s.toUTF8) = (parse s).mapError (.unsound path) := by
  rw [load, bind_fromUTF8?_eq_some_iff.2 rfl]

theorem load_of_ne {path : String} {contents : Option ByteArray}
    (h : ∀ s : String, contents ≠ some s.toUTF8) :
    load path contents = .error (.unreadable path) := by
  rw [load]
  cases hc : contents.bind String.fromUTF8? with
  | none => rfl
  | some s => exact absurd (bind_fromUTF8?_eq_some_iff.1 hc) (h s)

theorem load_eq_error_iff {path : String} {contents : Option ByteArray} {e : LoadError} :
    load path contents = .error e ↔
      ((∀ s : String, contents ≠ some s.toUTF8) ∧ e = .unreadable path) ∨
        ∃ s why, contents = some s.toUTF8 ∧ parse s = .error why ∧ e = .unsound path why := by
  by_cases hc : ∃ s : String, contents = some s.toUTF8
  · obtain ⟨s, rfl⟩ := hc
    rw [load_toUTF8]
    constructor
    · intro h
      cases hp : parse s with
      | ok w =>
        rw [hp] at h
        cases h
      | error why =>
        rw [hp] at h
        cases h
        exact .inr ⟨s, why, rfl, hp, rfl⟩
    · rintro (⟨h, -⟩ | ⟨t, why, ht, hp, rfl⟩)
      · exact absurd rfl (h s)
      · rw [← load_toUTF8, ht, load_toUTF8, hp]
        rfl
  · have hne : ∀ s : String, contents ≠ some s.toUTF8 := fun s hs => hc ⟨s, hs⟩
    rw [load_of_ne hne]
    constructor
    · rintro h
      cases h
      exact .inl ⟨hne, rfl⟩
    · rintro (⟨-, rfl⟩ | ⟨s, _, hs, -⟩)
      · rfl
      · exact absurd hs (hne s)

theorem exists_text_of_load {path : String} {contents : Option ByteArray} {w : Workspace}
    (h : load path contents = .ok w) :
    ∃ s : String, contents = some s.toUTF8 ∧ parse s = .ok w := by
  by_cases hc : ∃ s : String, contents = some s.toUTF8
  · obtain ⟨s, rfl⟩ := hc
    refine ⟨s, rfl, ?_⟩
    rw [load_toUTF8] at h
    cases hp : parse s with
    | ok w' =>
      rw [hp] at h
      cases h
      rfl
    | error why =>
      rw [hp] at h
      cases h
  · rw [load_of_ne fun s hs => hc ⟨s, hs⟩] at h
    cases h

theorem loadFrom_of_saveTo {w : Workspace} {f g : Folder} {path : String}
    (h : w.saveTo f path = .ok g) :
    loadFrom g path = (parse w.pretty).mapError (.unsound path) := by
  unfold saveTo at h
  split at h
  · next g' hw =>
    cases h
    rw [loadFrom, Folder.read?_of_write? hw]
    exact load_toUTF8 path w.pretty
  · cases h

end Workspace

end MotorSketch
