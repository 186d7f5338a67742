import MotorSketch.Board
import MotorSketch.Instance
import MotorSketch.Workspace

/-!
# Dropdowns

A dropdown offers the choices of a source, which is asked again each time: the motors of a
workspace, sorted by name, the pins of a board, or a fixed list.

    (d.select v).2 = true ↔ v is the value of a choice of d                    (select_eq_true_iff)
    (d.select v).2 = false → (d.select v).1 = d                                (select_of_eq_false)
-/

namespace MotorSketch

structure Choice where
  label : String
  value : String
  deriving DecidableEq

def Choice.plain (s : String) : Choice := ⟨s, s⟩

/-! ## Sources -/

/-- Names are compared by their lower-case forms; names that share one are compared as they are. -/
def compareNames : String → String → Ordering := compareLex (compareOn Text.lowercase) compare

def nameLe (a b : String) : Bool := (compareNames a b).isLE

namespace Workspace

/-- The names of the motors that the blocks of the workspace configure. -/
def instances (w : Workspace) : Logged (List String) :=
  Instances.ofNodes (w.preorder.map Block.declarer)

def instanceChoices (w : Workspace) : Logged (List Choice) := do
  let names ← w.instances
  return (names.mergeSort nameLe).map Choice.plain

end Workspace

inductive ChoiceSource
  | motors (w : Workspace)
  | pins (board : Board)
  | fixed (choices : List Choice)

def ChoiceSource.choices : ChoiceSource → List Choice
  | motors w => w.instanceChoices.value
  | pins board => board.pins.map Choice.plain
  | fixed choices => choices

/-! ## Dropdowns -/

/-- The text shown when there is nothing to choose. -/
def noChoiceText : String := "<none>"

/-- What a dropdown shows. -/
inductive Shown
  | choice (c : Choice)
  /-- A value that is not offered. -/
  | stale (value : String)
  | nothing
  deriving DecidableEq

def Shown.text : Shown → String
  | choice c => c.label
  | stale v => v
  | nothing => noChoiceText

structure Dropdown where
  source : ChoiceSource
  selected : Option String

namespace Dropdown

def ofSource (source : ChoiceSource) : Dropdown := ⟨source, none⟩

def choices (d : Dropdown) : List Choice := d.source.choices

/-- A dropdown without choices is disabled. -/
def hasChoices (d : Dropdown) : Bool := !d.choices.isEmpty

def setSource (d : Dropdown) (source : ChoiceSource) : Dropdown := { d with source := source }

def offers (d : Dropdown) (value : String) : Bool := d.choices.any fun c => c.value == value

/-- Selects a value that is offered, and tells whether it is. -/
def select (d : Dropdown) (value : String) : Dropdown × Bool :=
  if d.offers value then ({ d with selected := some value }, true) else (d, false)

/-- The selected value, at first that of the first choice. -/
def value (d : Dropdown) : Option String :=
  match d.selected with
  | some v => some v
  | none => d.choices.head?.map Choice.value

/-- The first choice with the current value; without one, the selection if there is any. -/
def shown (d : Dropdown) : Shown :=
  let current := d.selected.or (d.choices.head?.map Choice.value)
  match current.bind fun v => d.choices.find? fun c => c.value == v with
  | some c => .choice c
  | none => (d.selected.map Shown.stale).getD .nothing

def label (d : Dropdown) : String := d.shown.text

/-! ## Lemmas -/

theorem select_eq_true_iff {d : Dropdown} {v : String} :
    (d.select v).2 = true ↔ ∃ c ∈ d.choices, c.value = v := by
  unfold select
  split
  · next h => simpa [offers] using h
  · next h => simpa [offers] using h

theorem select_of_eq_false {d : Dropdown} {v : String} (h : (d.select v).2 = false) :
    (d.select v).1 = d := by
  unfold select at h ⊢
  split
  · next ho => simp [ho] at h
  · rfl

end Dropdown

end MotorSketch
