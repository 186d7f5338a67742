import MotorSketch.OrderedMap

/-!
# Warnings

Blocks carry warnings, at most one of each kind.  Warnings are set and cleared one by one; a block
is listed as long as it carries one, and blocks and kinds are listed in the order in which they
came to be set.

    (w.set b k t).get? b' k' = if b' = b ∧ k' = k then t else w.get? b' k'       (get?_set)
-/

namespace MotorSketch

/-- What a warning is about; each kind is set and cleared on its own. -/
inductive WarningKind
  | instanceName
  | invalidPin
  | pinConflict
  | missingConfiguration
  deriving DecidableEq

namespace WarningKind

def tag : WarningKind → String
  | instanceName => "instance_name"
  | invalidPin => "invalid_pin"
  | pinConflict => "pin_conflict"
  | missingConfiguration => "missing_configuration"

def all : List WarningKind := [instanceName, invalidPin, pinConflict, missingConfiguration]

def ofTag? (t : String) : Option WarningKind := all.find? fun s => s.tag == t

end WarningKind

/-- Several messages make up one warning text; no message makes none. -/
def joinMessages (messages : List String) : Option String :=
  if messages.isEmpty then none else some (" ".intercalate messages)

/-- The warning texts of one block, by their kinds. -/
abbrev BlockWarnings := OrderedMap WarningKind String

/-- No block is listed without a warning. -/
structure Warnings where
  byBlock : OrderedMap String BlockWarnings
  nonempty : ∀ e ∈ byBlock.entries, e.2 ≠ ∅
  deriving DecidableEq

namespace Warnings

/-! ## Operations -/

def empty : Warnings := ⟨∅, nofun⟩

/-- The warnings of a block, none if it is not listed. -/
def ofBlock (w : Warnings) (block : String) : BlockWarnings := (w.byBlock.get? block).getD ∅

def put (w : Warnings) (block : String) (ws : BlockWarnings) (h : ws ≠ ∅) : Warnings :=
  ⟨w.byBlock.insert block ws, fun e he =>
    match Entries.mem_of_mem_insert he with
    | .inl e' => e' ▸ h
    | .inr he => w.nonempty e he⟩

def remove (w : Warnings) (block : String) : Warnings :=
  ⟨w.byBlock.erase block, fun e he => w.nonempty e (Entries.mem_of_mem_erase he)⟩

/-- Sets a warning of a block, or clears it if there is no text. -/
def set (w : Warnings) (block : String) (kind : WarningKind) (text : Option String) :
    Warnings :=
  match text with
  | some t => w.put block ((w.ofBlock block).insert kind t) (OrderedMap.insert_ne_empty _ _ _)
  | none =>
    match w.byBlock.get? block with
    | none => w
    | some ws =>
      if h : ws.erase kind = ∅ then w.remove block else w.put block (ws.erase kind) h

def get? (w : Warnings) (block : String) (kind : WarningKind) : Option String :=
  (w.ofBlock block).get? kind

/-- All warnings of a block as one text. -/
def text? (w : Warnings) (block : String) : Option String :=
  (w.byBlock.get? block).map fun ws => " ".intercalate ws.values

/-- The blocks that carry a warning. -/
def blocks (w : Warnings) : List String := w.byBlock.keys

def size (w : Warnings) : Nat := w.byBlock.size

def isEmpty (w : Warnings) : Bool := w.byBlock.isEmpty

/-! ## Lemmas -/

theorem ofBlock_put (w : Warnings) (block block' : String) (ws : BlockWarnings) (h : ws ≠ ∅) :
    (w.put block ws h).ofBlock block' = if block' = block then ws else w.ofBlock block' := by
  simp only [ofBlock, put, OrderedMap.get?_insert]
  split <;> rfl

theorem ofBlock_remove (w : Warnings) (block block' : String) :
    (w.remove block).ofBlock block' = if block' = block then ∅ else w.ofBlock block' := by
  simp only [ofBlock, remove, OrderedMap.get?_erase]
  split <;> rfl

/-- Setting a warning changes the warnings of its block only. -/
theorem ofBlock_set (w : Warnings) (block block' : String) (kind : WarningKind)
    (text : Option String) :
    (w.set block kind text).ofBlock block' =
      if block' = block then
        match text with
        | some t => (w.ofBlock block).insert kind t
        | none => (w.ofBlock block).erase kind
      else w.ofBlock block' := by
  cases text with
  | some t => exact ofBlock_put w block block' _ (OrderedMap.insert_ne_empty _ _ _)
  | none =>
    unfold set
    cases hg : w.byBlock.get? block with
    | none =>
      by_cases hb : block' = block
      · subst hb
        simp only [if_true, ofBlock, hg]
        rfl
      · simp [hb]
    | some ws =>
      have ho : w.ofBlock block = ws := by simp [ofBlock, hg]
      by_cases h : ws.erase kind = ∅
      · simp only [h, dite_true, ofBlock_remove, ho]
      · simp only [h, dite_false, ofBlock_put, ho]

theorem get?_set (w : Warnings) (block block' : String) (kind kind' : WarningKind)
    (text : Option String) :
    (w.set block kind text).get? block' kind' =
      if block' = block ∧ kind' = kind then text else w.get? block' kind' := by
  rw [get?, ofBlock_set]
  by_cases hb : block' = block
  · subst hb
    cases text with
    | some t => simp [OrderedMap.get?_insert, get?]
    | none => simp [OrderedMap.get?_erase, get?]
  · simp [hb, get?]

end Warnings

end MotorSketch
