import MotorSketch.Proofs.History
import MotorSketch.Proofs.Warnings

/-!
# Warnings after any changes

Warnings are set and cleared in any order.  What a block has of each kind is what the last change
of it made; blocks are listed in the order in which they last came to have a warning, and the texts
of a block in the order in which they last came to be set.

    (w.set b k t).blocks from w.blocks                                                (blocks_set)
    w.Follows past → (w.change c).Follows (past ++ [c])                           (Follows.change)
    (ofChanges cs).Follows cs                                                  (follows_ofChanges)
-/

namespace MotorSketch

/-- A warning is set, or cleared if there is no text. -/
structure WarningChange where
  block : String
  kind : WarningKind
  text : Option String

namespace Warnings

/-! ## What the changes say -/

/-- What the last change of the warning made of it. -/
def lastText (block : String) (kind : WarningKind) (past : List WarningChange) : Option String :=
  (past.filter fun c => c.block = block ∧ c.kind = kind).getLast?.bind WarningChange.text

def isSet (block : String) (kind : WarningKind) (past : List WarningChange) : Bool :=
  (lastText block kind past).isSome

/-- Some warning of the block is set. -/
def warned (block : String) (past : List WarningChange) : Bool :=
  WarningKind.all.any fun kind => isSet block kind past

variable {w : Warnings} {past : List WarningChange} {c : WarningChange} {block : String}
  {kind : WarningKind}

theorem lastText_append (block : String) (kind : WarningKind) (past : List WarningChange)
    (c : WarningChange) :
    lastText block kind (past ++ [c]) =
      if c.block = block ∧ c.kind = kind then c.text else lastText block kind past := by
  rw [lastText, List.filter_append]
  by_cases h : c.block = block ∧ c.kind = kind
  · rw [List.filter_cons_of_pos (by simpa using h), if_pos h]
    simp
  · rw [List.filter_cons_of_neg (by simpa using h), if_neg h, List.filter_nil, List.append_nil]
    rfl

theorem isSet_append_of_ne (h : ¬(c.block = block ∧ c.kind = kind)) :
    isSet block kind (past ++ [c]) = isSet block kind past := by
  rw [isSet, lastText_append, if_neg h]
  rfl

theorem warned_append_of_ne (h : block ≠ c.block) :
    warned block (past ++ [c]) = warned block past := by
  simp only [warned, isSet_append_of_ne fun hc => h hc.1.symm]

theorem warned_iff : warned block past = true ↔ ∃ kind, isSet block kind past = true := by
  rw [warned, List.any_eq_true]
  constructor
  · rintro ⟨kind, -, h⟩
    exact ⟨kind, h⟩
  · rintro ⟨kind, h⟩
    exact ⟨kind, by cases kind <;> simp [WarningKind.all], h⟩

/-! ## What the warnings are -/

theorem ofBlock_eq_empty_iff : w.ofBlock block = ∅ ↔ ∀ kind, w.get? block kind = none := by
  rw [← OrderedMap.keys_eq_nil_iff, List.eq_nil_iff_forall_not_mem]
  exact forall_congr' fun kind => OrderedMap.get?_eq_none_iff.symm

theorem blocks_put (w : Warnings) (block : String) (ws : BlockWarnings) (h : ws ≠ ∅) :
    (w.put block ws h).blocks = if block ∈ w.blocks then w.blocks else w.blocks ++ [block] :=
  OrderedMap.keys_insert w.byBlock block ws

theorem blocks_remove (w : Warnings) (block : String) :
    (w.remove block).blocks = w.blocks.filter (· ≠ block) :=
  OrderedMap.keys_erase w.byBlock block

/-- Setting a warning lists its block or takes it out of the list. -/
theorem blocks_set (w : Warnings) (block : String) (kind : WarningKind) (text : Option String) :
    (w.set block kind text).blocks =
      if (w.set block kind text).ofBlock block ≠ ∅ then
        if block ∈ w.blocks then w.blocks else w.blocks ++ [block]
      else w.blocks.filter (· ≠ block) := by
  cases text with
  | some t =>
    rw [set, blocks_put, ofBlock_put, if_pos rfl, if_pos (OrderedMap.insert_ne_empty _ _ _)]
  | none =>
    unfold set
    cases hb : w.byBlock.get? block with
    | none =>
      have hmem : ∀ b ∈ w.blocks, b ≠ block := fun b hm he =>
        OrderedMap.get?_eq_none_iff.1 hb (he ▸ hm)
      have hempty : w.ofBlock block = ∅ := by rw [ofBlock, hb, Option.getD_none]
      rw [if_neg (not_not.2 hempty)]
      exact (List.filter_eq_self.2 (by simpa using hmem)).symm
    | some ws =>
      by_cases hne : ws.erase kind = ∅
      · simp only [hne, dite_true]
        rw [blocks_remove, ofBlock_remove, if_pos rfl, if_neg (not_not.2 rfl)]
      · simp only [hne, dite_false]
        rw [blocks_put, ofBlock_put, if_pos rfl, if_pos hne]

theorem keys_ofBlock_set (w : Warnings) (block : String) (kind : WarningKind)
    (text : Option String) :
    ((w.set block kind text).ofBlock block).keys =
      if text.isSome = true then
        if kind ∈ (w.ofBlock block).keys then (w.ofBlock block).keys
        else (w.ofBlock block).keys ++ [kind]
      else (w.ofBlock block).keys.filter (· ≠ kind) := by
  rw [ofBlock_set, if_pos rfl]
  cases text with
  | some t => exact OrderedMap.keys_insert _ kind t
  | none => exact OrderedMap.keys_erase _ kind

/-- The text of a block is made up of those of its kinds. -/
theorem text?_eq (w : Warnings) (block : String) :
    w.text? block =
      if (w.ofBlock block).keys = [] then none
      else some (" ".intercalate ((w.ofBlock block).keys.filterMap fun kind =>
        w.get? block kind)) := by
  rw [text?]
  cases hb : w.byBlock.get? block with
  | none =>
    have hempty : w.ofBlock block = ∅ := by rw [ofBlock, hb, Option.getD_none]
    rw [hempty]
    rfl
  | some ws =>
    have hkeys : ws.keys ≠ [] := fun h => ne_empty_of_get? hb (OrderedMap.keys_eq_nil_iff.1 h)
    simp only [get?, ofBlock_eq hb, if_neg hkeys, Option.map_some, OrderedMap.values_eq_filterMap]

/-! ## Changes -/

/-- The warnings are those that are set, in the order in which they came to be set. -/
structure Follows (w : Warnings) (past : List WarningChange) : Prop where
  get? : ∀ block kind, w.get? block kind = lastText block kind past
  blocks : InOrder warned past w.blocks
  kinds : ∀ block, InOrder (isSet block) past (w.ofBlock block).keys

def change (w : Warnings) (c : WarningChange) : Warnings := w.set c.block c.kind c.text

theorem follows_empty : empty.Follows [] where
  get? _ _ := rfl
  blocks := inOrder_nil fun _ => rfl
  kinds _ := inOrder_nil fun _ => rfl

theorem ofBlock_ne_empty_iff_of_get? (h : ∀ kind, w.get? block kind = lastText block kind past) :
    w.ofBlock block ≠ ∅ ↔ warned block past = true := by
  rw [Ne, ofBlock_eq_empty_iff, warned_iff, not_forall]
  simp only [isSet, h, Option.isSome_iff_ne_none, Ne]

theorem Follows.get?_change (h : w.Follows past) (c : WarningChange) (block : String)
    (kind : WarningKind) :
    (w.change c).get? block kind = lastText block kind (past ++ [c]) := by
  rw [Warnings.change, get?_set, lastText_append, h.get?]
  simp only [eq_comm]

theorem Follows.blocks_change (h : w.Follows past) (c : WarningChange) :
    InOrder warned (past ++ [c]) (w.change c).blocks := by
  have hlisted := ofBlock_ne_empty_iff_of_get? (h.get?_change c c.block)
  have hnext := h.blocks.next c.block fun b hb => warned_append_of_ne (c := c) hb
  rw [Warnings.change] at hlisted ⊢
  simpa only [blocks_set, hlisted] using hnext

theorem Follows.kinds_change (h : w.Follows past) (c : WarningChange) (block : String) :
    InOrder (isSet block) (past ++ [c]) ((w.change c).ofBlock block).keys := by
  by_cases hb : block = c.block
  · subst hb
    have hset : isSet c.block c.kind (past ++ [c]) = c.text.isSome := by
      rw [isSet, lastText_append, if_pos ⟨rfl, rfl⟩]
    have hnext := (h.kinds c.block).next c.kind fun kind hk =>
      isSet_append_of_ne (c := c) fun hc => hk hc.2.symm
    rwa [Warnings.change, keys_ofBlock_set, ← hset]
  · rw [Warnings.change, ofBlock_set, if_neg hb]
    exact (h.kinds block).same fun kind => isSet_append_of_ne fun hc => hb hc.1.symm

theorem Follows.change (h : w.Follows past) (c : WarningChange) :
    (w.change c).Follows (past ++ [c]) where
  get? := h.get?_change c
  blocks := h.blocks_change c
  kinds := h.kinds_change c

theorem Follows.changes (h : w.Follows past) (cs : List WarningChange) :
    (cs.foldl Warnings.change w).Follows (past ++ cs) := by
  induction cs generalizing w past with
  | nil => rwa [List.append_nil]
  | cons c cs ih =>
    have hrest := ih (h.change c)
    rwa [List.append_assoc, List.singleton_append] at hrest

/-- The warnings after the changes. -/
def ofChanges (cs : List WarningChange) : Warnings := cs.foldl Warnings.change empty

theorem follows_ofChanges (cs : List WarningChange) : (ofChanges cs).Follows cs :=
  follows_empty.changes cs

/-! ## Whole histories -/

theorem mem_blocks_iff_exists : block ∈ w.blocks ↔ ∃ kind, w.get? block kind ≠ none := by
  rw [mem_blocks_iff, Ne, ofBlock_eq_empty_iff, not_forall]

theorem text?_eq_none_iff : w.text? block = none ↔ ∀ kind, w.get? block kind = none := by
  rw [← ofBlock_eq_empty_iff, ← OrderedMap.keys_eq_nil_iff, text?_eq]
  split
  · next h => exact iff_of_true rfl h
  · next h => exact iff_of_false (Option.some_ne_none _) h

/-- The warnings after any changes.  A warning is what its last change made of it, and changing one
changes no other.  The blocks that have a warning are listed once each, in the order in which they
last came to have one; and the text of a block joins those of its warnings, in the order in which
they last came to be set.  No block is kept without a warning. -/
theorem history_ofChanges (cs : List WarningChange) :
    let w := ofChanges cs
    (∀ block kind, w.get? block kind = lastText block kind cs) ∧
      (∀ (v : Warnings) block kind text block' kind',
        (v.set block kind text).get? block' kind' =
          if block' = block ∧ kind' = kind then text else v.get? block' kind') ∧
      (InOrder warned cs w.blocks ∧ w.blocks.Nodup ∧
        (∀ block, block ∈ w.blocks ↔ ∃ kind, w.get? block kind ≠ none) ∧
        w.size = w.blocks.length ∧ (w.isEmpty = true ↔ w.blocks = [])) ∧
      (∀ block, (w.text? block = none ↔ ∀ kind, w.get? block kind = none) ∧
        ∃ kinds, InOrder (isSet block) cs kinds ∧
          w.text? block = if kinds = [] then none
            else some (" ".intercalate (kinds.filterMap fun kind => w.get? block kind))) ∧
      ∀ block, w.byBlock.get? block ≠ some ∅ := by
  intro w
  have h : w.Follows cs := follows_ofChanges cs
  refine ⟨h.get?, ?_, ⟨h.blocks, h.blocks.nodup, ?_, ?_, ?_⟩, ?_, ?_⟩
  · exact fun v block kind text block' kind' => get?_set v block block' kind kind' text
  · exact fun block => mem_blocks_iff_exists
  · exact (List.length_map _).symm
  · rw [isEmpty, OrderedMap.isEmpty, List.isEmpty_iff]
    exact List.map_eq_nil_iff.symm
  · exact fun block => ⟨text?_eq_none_iff, _, h.kinds block, text?_eq w block⟩
  · exact fun block hb => ne_empty_of_get? hb rfl

example : (ofChanges [⟨"a", .invalidPin, some "x"⟩, ⟨"b", .pinConflict, some "y"⟩,
    ⟨"a", .invalidPin, none⟩, ⟨"a", .pinConflict, some "z"⟩]).blocks = ["b", "a"] := by
  decide

end Warnings

end MotorSketch
