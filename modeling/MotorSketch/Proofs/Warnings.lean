import MotorSketch.Proofs.OrderedMap
import MotorSketch.Warnings

/-!
# Setting warnings

A block is listed exactly while it has warnings, so setting a warning to what it is already changes
nothing, not even the order.  And a list of blocks in front of which others stand is set as it would
be on its own, as long as the block that is set is none of those in front.

    w.get? b k = t → w.set b k t = w                                               (set_eq_self)
    id ∈ w.blocks ↔ w.ofBlock id ≠ ∅                                            (mem_blocks_iff)
    w.byBlock.entries = front ++ v.byBlock.entries → b ∉ Entries.keys front →
      (w.set b k t).byBlock.entries = front ++ (v.set b k t).byBlock.entries    (entries_set_append)
-/

namespace MotorSketch

/-! ## Entries behind others -/

namespace Entries

variable {κ α : Type} [DecidableEq κ]

theorem mem_of_find?_eq_some {k : κ} {v : α} {es : List (κ × α)} (h : find? k es = some v) :
    (k, v) ∈ es := by
  induction es with
  | nil => cases h
  | cons e es ih =>
    obtain ⟨j, u⟩ := e
    rw [find?] at h
    split at h
    · next hj =>
      cases h
      rw [hj]
      exact List.mem_cons_self
    · exact List.mem_cons_of_mem _ (ih h)

theorem erase_of_not_mem {k : κ} {es : List (κ × α)} (h : k ∉ keys es) : erase k es = es := by
  induction es with
  | nil => rfl
  | cons e es ih =>
    obtain ⟨j, u⟩ := e
    rw [keys_cons, List.mem_cons, not_or] at h
    rw [erase, if_neg (Ne.symm h.1), ih h.2]

variable {k : κ} {front : List (κ × α)}

theorem find?_append (h : k ∉ keys front) (es : List (κ × α)) :
    find? k (front ++ es) = find? k es := by
  induction front with
  | nil => rfl
  | cons e front ih =>
    rw [keys_cons, List.mem_cons, not_or] at h
    rw [List.cons_append, find?, if_neg (Ne.symm h.1), ih h.2]

theorem insert_append (h : k ∉ keys front) (v : α) (es : List (κ × α)) :
    insert k v (front ++ es) = front ++ insert k v es := by
  induction front with
  | nil => rfl
  | cons e front ih =>
    rw [keys_cons, List.mem_cons, not_or] at h
    rw [List.cons_append, insert, if_neg (Ne.symm h.1), ih h.2, List.cons_append]

theorem erase_append (h : k ∉ keys front) (es : List (κ × α)) :
    erase k (front ++ es) = front ++ erase k es := by
  induction front with
  | nil => rfl
  | cons e front ih =>
    rw [keys_cons, List.mem_cons, not_or] at h
    rw [List.cons_append, erase, if_neg (Ne.symm h.1), ih h.2, List.cons_append]

end Entries

namespace Warnings

/-! ## Listed blocks -/

@[ext] theorem ext {v w : Warnings} (h : v.byBlock = w.byBlock) : v = w := by
  cases v
  cases w
  cases h
  rfl

theorem ofBlock_eq {w : Warnings} {block : String} {ws : BlockWarnings}
    (h : w.byBlock.get? block = some ws) : w.ofBlock block = ws := by
  rw [ofBlock, h, Option.getD_some]

theorem ne_empty_of_get? {w : Warnings} {block : String} {ws : BlockWarnings}
    (h : w.byBlock.get? block = some ws) : ws ≠ ∅ :=
  w.nonempty _ (Entries.mem_of_find?_eq_some h)

theorem mem_blocks_iff {w : Warnings} {block : String} :
    block ∈ w.blocks ↔ w.ofBlock block ≠ ∅ := by
  cases h : w.byBlock.get? block with
  | none =>
    have hmem : block ∉ w.blocks := OrderedMap.get?_eq_none_iff.1 h
    have hempty : w.ofBlock block = ∅ := by rw [ofBlock, h, Option.getD_none]
    exact iff_of_false hmem (fun hne => hne hempty)
  | some ws =>
    have hmem : block ∈ w.blocks := OrderedMap.mem_keys_of_get? h
    rw [ofBlock_eq h]
    exact iff_of_true hmem (ne_empty_of_get? h)

/-! ## Setting -/

theorem set_eq_self {w : Warnings} {block : String} {kind : WarningKind} {text : Option String}
    (h : w.get? block kind = text) : w.set block kind text = w := by
  apply ext
  cases text with
  | some t =>
    have hws : (w.ofBlock block).insert kind t = w.ofBlock block := OrderedMap.insert_eq_self h
    have hlisted : w.byBlock.get? block = some (w.ofBlock block) := by
      cases hb : w.byBlock.get? block with
      | none =>
        rw [get?, ofBlock, hb] at h
        cases h
      | some ws => rw [ofBlock_eq hb]
    show w.byBlock.insert block ((w.ofBlock block).insert kind t) = w.byBlock
    rw [hws]
    exact OrderedMap.insert_eq_self hlisted
  | none =>
    unfold set
    cases hb : w.byBlock.get? block with
    | none => rfl
    | some ws =>
      have hkind : kind ∉ ws.keys := by
        rw [get?, ofBlock_eq hb] at h
        exact OrderedMap.get?_eq_none_iff.1 h
      have herase : ws.erase kind = ws := OrderedMap.ext (Entries.erase_of_not_mem hkind)
      have hne : ws.erase kind ≠ ∅ := by
        rw [herase]
        exact ne_empty_of_get? hb
      simp only [dif_neg hne]
      show w.byBlock.insert block (ws.erase kind) = w.byBlock
      rw [herase]
      exact OrderedMap.insert_eq_self hb

theorem entries_set_append {v w : Warnings} {front : List (String × BlockWarnings)}
    (h : w.byBlock.entries = front ++ v.byBlock.entries) {block : String}
    (hb : block ∉ Entries.keys front) (kind : WarningKind) (text : Option String) :
    (w.set block kind text).byBlock.entries = front ++ (v.set block kind text).byBlock.entries := by
  have hget : w.byBlock.get? block = v.byBlock.get? block := by
    show Entries.find? block w.byBlock.entries = _
    rw [h, Entries.find?_append hb]
    rfl
  have hput : ∀ ws hne, (w.put block ws hne).byBlock.entries =
      front ++ (v.put block ws hne).byBlock.entries := by
    intro ws hne
    show Entries.insert block ws w.byBlock.entries = _
    rw [h, Entries.insert_append hb]
    rfl
  cases text with
  | some t =>
    have hws : w.ofBlock block = v.ofBlock block := by rw [ofBlock, hget, ofBlock]
    show Entries.insert block ((w.ofBlock block).insert kind t) w.byBlock.entries = _
    rw [hws, h, Entries.insert_append hb]
    rfl
  | none =>
    unfold set
    rw [hget]
    cases v.byBlock.get? block with
    | none => exact h
    | some ws =>
      by_cases hne : ws.erase kind = ∅
      · simp only [hne, dite_true]
        show Entries.erase block w.byBlock.entries = _
        rw [h, Entries.erase_append hb]
        rfl
      · simp only [hne, dite_false]
        exact hput _ _

end Warnings

end MotorSketch
