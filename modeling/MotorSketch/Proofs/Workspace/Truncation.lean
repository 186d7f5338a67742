import MotorSketch.Proofs.Json.Truncation
import MotorSketch.Proofs.Workspace.Reload

/-!
# Truncated workspaces

A tree that is read as a workspace is truncated wherever it is cut: every field in front of the cut
is read as it was, and the cut is met before anything behind it can be missed.  So a saved file of
which the end is lost is never taken for a smaller workspace, nor for one that says something wrong.

    Truncates x y → Truncates (x >>= f) (y >>= g)                               (Truncates.bind)
    n.Cut m → Truncates (readBlock levels n) (readBlock levels m)                  (readBlock_cut)
    s ++ t = w.pretty → t ≠ "" → parse s = .error .truncated, if w fits         (parse_truncated)
-/

namespace MotorSketch

open Json (ItemsCut Member MembersCut Node Value)

namespace Reader

/-! ## Outcomes -/

/-- If the whole is read, its cut is truncated. -/
def Truncates {α β : Type} (whole : Except ReadError α) (cut : Except ReadError β) : Prop :=
  ∀ a, whole = .ok a → cut = .error .truncated

/-- If the whole is read, its first parts are read, or the last one of them is truncated. -/
def Precedes {α β : Type} (whole : Except ReadError α) (parts : Except ReadError β) : Prop :=
  ∀ a, whole = .ok a → ∀ e, parts = .error e → e = .truncated

section Rules

variable {α α' β β' : Type} {x : Except ReadError α} {y : Except ReadError α'}
  {f g : α → Except ReadError β} {f' : α' → Except ReadError β'}

theorem Truncates.of_error (x : Except ReadError α) :
    Truncates x (.error .truncated : Except ReadError β) :=
  fun _ _ => rfl

theorem Precedes.of_ok (x : Except ReadError α) (b : β) : Precedes x (.ok b) := nofun

/-- A whole that is refused is no matter. -/
theorem Truncates.error (e : ReadError) (y : Except ReadError β) :
    Truncates (.error e : Except ReadError α) y :=
  nofun

theorem Precedes.error (e : ReadError) (y : Except ReadError β) :
    Precedes (.error e : Except ReadError α) y :=
  nofun

theorem Truncates.refused (x : Except ReadError α) {e : ReadError} (y : Except ReadError β') :
    Truncates (x >>= fun _ => (.error e : Except ReadError β)) y := by
  intro b hb
  obtain ⟨_, -, he⟩ := bind_eq_ok hb
  cases he

theorem Truncates.bind (h : Truncates x y) (f : α → Except ReadError β)
    (f' : α' → Except ReadError β') : Truncates (x >>= f) (y >>= f') := by
  intro b hb
  obtain ⟨a, ha, -⟩ := bind_eq_ok hb
  rw [h a ha]
  rfl

theorem Truncates.map (h : Truncates x y) (f : α → β) (f' : α' → β') :
    Truncates (x.map f) (y.map f') := by
  intro b hb
  obtain ⟨a, ha, -⟩ := map_eq_ok hb
  rw [h a ha]
  rfl

theorem Truncates.precedes (h : Truncates x y) : Precedes x y := by
  intro a ha e he
  rw [h a ha] at he
  cases he
  rfl

/-- The part in front is the same. -/
theorem Truncates.behind {g : α → Except ReadError β'} (h : ∀ a, Truncates (f a) (g a)) :
    Truncates (x >>= f) (x >>= g) := by
  intro b hb
  obtain ⟨a, rfl, ha⟩ := bind_eq_ok hb
  exact h a b ha

theorem Precedes.behind {g : α → Except ReadError β'} (h : ∀ a, Precedes (f a) (g a)) :
    Precedes (x >>= f) (x >>= g) := by
  intro b hb
  obtain ⟨a, rfl, ha⟩ := bind_eq_ok hb
  exact h a b ha

/-- What is refused for the same reason before. -/
theorem Precedes.unless {c : Prop} [Decidable c] (e : ReadError) (h : Precedes x y) :
    Precedes (if c then .error e else x) (if c then .error e else y) := by
  by_cases hc : c
  · rw [if_pos hc]
    exact .error _ _
  · rwa [if_neg hc, if_neg hc]

theorem Precedes.bind_ok (h : Precedes x y) (g : α → β) (g' : α' → β') :
    Precedes (x >>= fun a => .ok (g a)) (y >>= fun a => .ok (g' a)) := by
  intro b hb e he
  obtain ⟨a, ha, -⟩ := bind_eq_ok hb
  cases y with
  | ok a' => cases he
  | error e' =>
    cases he
    exact h a ha e rfl

/-- Behind the first parts the end is met. -/
theorem Precedes.ended (h : Precedes x y) (hf : ∀ a, f' a = .error .truncated) :
    Truncates (x >>= f) (y >>= f') := by
  intro b hb
  obtain ⟨a, ha, -⟩ := bind_eq_ok hb
  cases y with
  | ok a' => exact hf a'
  | error e => rw [h a ha e rfl]; rfl

end Rules

/-! ## Single values -/

theorem readText_cut {n m : Node} (h : n.Cut m) : Truncates (readText n) (readText m) := by
  cases h with
  | missing => exact .of_error _
  | list _ | object _ => exact .error _ _

theorem readBool_cut {n m : Node} (h : n.Cut m) : Truncates (readBool n) (readBool m) := by
  cases h with
  | missing => exact .of_error _
  | list _ | object _ => exact .error _ _

theorem readTextEntries_cut {ms ks : List Member} (h : MembersCut ms ks)
    (m : OrderedMap String String) :
    Precedes (readTextEntries m ms) (readTextEntries m ks) := by
  induction ms generalizing ks m with
  | nil =>
    cases h
    exact .of_ok _ _
  | cons member ms ih =>
    cases h with
    | ended => exact .of_ok _ _
    | last h => exact .behind fun k => ((readText_cut h).bind _ _).precedes
    | later h => exact .behind fun k => .behind fun s => ih h _

theorem readTextMap_cut {n m : Node} (h : n.Cut m) (levels : Nat) :
    Truncates (readTextMap levels n) (readTextMap levels m) := by
  cases h with
  | missing => exact .of_error _
  | list _ => exact .error _ _
  | object h => exact .behind fun _ => (readTextEntries_cut h ∅).ended fun _ => rfl

/-! ## Values that are passed over -/

mutual

theorem skip_cut (n m : Node) (h : n.Cut m) : Truncates (skip n) (skip m) := by
  match n, m, h with
  | _, _, .missing => exact .of_error _
  | .list ns _, .list ms _, .list h =>
    rw [skip, skip]
    exact (skipItems_cut ns ms h).ended fun _ => rfl
  | .object ms _, .object ks _, .object h =>
    rw [skip, skip]
    exact (skipMembers_cut ms ks h).ended fun _ => rfl

theorem skipItems_cut (ns ms : List Node) (h : ItemsCut ns ms) :
    Precedes (skipItems ns) (skipItems ms) := by
  match ns, ms, h with
  | _, [], .ended => exact .of_ok _ _
  | n :: ns, [m], .last h =>
    rw [skipItems, skipItems]
    exact ((skip_cut n m h).bind _ _).precedes
  | n :: ns, _ :: ms, .later h =>
    rw [skipItems, skipItems]
    exact .behind fun _ => skipItems_cut ns ms h

theorem skipMembers_cut (ms ks : List Member) (h : MembersCut ms ks) :
    Precedes (skipMembers ms) (skipMembers ks) := by
  match ms, ks, h with
  | _, [], .ended => exact .of_ok _ _
  | (_, n) :: ms, [(_, m)], .last h =>
    rw [skipMembers, skipMembers]
    exact ((skip_cut n m h).bind _ _).precedes
  | (_, n) :: ms, _ :: ks, .later h =>
    rw [skipMembers, skipMembers]
    exact .behind fun _ => skipMembers_cut ms ks h

end

/-! ## Blocks -/

namespace BlockParts

variable {levels : Nat} {n m : Node}

theorem readNext_cut (h : n.Cut m)
    (hblock : Truncates (readBlock levels n) (readBlock levels m)) :
    Truncates (readNext n fun _ => readBlock levels n)
      (readNext m fun _ => readBlock levels m) := by
  cases h with
  | missing => exact .of_error _
  | list _ | object _ => exact hblock.map _ _

theorem read_cut (h : n.Cut m) (hblock : Truncates (readBlock levels n) (readBlock levels m))
    (hplugs : Truncates (readPlugs levels n) (readPlugs levels m)) (p : BlockParts)
    (f : BlockField) :
    Truncates (p.read levels f n (fun _ => readBlock levels n) fun _ => readPlugs levels n)
      (p.read levels f m (fun _ => readBlock levels m) fun _ => readPlugs levels m) := by
  cases f with
  | id | kind => exact ((readText_cut h).bind _ _).map _ _
  | fields => exact ((readTextMap_cut h levels).bind _ _).map _ _
  | inputs => exact (hplugs.bind _ _).map _ _
  | next => exact ((readNext_cut h hblock).bind _ _).map _ _
  | disabled => exact ((readBool_cut h).bind _ _).map _ _

end BlockParts

mutual

theorem readBlock_cut (n m : Node) (h : n.Cut m) (levels : Nat) :
    Truncates (readBlock levels n) (readBlock levels m) := by
  match n, m, h with
  | _, _, .missing => exact .of_error _
  | .object ms _, .object ks _, .object h =>
    rw [readBlock, readBlock]
    exact .behind fun inner => (readMembers_cut ms ks h inner .none).ended fun _ => rfl
  | .list ns _, .list ms _, .list h =>
    rw [readBlock, readBlock]
    exact .behind fun inner => readItems_cut ns ms h inner 0 _ _

theorem readPlugs_cut (n m : Node) (h : n.Cut m) (levels : Nat) :
    Truncates (readPlugs levels n) (readPlugs levels m) := by
  match n, m, h with
  | _, _, .missing => exact .of_error _
  | .object ms _, .object ks _, .object h =>
    rw [readPlugs, readPlugs]
    exact .behind fun inner => (readPlugEntries_cut ms ks h inner []).ended fun _ => rfl
  | .list ns _, .list ms _, .list h =>
    rw [readPlugs]
    · exact .error _ _
    · nofun

theorem readMembers_cut (ms ks : List Member) (h : MembersCut ms ks) (levels : Nat)
    (p : BlockParts) : Precedes (readMembers levels p ms) (readMembers levels p ks) := by
  match ms, ks, h with
  | _, [], .ended =>
    rw [readMembers.eq_1]
    exact .of_ok _ _
  | (_, n) :: ms, [(_, m)], .last h =>
    rw [readMembers, readMembers]
    refine .behind fun k => ?_
    cases BlockField.ofName? k with
    | none => exact ((skip_cut n m h).bind _ _).precedes
    | some f =>
      have hread := BlockParts.read_cut h (readBlock_cut n m h levels) (readPlugs_cut n m h levels)
      exact .unless _ ((hread p f).bind _ _).precedes
  | (_, n) :: ms, _ :: ks, .later h =>
    rw [readMembers, readMembers]
    refine .behind fun k => ?_
    cases BlockField.ofName? k with
    | none => exact .behind fun _ => readMembers_cut ms ks h levels p
    | some f =>
      exact .unless _ (.behind fun q => readMembers_cut ms ks h levels q)

theorem readItems_cut (ns ms : List Node) (h : ItemsCut ns ms) (levels count : Nat)
    (fields : List BlockField) (p : BlockParts) :
    Truncates (readItems levels count fields p none ns)
      (readItems levels count fields p (some .truncated) ms) := by
  match ns, ms, h with
  | _, [], .ended =>
    rw [readItems]
    exact .of_error _
  | n :: ns, [m], .last h =>
    cases fields with
    | nil =>
      rw [readItems]
      exact .error _ _
    | cons f fields =>
      rw [readItems, readItems]
      have hread := BlockParts.read_cut h (readBlock_cut n m h levels) (readPlugs_cut n m h levels)
      exact (hread p f).bind _ _
  | n :: ns, _ :: ms, .later h =>
    cases fields with
    | nil =>
      rw [readItems]
      exact .error _ _
    | cons f fields =>
      rw [readItems, readItems]
      exact .behind fun q => readItems_cut ns ms h levels _ fields q

theorem readPlugEntries_cut (ms ks : List Member) (h : MembersCut ms ks) (levels : Nat)
    (plugs : List (String × Block)) :
    Precedes (readPlugEntries levels plugs ms) (readPlugEntries levels plugs ks) := by
  match ms, ks, h with
  | _, [], .ended =>
    rw [readPlugEntries.eq_1]
    exact .of_ok _ _
  | (_, n) :: ms, [(_, m)], .last h =>
    rw [readPlugEntries, readPlugEntries]
    exact .behind fun k => ((readBlock_cut n m h levels).bind _ _).precedes
  | (_, n) :: ms, _ :: ks, .later h =>
    rw [readPlugEntries, readPlugEntries]
    exact .behind fun k => .behind fun b => readPlugEntries_cut ms ks h levels _

end

/-! ## Workspaces -/

theorem readBlockItems_cut {ns ms : List Node} (h : ItemsCut ns ms) (levels : Nat) :
    Precedes (readBlockItems levels ns) (readBlockItems levels ms) := by
  induction ns generalizing ms with
  | nil =>
    cases h
    exact .of_ok _ _
  | cons n ns ih =>
    cases h with
    | ended => exact .of_ok _ _
    | last h => exact ((readBlock_cut n _ h levels).bind _ _).precedes
    | later h => exact .behind fun b => (ih h).bind_ok _ _

theorem readBlocks_cut {n m : Node} (h : n.Cut m) (levels : Nat) :
    Truncates (readBlocks levels n) (readBlocks levels m) := by
  cases h with
  | missing => exact .of_error _
  | list h => exact .behind fun inner => (readBlockItems_cut h inner).ended fun _ => rfl
  | object _ => exact .error _ _

theorem readWorkspaceMembers_cut {ms ks : List Member} (h : MembersCut ms ks) (levels : Nat)
    (blocks : Option (List Block)) :
    Precedes (readWorkspaceMembers levels blocks ms) (readWorkspaceMembers levels blocks ks) := by
  induction ms generalizing ks blocks with
  | nil =>
    cases h
    exact .of_ok _ _
  | cons member ms ih =>
    cases h with
    | ended => exact .of_ok _ _
    | last h =>
      refine .behind fun k => ?_
      by_cases hk : k = blocksName
      · rw [if_pos hk, if_pos hk]
        exact .unless _ ((readBlocks_cut h levels).bind _ _).precedes
      · rw [if_neg hk, if_neg hk]
        exact ((skip_cut _ _ h).bind _ _).precedes
    | later h =>
      refine .behind fun k => ?_
      by_cases hk : k = blocksName
      · rw [if_pos hk, if_pos hk]
        exact .unless _ (.behind fun bs => ih h (some bs))
      · rw [if_neg hk, if_neg hk]
        exact .behind fun _ => ih h blocks

theorem readWorkspace_cut {n m : Node} (h : n.Cut m) (levels : Nat) :
    Truncates (readWorkspace levels n) (readWorkspace levels m) := by
  cases h with
  | missing => exact .of_error _
  | object h =>
    exact .behind fun inner => (readWorkspaceMembers_cut h inner none).ended fun _ => rfl
  | list h =>
    -- A workspace that is written as a list has one item; more are refused in the whole.
    refine .behind fun inner => ?_
    cases h with
    | ended => exact .of_error _
    | @last n m ns h => cases ns <;> exact (readBlocks_cut h inner).bind _ _
    | @later n ns ms h =>
      cases h with
      | ended =>
        cases ns with
        | nil => exact .behind fun bs => .of_error _
        | cons _ _ => exact .refused _ _
      | last _ | later _ => exact .refused _ _

theorem readDocument_cut {n m : Node} (h : n.Cut m) :
    Truncates (readDocument ⟨n, false⟩) (readDocument ⟨m, false⟩) :=
  (readWorkspace_cut h maxLevels).bind _ _

end Reader

namespace Workspace

/-- The text ends in front of some character of the written one, be it the first or the last. -/
theorem parse_of_laid {w : Workspace} (h : w.WellFormed) (hl : ∀ l ∈ w.levels, l ≤ 126)
    {s t : String} (ht : t ≠ "") (hs : Json.Laid w.toJson.tokens (s ++ t).toList) :
    parse s = .error .truncated := by
  rw [String.toList_append] at hs
  obtain ⟨m, hm, hp⟩ := Value.ofChars_of_prefix hs (by simpa using ht)
  rw [parse, ofChars, hp]
  refine Reader.readDocument_cut hm w ?_
  rw [Reader.readDocument_node w h, if_pos hl]

/-- Wherever a written workspace that can be read breaks off, it is truncated and nothing else, as a
text and as a file. -/
theorem parse_truncated (w : Workspace) (h : w.WellFormed) (hl : ∀ l ∈ w.levels, l ≤ 126)
    (s t : String) (ht : t ≠ "") (hs : s ++ t = w.pretty ∨ s ++ t = w.compact) :
    parse s = .error .truncated ∧
      ∀ path, load path (some s.toUTF8) = .error (.unsound path .truncated) := by
  have hlaid : Json.Laid w.toJson.tokens (s ++ t).toList := by
    rcases hs with hs | hs <;> rw [hs]
    · exact Value.laid_pretty w.numberFree_toJson
    · exact Value.laid_compact w.numberFree_toJson
  have hparse := parse_of_laid h hl ht hlaid
  refine ⟨hparse, fun path => ?_⟩
  rw [load_toUTF8, hparse]
  rfl

theorem parse_truncated_stack :
    parse "\x7b\"blocks\":[\x7b\"id\":\"a" = .error .truncated := by
  refine (parse_truncated (stack 0) (wellFormed_stack 0) (fun l hl => ?_) _
    ("\",\"type\":\"b\",\"fields\":\x7b\x7d,\"inputs\":\x7b\x7d," ++
      "\"next\":null,\"disabled\":false\x7d]\x7d") ?_ (.inr ?_)).1
  · rw [mem_levels_stack] at hl
    omega
  · decide
  · decide

end Workspace

end MotorSketch
