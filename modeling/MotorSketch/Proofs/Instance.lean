import MotorSketch.Dropdown
import MotorSketch.Proofs.Compilation.Step
import MotorSketch.Proofs.OrderedMap.Earliest

/-!
# Listed motors

The motors that are listed are the declared names in order, each one that equals an earlier one up
to case left out.  Among the names with a given lower-case form the first one declared is listed.

    (ofNodes nodes).value = earliest Text.lowercase (nodes.flatMap Declarer.given)  (value_ofNodes)
    Firsts Text.lowercase (nodes.flatMap Declarer.given) names ↔ names = (ofNodes nodes).value
                                                                                 (listed_ofNodes)
    w.instances.value = earliest Text.lowercase (w.preorder.filterMap Block.given)
                                                                                (value_instances)
-/

namespace MotorSketch

theorem Text.lowercase_eq_empty_iff {s : String} : Text.lowercase s = "" ↔ s = "" := by
  constructor
  · intro h
    have hlength : (Text.lowercaseChars s.toList).length = 0 := by
      rw [← Text.toList_lowercase, h]
      rfl
    rw [Text.length_lowercaseChars] at hlength
    have hnil : s.toList.length = 0 := by omega
    exact String.toList_eq_nil_iff.1 (List.length_eq_zero_iff.1 hnil)
  · rintro rfl
    decide

theorem Logged.value_foldlM {α β : Type} (f : β → α → Logged β) (xs : List α) (b : β) :
    (xs.foldlM f b).value = xs.foldl (fun b a => (f b a).value) b := by
  induction xs generalizing b with
  | nil => rfl
  | cons x xs ih => rw [List.foldlM_cons, Logged.value_bind, ih, List.foldl_cons]

/-- The names that the node declares, without those that are missing or empty. -/
def Declarer.given (node : Declarer) : List String :=
  (node.names.getD []).filterMap fun name => name.filter (· ≠ "")

/-- The name of the motor that the block declares, if it has one that is not empty. -/
def Block.given (b : Block) : Option String :=
  if b.configures then b.instanceName.filter (· ≠ "") else none

/-! ## Nodes -/

namespace Instances

theorem insertFirst_eq (m : Names) (name : String) :
    insertFirst m name =
      if Text.lowercase name ∈ m.keys then m else m.insert (Text.lowercase name) name := by
  unfold insertFirst
  cases h : m.get? (Text.lowercase name) with
  | none => rw [if_neg (OrderedMap.get?_eq_none_iff.1 h)]
  | some first => rw [if_pos (OrderedMap.mem_keys_of_get? h)]

theorem value_addName (node : Declarer) (m : Names) (name : Option String) :
    (addName node m name).value = (name.filter (· ≠ "")).toList.foldl insertFirst m := by
  cases name with
  | none => rfl
  | some n => by_cases hn : n = "" <;> simp [addName, Option.filter, hn]

theorem value_addNode (m : Names) (node : Declarer) :
    (addNode m node).value = node.given.foldl insertFirst m := by
  rw [addNode, Logged.value_foldlM, Declarer.given]
  induction node.names.getD [] generalizing m with
  | nil => rfl
  | cons name names ih =>
    rw [List.foldl_cons, ih, value_addName]
    cases h : name.filter (· ≠ "") with
    | none => rw [List.filterMap_cons_none h]; rfl
    | some n => rw [List.filterMap_cons_some h]; rfl

theorem foldl_insertFirst (m : Names) (names : List String) :
    names.foldl insertFirst m = m.addAll (names.map fun n => (Text.lowercase n, n)) := by
  induction names generalizing m with
  | nil => rfl
  | cons n names ih =>
    rw [List.foldl_cons, ih, insertFirst_eq, List.map_cons, OrderedMap.addAll_cons]

theorem value_ofNodes (nodes : List Declarer) :
    (ofNodes nodes).value = earliest Text.lowercase (nodes.flatMap Declarer.given) := by
  have hfold := foldl_writes (fun m : Names => m) insertFirst value_addNode nodes ∅
  have hentries : ∀ names : List String, (names.foldl insertFirst ∅).entries =
      (earliest Text.lowercase names).map fun n => (Text.lowercase n, n) := by
    intro names
    rw [foldl_insertFirst, OrderedMap.entries_addAll, earliest_map]
    exact List.filter_eq_self.2 fun e _ => by simp
  show (nodes.foldlM addNode ∅).value.entries.map Prod.snd = _
  rw [Logged.value_foldlM, hfold, hentries, List.map_map]
  exact List.map_id _

/-- The names that are listed for some nodes.  They are picked from the given names in order, of the
names that are equal up to case the first one, and they are the only names picked so; and further
nodes add the names that they would list on their own, without those that are listed in some casing
already. -/
theorem listed_ofNodes (nodes : List Declarer) :
    let given := nodes.flatMap Declarer.given
    let listed := (ofNodes nodes).value
    (∀ names, Firsts Text.lowercase given names ↔ names = listed) ∧
      listed.Sublist given ∧
      (∀ m ∈ listed, given.find? (fun n => Text.lowercase n = Text.lowercase m) = some m) ∧
      ∀ more, (ofNodes (nodes ++ more)).value = listed ++
        (ofNodes more).value.filter fun n => Text.lowercase n ∉ listed.map Text.lowercase := by
  simp only [value_ofNodes]
  refine ⟨?_, ?_, ?_, ?_⟩
  · exact fun names => firsts_iff
  · exact earliest_sublist _ _
  · exact fun m hm => mem_earliest_iff.1 hm
  · intro more
    rw [List.flatMap_append]
    exact earliest_append _ _ _

example : (ofNodes [⟨"a", "servo", some [some "Arm", none, some ""]⟩, ⟨"b", "text", none⟩,
    ⟨"c", "servo", some [some "Leg", some "ARM", some "Leg"]⟩]).value = ["Arm", "Leg"] := by
  decide +kernel

end Instances

/-! ## Workspaces -/

theorem Block.given_declarer (b : Block) : b.declarer.given = b.given.toList := by
  have hdeclares : b.declares = if b.configures then some [b.instanceName] else none := by
    unfold declares configures
    split
    · next h => simp [BlockKind.ofName_eq_configure_iff.1 h]
    · next h =>
      rw [if_neg]
      intro hk
      exact h (BlockKind.ofName_eq_configure_iff.2 (by simpa using hk))
  show (b.declares.getD []).filterMap (fun name => name.filter (· ≠ "")) = _
  rw [hdeclares, given]
  by_cases hc : b.configures
  · rw [if_pos hc, if_pos hc, Option.getD_some]
    cases h : b.instanceName.filter (· ≠ "") with
    | none => rw [List.filterMap_cons_none h]; rfl
    | some n => rw [List.filterMap_cons_some h]; rfl
  · rw [if_neg hc, if_neg hc]
    rfl

theorem Workspace.value_instances (w : Workspace) :
    w.instances.value = earliest Text.lowercase (w.preorder.filterMap Block.given) := by
  have hgiven : (w.preorder.map Block.declarer).flatMap Declarer.given =
      w.preorder.filterMap Block.given := by
    rw [List.flatMap_map, List.filterMap_eq_flatMap_toList]
    simp only [Block.given_declarer]
  rw [instances, Instances.value_ofNodes, hgiven]

end MotorSketch
