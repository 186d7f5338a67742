import Mathlib.Data.List.Flatten
import MotorSketch.Proofs.Compilation.Parts
import MotorSketch.Proofs.Instance

/-!
# Listed motors and compiled motors

The registry lists the motors of all blocks, wherever they are plugged in and disabled or not; the
compiler reaches only the stacks up to their first disabled blocks.  What it reaches is among the
blocks that the registry sees, in the same order.  So every motor that is compiled under a name is
listed, in some casing, and a listed name whose block is compiled has its object and its speed.

    w.visited.Sublist w.preorder                                        (visited_sublist_preorder)
    m ∈ w.instances.value → the first block that declares m up to case declares it as m
                                                                         (exists_first_declaration)
    the object of n is among the definitions ↔ a visited block declares n
                                                                    (objectKey_mem_definitions_iff)
-/

namespace MotorSketch

/-! ## Blocks that are reached -/

namespace Block

mutual

theorem chain_sublist_preorder (b : Block) : b.chain.Sublist b.preorder := by
  match b with
  | ⟨id, kind, fields, inputs, next, disabled⟩ =>
    rw [chain_eq, preorder]
    apply List.Sublist.cons_cons
    exact (nextChain_sublist_preorder next).trans (List.sublist_append_right _ _)

theorem nextChain_sublist_preorder (next : Option Block) :
    (next.elim [] chain).Sublist (nextPreorder next) := by
  match next with
  | none => exact List.Sublist.refl []
  | some b => exact chain_sublist_preorder b

end

end Block

theorem Workspace.visited_sublist_preorder (w : Workspace) : w.visited.Sublist w.preorder := by
  rw [preorder_eq_flatMap, visited]
  obtain ⟨blocks⟩ := w
  induction blocks with
  | nil => exact List.Sublist.refl []
  | cons b bs ih =>
    rw [List.flatMap_cons, List.flatMap_cons]
    have hstack : (b.chain.takeWhile fun b => !b.disabled).Sublist b.preorder :=
      (List.takeWhile_sublist _).trans b.chain_sublist_preorder
    exact hstack.append ih

/-! ## Names -/

theorem Block.given_eq_some_iff {b : Block} {n : String} :
    b.given = some n ↔ b.configures ∧ b.instanceName = some n ∧ n ≠ "" := by
  rw [given]
  by_cases hc : b.configures
  · simp [hc, Option.filter_eq_some_iff]
  · simp [hc]

namespace Workspace

variable {w : Workspace}

/-- A name that is given by some block is listed, once in all its casings. -/
theorem filter_instances {b : Block} (hb : b ∈ w.preorder) {n : String} (hn : b.given = some n) :
    ∃ m, (w.instances.value.filter fun m => Text.lowercase m = Text.lowercase n) = [m] := by
  have hmem : n ∈ w.preorder.filterMap Block.given := List.mem_filterMap.2 ⟨b, hb, hn⟩
  rw [value_instances, filter_earliest]
  cases h : (w.preorder.filterMap Block.given).find?
      fun m => Text.lowercase m = Text.lowercase n with
  | none =>
    have hnone := List.find?_eq_none.1 h n hmem
    simp at hnone
  | some m => exact ⟨m, rfl⟩

/-- A listed name is the spelling of the first block that declares it in any casing. -/
theorem exists_first_declaration {m : String} (hm : m ∈ w.instances.value) :
    ∃ b, (w.preorder.find? fun b => b.configures &&
        b.instanceName.any fun n => Text.lowercase n == Text.lowercase m) = some b ∧
      b.given = some m := by
  rw [value_instances, mem_earliest_iff, List.find?_filterMap] at hm
  obtain ⟨b, hfind, hgiven⟩ := Option.bind_eq_some_iff.1 hm
  have hne : m ≠ "" := (Block.given_eq_some_iff.1 hgiven).2.2
  refine ⟨b, ?_, hgiven⟩
  rw [← hfind]
  congr 1
  funext c
  -- An empty name has an empty lower-case form, which no listed name has.
  rw [Block.given]
  by_cases hc : c.configures
  · cases hname : c.instanceName with
    | none => simp [hc]
    | some n =>
      by_cases hn : n = ""
      · have hlower : Text.lowercase n ≠ Text.lowercase m := by
          rw [Text.lowercase_eq_empty_iff.2 hn]
          exact fun h => hne (Text.lowercase_eq_empty_iff.1 h.symm)
        simp [hc, Option.filter, hn, hn ▸ hlower]
      · simp [hc, Option.filter, hn]
        rfl
  · simp [hc]

end Workspace

/-! ## Compiled motors -/

namespace Compilation

theorem mem_keys_ofList {α : Type} {es : List (String × α)} {k : String} :
    k ∈ (OrderedMap.ofList es).keys ↔ k ∈ Entries.keys es := by
  rw [OrderedMap.ofList, OrderedMap.keys_insertAll, List.mem_eraseDups]
  rfl

/-- A motor has its object if a visited block declares it under exactly this name. -/
theorem objectKey_mem_definitions_iff {board : Board} {pins : PinAssignment} {w : Workspace}
    {n : String} :
    Motor.objectKey n ∈ (run board pins w).parts.definitions.keys ↔
      ∃ b ∈ w.visited, b.configures ∧ b.declaredName = n := by
  rw [parts_run, mem_keys_ofList, Entries.keys, List.map_flatMap, List.mem_flatMap]
  constructor
  · rintro ⟨b, hb, hkey⟩
    obtain ⟨hvisited, hconf⟩ := List.mem_filter.1 hb
    have hname : Motor.objectKey n = Motor.objectKey b.declaredName := by
      simpa [Motor.libraryKey_ne_objectKey] using hkey
    exact ⟨b, hvisited, hconf, (objectKey_injective _ _ hname).symm⟩
  · rintro ⟨b, hvisited, hconf, rfl⟩
    exact ⟨b, List.mem_filter.2 ⟨hvisited, hconf⟩, by simp⟩

/-- A visited motor has its object and its speed under its name. -/
theorem mem_keys_parts_run {board : Board} {pins : PinAssignment} {w : Workspace} {b : Block}
    (hb : b ∈ w.visited) {m : String} (hm : b.given = some m) :
    Motor.objectKey m ∈ (run board pins w).parts.definitions.keys ∧
      Motor.speedKey m ∈ (run board pins w).parts.setups.keys := by
  obtain ⟨hconf, hname, -⟩ := Block.given_eq_some_iff.1 hm
  have hdeclared : b.declaredName = m := Block.declaredName_of_instanceName hname
  constructor
  · exact objectKey_mem_definitions_iff.2 ⟨b, hb, hconf, hdeclared⟩
  · rw [parts_run, mem_keys_ofList, Entries.keys, List.map_map, List.mem_map]
    exact ⟨b, List.mem_filter.2 ⟨hb, hconf⟩, by simp [hdeclared]⟩

/-- What the registry lists and what is compiled.  The compiled blocks are blocks that the registry
sees, in the same order; of the names of compiled motors each is listed in exactly one casing; and a
listed name is spelled as in the first block that declares it in any casing, whose object and speed
are compiled under this name if the block is. -/
theorem instances_agree (board : Board) (pins : PinAssignment) (w : Workspace) :
    let instances := w.instances.value
    let report := (ofWorkspace board pins w).value
    (report = (w.visited.foldl (fun c b => (addBlock board b c).value) (start pins)).report board ∧
        w.visited.Sublist w.preorder) ∧
      (∀ b ∈ w.visited, b.configures → ∀ n, b.instanceName = some n → n ≠ "" →
        ∃ m, (instances.filter fun m => Text.lowercase m = Text.lowercase n) = [m]) ∧
      (∀ m ∈ instances, ∃ b,
        (w.preorder.find? fun b => b.configures &&
          b.instanceName.any fun n => Text.lowercase n == Text.lowercase m) = some b ∧
        b.instanceName = some m ∧
        (b ∈ w.visited → "global_stepper_" ++ m ∈ report.parts.definitions.keys ∧
          "setup_stepper_" ++ m ∈ report.parts.setups.keys)) := by
  intro instances report
  have hreport : report = (run board pins w).report board := value_eq_run board pins w
  have hsub := w.visited_sublist_preorder
  refine ⟨⟨hreport, hsub⟩, ?_, ?_⟩
  · intro b hb hconf n hn hne
    have hgiven : b.given = some n := Block.given_eq_some_iff.2 ⟨hconf, hn, hne⟩
    exact Workspace.filter_instances (hsub.subset hb) hgiven
  · intro m hm
    obtain ⟨b, hfind, hgiven⟩ := Workspace.exists_first_declaration hm
    refine ⟨b, hfind, (Block.given_eq_some_iff.1 hgiven).2.1, ?_⟩
    intro hb
    rw [hreport]
    exact mem_keys_parts_run hb hgiven

/-- A motor with a name. -/
def namedMotor (id name : String) (disabled : Bool) : Block :=
  ⟨id, "stepper_configure", ∅,
    [("STEPPER_NAME", ⟨"t", "text", .ofList [("TEXT", name)], [], none, false⟩)], none, disabled⟩

/-- One name in three casings, of which the second is not compiled. -/
def casings : Workspace :=
  ⟨[namedMotor "a" "Arm" false, namedMotor "b" "ARM" true, namedMotor "c" "arm" false]⟩

theorem instances_agree_casings :
    (namedMotor "c" "arm" false ∈ casings.visited ∧
        ∃ m, (casings.instances.value.filter
          fun m => Text.lowercase m = Text.lowercase "arm") = [m]) ∧
      ("Arm" ∈ casings.instances.value ∧
        "global_stepper_Arm" ∈
          (ofWorkspace .uno .empty casings).value.parts.definitions.keys) := by
  have hvisited : namedMotor "c" "arm" false ∈ casings.visited := by decide
  have hlisted : "Arm" ∈ casings.instances.value := by decide +kernel
  have hfirst : (casings.preorder.find? fun b => b.configures &&
      b.instanceName.any fun n => Text.lowercase n == Text.lowercase "Arm") =
        some (namedMotor "a" "Arm" false) := by
    decide +kernel
  obtain ⟨-, hcasing, hname⟩ := instances_agree .uno .empty casings
  obtain ⟨b, hfind, -, hkeys⟩ := hname "Arm" hlisted
  rw [hfirst] at hfind
  cases hfind
  refine ⟨⟨hvisited, ?_⟩, hlisted, (hkeys (by decide)).1⟩
  exact hcasing _ hvisited rfl "arm" rfl (by decide)

end Compilation

end MotorSketch
