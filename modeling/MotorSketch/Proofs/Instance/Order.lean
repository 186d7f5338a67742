import Mathlib.Data.List.Nodup
import MotorSketch.Proofs.Instance

/-!
# Motors in order

The motors of a workspace are offered by their lower-case forms, which are distinct for the listed
names, so there is one such order.  Moving stacks may change in which casing a name is listed, but
not its lower-case form, nor therefore the forms that are offered.

    compareNames a b = .lt ↔ Text.lowercase a < Text.lowercase b ∨
      Text.lowercase a = Text.lowercase b ∧ a < b                          (compareNames_eq_lt_iff)
    order.Perm names ∧ order.Pairwise (nameLe · ·) ↔ order = names.mergeSort nameLe
                                                                              (eq_mergeSort_iff)
    w.instanceChoices.value = the listed names, sorted                   (value_instanceChoices)
-/

namespace MotorSketch

/-! ## Comparing names -/

theorem compare_eq_lt_iff {a b : String} : compare a b = .lt ↔ a < b :=
  compareOfLessAndEq_eq_lt

theorem compareNames_eq_lt_iff {a b : String} :
    compareNames a b = .lt ↔ Text.lowercase a < Text.lowercase b ∨
      Text.lowercase a = Text.lowercase b ∧ a < b := by
  rw [compareNames, compareLex, Ordering.then_eq_lt, compareOn, compare_eq_lt_iff,
    compare_eq_lt_iff, Std.LawfulEqCmp.compare_eq_iff_eq]

instance : Std.TransCmp compareNames :=
  inferInstanceAs (Std.TransCmp (compareLex (compareOn Text.lowercase) compare))

instance : Std.LawfulEqCmp compareNames where
  eq_of_compare h := Std.LawfulEqCmp.eq_of_compare (compareLex_eq_eq.1 h).2

theorem nameLe_trans {a b c : String} (hab : nameLe a b = true) (hbc : nameLe b c = true) :
    nameLe a c = true :=
  Std.TransCmp.isLE_trans hab hbc

theorem nameLe_antisymm {a b : String} (hab : nameLe a b = true) (hba : nameLe b a = true) :
    a = b :=
  Std.LawfulEqCmp.eq_of_compare (Std.OrientedCmp.isLE_antisymm hab hba)

theorem nameLe_total (a b : String) : (nameLe a b || nameLe b a) = true := by
  have hswap : compareNames b a = (compareNames a b).swap := Std.OrientedCmp.eq_swap
  rw [nameLe, nameLe, hswap]
  cases compareNames a b <;> rfl

/-- Of two names with different lower-case forms the lower one has the lower form. -/
theorem lowercase_lt_of_nameLe {a b : String} (h : nameLe a b = true)
    (hne : Text.lowercase a ≠ Text.lowercase b) : Text.lowercase a < Text.lowercase b := by
  cases hcmp : compareNames a b with
  | lt => exact (compareNames_eq_lt_iff.1 hcmp).resolve_right fun heq => hne heq.1
  | eq =>
    have heq : a = b := Std.LawfulEqCmp.eq_of_compare hcmp
    exact absurd (congrArg Text.lowercase heq) hne
  | gt => simp [nameLe, hcmp] at h

/-! ## Sorted names -/

theorem eq_mergeSort_iff {names order : List String} :
    (order.Perm names ∧ order.Pairwise fun a b => nameLe a b = true) ↔
      order = names.mergeSort nameLe := by
  have hsorted : (names.mergeSort nameLe).Pairwise fun a b => nameLe a b = true :=
    @List.pairwise_mergeSort _ nameLe (fun _ _ _ => nameLe_trans) nameLe_total names
  have hperm := List.mergeSort_perm names nameLe
  constructor
  · rintro ⟨horder, hle⟩
    exact List.Perm.eq_of_pairwise (fun _ _ _ _ => nameLe_antisymm) hle hsorted
      (horder.trans hperm.symm)
  · rintro rfl
    exact ⟨hperm, hsorted⟩

theorem mergeSort_eq_of_perm {names others : List String} (h : names.Perm others) :
    names.mergeSort nameLe = others.mergeSort nameLe := by
  obtain ⟨hperm, hle⟩ := eq_mergeSort_iff.2 (Eq.refl (names.mergeSort nameLe))
  exact eq_mergeSort_iff.1 ⟨hperm.trans h, hle⟩

/-- Names with distinct lower-case forms are sorted by these alone. -/
theorem eq_mergeSort_iff_of_nodup {names order : List String}
    (h : (names.map Text.lowercase).Nodup) :
    (order.Perm names ∧ order.Pairwise fun a b => Text.lowercase a < Text.lowercase b) ↔
      order = names.mergeSort nameLe := by
  rw [← eq_mergeSort_iff]
  constructor
  · rintro ⟨horder, hlt⟩
    refine ⟨horder, hlt.imp fun {a b} hab => ?_⟩
    have hcmp : compareNames a b = .lt := compareNames_eq_lt_iff.2 (.inl hab)
    rw [nameLe, hcmp]
    rfl
  · rintro ⟨horder, hle⟩
    have hne : order.Pairwise fun a b => Text.lowercase a ≠ Text.lowercase b :=
      List.pairwise_map.1 ((horder.map Text.lowercase).nodup_iff.2 h)
    exact ⟨horder, hle.imp₂ (fun _ _ => lowercase_lt_of_nameLe) hne⟩

/-! ## Offered motors -/

namespace Workspace

variable {v w : Workspace}

theorem value_instanceChoices (w : Workspace) :
    w.instanceChoices.value = (w.instances.value.mergeSort nameLe).map Choice.plain :=
  rfl

theorem nodup_lowercase_instances (w : Workspace) :
    (w.instances.value.map Text.lowercase).Nodup := by
  rw [value_instances]
  exact nodup_map_earliest _ _

/-- Moving stacks moves the declared names. -/
theorem given_perm (h : v.blocks.Perm w.blocks) :
    (v.preorder.filterMap Block.given).Perm (w.preorder.filterMap Block.given) := by
  rw [preorder_eq_flatMap, preorder_eq_flatMap]
  exact (h.flatMap_right _).filterMap _

theorem lowercase_choices_eq (h : v.blocks.Perm w.blocks) :
    v.instanceChoices.value.map (fun c => Text.lowercase c.label) =
      w.instanceChoices.value.map fun c => Text.lowercase c.label := by
  have hsorted : ∀ w : Workspace,
      ((w.instances.value.mergeSort nameLe).map Text.lowercase).Pairwise (· < ·) := fun w =>
    List.pairwise_map.2 ((eq_mergeSort_iff_of_nodup w.nodup_lowercase_instances).2 rfl).2
  have hmem : ∀ (w : Workspace) (x : String),
      x ∈ (w.instances.value.mergeSort nameLe).map Text.lowercase ↔
        x ∈ (w.preorder.filterMap Block.given).map Text.lowercase := by
    intro w x
    rw [((List.mergeSort_perm _ _).map Text.lowercase).mem_iff, value_instances,
      mem_map_earliest]
  have hforms := eq_of_pairwise_of_mem_iff (fun _ _ => String.lt_asymm) (hsorted v) (hsorted w)
    fun x => by rw [hmem, hmem, ((given_perm h).map Text.lowercase).mem_iff]
  simpa [value_instanceChoices, Function.comp_def, Choice.plain] using hforms

/-- Without names that differ only in case, all declared names are listed. -/
theorem mem_instances_iff_of_injOn
    (h : ∀ m ∈ w.preorder.filterMap Block.given, ∀ n ∈ w.preorder.filterMap Block.given,
      Text.lowercase m = Text.lowercase n → m = n) {n : String} :
    n ∈ w.instances.value ↔ n ∈ w.preorder.filterMap Block.given := by
  rw [value_instances]
  constructor
  · exact fun hn => (earliest_sublist _ _).subset hn
  · intro hn
    obtain ⟨m, hm, hkey⟩ := exists_mem_earliest Text.lowercase hn
    exact h m ((earliest_sublist _ _).subset hm) n hn hkey ▸ hm

theorem instances_perm (hperm : v.blocks.Perm w.blocks)
    (h : ∀ m ∈ v.preorder.filterMap Block.given, ∀ n ∈ v.preorder.filterMap Block.given,
      Text.lowercase m = Text.lowercase n → m = n) :
    v.instances.value.Perm w.instances.value := by
  have hgiven := given_perm hperm
  have hw : ∀ m ∈ w.preorder.filterMap Block.given, ∀ n ∈ w.preorder.filterMap Block.given,
      Text.lowercase m = Text.lowercase n → m = n := by
    simpa only [hgiven.mem_iff] using h
  refine (List.perm_ext_iff_of_nodup (List.Nodup.of_map _ v.nodup_lowercase_instances)
    (List.Nodup.of_map _ w.nodup_lowercase_instances)).2 fun n => ?_
  rw [mem_instances_iff_of_injOn h, mem_instances_iff_of_injOn hw, hgiven.mem_iff]

/-- What a workspace offers, by name.  The listed names are offered in the one order in which their
lower-case forms increase.  Moving stacks leaves these forms as they are, and leaves all as it is
unless two declared names differ only in case.  And names are compared by a total order, so that any
names can be sorted in one way. -/
theorem instanceChoices_sorted :
    (∀ w : Workspace, ∃ order : List String, w.instanceChoices.value = order.map Choice.plain ∧
        ∀ other : List String, (other.Perm w.instances.value ∧
          other.Pairwise fun a b => Text.lowercase a < Text.lowercase b) ↔ other = order) ∧
      (∀ v w : Workspace, v.blocks.Perm w.blocks →
        v.instanceChoices.value.map (fun c => Text.lowercase c.label) =
            w.instanceChoices.value.map (fun c => Text.lowercase c.label) ∧
          ((∀ m ∈ v.preorder.filterMap Block.given, ∀ n ∈ v.preorder.filterMap Block.given,
              Text.lowercase m = Text.lowercase n → m = n) →
            v.instanceChoices.value = w.instanceChoices.value)) ∧
      ((∀ a b, compareNames a b = .eq ↔ a = b) ∧
        (∀ a b, compareNames b a = (compareNames a b).swap) ∧
        (∀ a b, nameLe a b → nameLe b a → a = b) ∧
        (∀ a b c, nameLe a b → nameLe b c → nameLe a c) ∧
        ∀ a b, nameLe a b ∨ nameLe b a) ∧
      ∀ names order : List String, (order.Perm names ∧ order.Pairwise fun a b => nameLe a b) ↔
        order = names.mergeSort nameLe := by
  refine ⟨?_, ?_, ⟨?_, ?_, ?_, ?_, ?_⟩, ?_⟩
  · intro w
    refine ⟨w.instances.value.mergeSort nameLe, value_instanceChoices w, fun other => ?_⟩
    exact eq_mergeSort_iff_of_nodup w.nodup_lowercase_instances
  · intro v w hperm
    refine ⟨lowercase_choices_eq hperm, fun h => ?_⟩
    rw [value_instanceChoices, value_instanceChoices,
      mergeSort_eq_of_perm (instances_perm hperm h)]
  · exact fun a b => Std.LawfulEqCmp.compare_eq_iff_eq
  · exact fun a b => Std.OrientedCmp.eq_swap
  · exact fun a b => nameLe_antisymm
  · exact fun a b c => nameLe_trans
  · exact fun a b => by simpa using nameLe_total a b
  · exact fun names order => eq_mergeSort_iff

/-- A motor that is named after its block. -/
def eponymousMotor (name : String) : Block :=
  (Block.fresh name "stepper_configure").plug "STEPPER_NAME"
    ((Block.fresh "t" "text").setField "TEXT" name)

theorem instanceChoices_sorted_swapped :
    let v : Workspace := ⟨[eponymousMotor "Leg", eponymousMotor "arm"]⟩
    let w : Workspace := ⟨[eponymousMotor "arm", eponymousMotor "Leg"]⟩
    (v.blocks.Perm w.blocks ∧
        ∀ m ∈ v.preorder.filterMap Block.given, ∀ n ∈ v.preorder.filterMap Block.given,
          Text.lowercase m = Text.lowercase n → m = n) ∧
      v.instances.value ≠ w.instances.value ∧
      v.instanceChoices.value = w.instanceChoices.value := by
  intro v w
  have hperm : v.blocks.Perm w.blocks := List.Perm.swap _ _ []
  have hcase : ∀ m ∈ v.preorder.filterMap Block.given, ∀ n ∈ v.preorder.filterMap Block.given,
      Text.lowercase m = Text.lowercase n → m = n := by
    decide +kernel
  obtain ⟨-, hmoved, -⟩ := instanceChoices_sorted
  exact ⟨⟨hperm, hcase⟩, by decide +kernel, (hmoved v w hperm).2 hcase⟩

end Workspace

end MotorSketch
