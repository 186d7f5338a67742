import MotorSketch.Block

/-!
# Workspaces

A workspace is the list of its top-level blocks.

    w.preorder = w.blocks.flatMap Block.preorder                        (preorder_eq_flatMap)
-/

namespace MotorSketch

structure Workspace where
  blocks : List Block
  deriving DecidableEq

namespace Workspace

def empty : Workspace := ⟨[]⟩

def isEmpty (w : Workspace) : Bool := w.blocks.isEmpty

/-- Every block, each before the blocks below it. -/
def preorder (w : Workspace) : List Block :=
  (w.blocks.foldl (fun found b => b.collect found) #[]).toList

def WellFormed (w : Workspace) : Prop := ∀ b ∈ w.blocks, b.WellFormed

theorem preorder_eq_flatMap (w : Workspace) :
    w.preorder = w.blocks.flatMap Block.preorder := by
  have hcollect : ∀ (bs : List Block) (found : Array Block),
      (bs.foldl (fun found b => b.collect found) found).toList =
        found.toList ++ bs.flatMap Block.preorder := by
    intro bs
    induction bs with
    | nil => exact fun found => (List.append_nil found.toList).symm
    | cons b bs ih =>
      intro found
      rw [List.foldl_cons, ih, Block.toList_collect, List.flatMap_cons, List.append_assoc]
  exact hcollect w.blocks #[]

end Workspace

end MotorSketch
