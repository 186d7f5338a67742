import MotorSketch.Proofs.OrderedMap.Earliest
import MotorSketch.Workspace

/-!
# Nodes in preorder

A node of a workspace is reached from a top-level block by going down into inputs and along
successors.  The walk over a workspace lists every node once: the stacks in their order, each node
before all nodes below it, and where two nodes part, first what is plugged into the earlier input,
and what is plugged in before the successor.

    b.preorder = b :: (the preorders of its plugs ++ that of its successor)         (preorder_eq)
    (path, x) ∈ b.nodes ↔ below? path b = some x                                   (mem_nodes_iff)
    b.nodes.Pairwise fun e f => PathBefore e.1 f.1                                (pairwise_nodes)
    b.nodes.map Prod.snd = b.preorder                                              (map_snd_nodes)
-/

namespace MotorSketch

/-! ## Addresses -/

/-- One step down from a block: into an input, counted in the order of the inputs, or on to the
successor. -/
inductive Branch
  | input (place : Nat)
  | next

/-- An earlier input comes first, and every input comes before the successor. -/
inductive Branch.Before : Branch → Branch → Prop
  | inputs {i j : Nat} : i < j → Before (.input i) (.input j)
  | next {i : Nat} : Before (.input i) .next

/-- The second path leads on from the end of the first, or they part and the first takes the
earlier branch. -/
inductive PathBefore : List Branch → List Branch → Prop
  | below (path : List Branch) (c : Branch) (rest : List Branch) :
    PathBefore path (path ++ c :: rest)
  | part (path : List Branch) {c d : Branch} (rest rest' : List Branch) :
    c.Before d → PathBefore (path ++ c :: rest) (path ++ d :: rest')

/-- A place in a workspace: the index of a top-level block and a path down from it. -/
structure NodeAddress where
  top : Nat
  path : List Branch

/-- The first address is in an earlier stack, or its path comes first in the same one. -/
def NodeAddress.Before (a c : NodeAddress) : Prop :=
  a.top < c.top ∨ a.top = c.top ∧ PathBefore a.path c.path

/-- The block at the end of the path. -/
def Block.below? : List Branch → Block → Option Block
  | [], b => some b
  | .input i :: path, b => b.inputs[i]?.bind fun e => below? path e.2
  | .next :: path, b => b.next.bind fun n => below? path n

def Workspace.node? (w : Workspace) (a : NodeAddress) : Option Block :=
  w.blocks[a.top]?.bind fun b => b.below? a.path

/-! ## Order -/

theorem Branch.Before.asymm {c d : Branch} (h : c.Before d) : ¬d.Before c := by
  intro h'
  cases h with
  | inputs hij =>
    cases h' with
    | inputs hji => omega
  | next => cases h'

namespace PathBefore

theorem cons {p q : List Branch} (c : Branch) (h : PathBefore p q) :
    PathBefore (c :: p) (c :: q) := by
  cases h with
  | below _ d rest => exact below (c :: p) d rest
  | part path rest rest' hd => exact part (c :: path) rest rest' hd

theorem cons_iff {c d : Branch} {p q : List Branch} :
    PathBefore (c :: p) (d :: q) ↔ c.Before d ∨ c = d ∧ PathBefore p q := by
  constructor
  · generalize hs : c :: p = s
    generalize ht : d :: q = t
    intro h
    cases h with
    | below path e rest =>
      subst hs
      rw [List.cons_append, List.cons.injEq] at ht
      exact .inr ⟨ht.1.symm, ht.2 ▸ below p e rest⟩
    | part path rest rest' he =>
      cases path with
      | nil =>
        cases hs
        cases ht
        exact .inl he
      | cons f path =>
        cases hs
        cases ht
        exact .inr ⟨rfl, part path rest rest' he⟩
  · rintro (h | ⟨rfl, h⟩)
    · exact part [] p q h
    · exact h.cons c

theorem not_nil (p : List Branch) : ¬PathBefore p [] := by
  generalize hq : ([] : List Branch) = q
  intro h
  cases h with
  | below path c rest => exact absurd hq.symm (by simp)
  | part path rest rest' hc => exact absurd hq.symm (by simp)

theorem asymm {p q : List Branch} (h : PathBefore p q) : ¬PathBefore q p := by
  induction p generalizing q with
  | nil => exact not_nil q
  | cons c p ih =>
    cases q with
    | nil => exact absurd h (not_nil _)
    | cons d q =>
      rw [cons_iff] at h ⊢
      rintro (hdc | ⟨rfl, hqp⟩)
      · rcases h with hcd | ⟨rfl, -⟩
        · exact hcd.asymm hdc
        · exact hdc.asymm hdc
      · rcases h with hcd | ⟨-, hpq⟩
        · exact hcd.asymm hcd
        · exact ih hpq hqp

end PathBefore

theorem NodeAddress.Before.asymm {a c : NodeAddress} (h : a.Before c) : ¬c.Before a := by
  rintro (hlt | ⟨heq, hpath⟩)
  · rcases h with h | ⟨h, -⟩ <;> omega
  · rcases h with h | ⟨-, h⟩
    · omega
    · exact h.asymm hpath

/-- In a list in one strict order the order tells the places. -/
theorem place_lt_iff {α : Type} {lt : α → α → Prop} (hasymm : ∀ a b, lt a b → ¬lt b a)
    {xs : List α} (h : xs.Pairwise lt) {i j : Nat} {a b : α} (hi : xs[i]? = some a)
    (hj : xs[j]? = some b) : i < j ↔ lt a b := by
  obtain ⟨hil, rfl⟩ := List.getElem?_eq_some_iff.1 hi
  obtain ⟨hjl, rfl⟩ := List.getElem?_eq_some_iff.1 hj
  rw [List.pairwise_iff_getElem] at h
  constructor
  · exact fun hij => h i j hil hjl hij
  · intro hlt
    rcases Nat.lt_trichotomy i j with hij | rfl | hji
    · exact hij
    · exact absurd hlt (hasymm _ _ hlt)
    · exact absurd hlt (hasymm _ _ (h j i hjl hil hji))

/-! ## Nodes of a block -/

namespace Block

/-- A node below, seen from the block above. -/
def under (c : Branch) (e : List Branch × Block) : List Branch × Block := (c :: e.1, e.2)

mutual

/-- The blocks at and below the block, each with the path that leads to it. -/
def nodes : Block → List (List Branch × Block)
  | b@⟨_, _, _, inputs, next, _⟩ => ([], b) :: (inputNodes 0 inputs ++ nextNodes next)

/-- The nodes below the inputs, the first of which has the place `i`. -/
def inputNodes (i : Nat) : List (String × Block) → List (List Branch × Block)
  | [] => []
  | (_, b) :: more => (nodes b).map (under (.input i)) ++ inputNodes (i + 1) more

def nextNodes : Option Block → List (List Branch × Block)
  | none => []
  | some b => (nodes b).map (under .next)

end

mutual

theorem map_snd_nodes (b : Block) : b.nodes.map Prod.snd = b.preorder := by
  match b with
  | ⟨_, _, _, inputs, next, _⟩ =>
    rw [nodes, preorder, List.map_cons, List.map_append, map_snd_inputNodes, map_snd_nextNodes]

theorem map_snd_inputNodes (i : Nat) (inputs : List (String × Block)) :
    (inputNodes i inputs).map Prod.snd = inputsPreorder inputs := by
  match inputs with
  | [] => rfl
  | (_, b) :: more =>
    rw [inputNodes, inputsPreorder, List.map_append, List.map_map, map_snd_inputNodes,
      ← map_snd_nodes b]
    rfl

theorem map_snd_nextNodes (next : Option Block) :
    (nextNodes next).map Prod.snd = nextPreorder next := by
  match next with
  | none => rfl
  | some b =>
    rw [nextNodes, nextPreorder, List.map_map, ← map_snd_nodes b]
    rfl

end

theorem mem_map_under {c : Branch} {es : List (List Branch × Block)} {p : List Branch} {x : Block} :
    (p, x) ∈ es.map (under c) ↔ ∃ q, p = c :: q ∧ (q, x) ∈ es := by
  rw [List.mem_map]
  constructor
  · rintro ⟨⟨q, y⟩, he, h⟩
    cases h
    exact ⟨q, rfl, he⟩
  · rintro ⟨q, rfl, he⟩
    exact ⟨(q, x), he, rfl⟩

mutual

theorem mem_nodes_iff {b : Block} {p : List Branch} {x : Block} :
    (p, x) ∈ b.nodes ↔ below? p b = some x := by
  match b with
  | ⟨id, kind, fields, inputs, next, disabled⟩ =>
    rw [nodes, List.mem_cons, List.mem_append, mem_inputNodes_iff, mem_nextNodes_iff]
    cases p with
    | nil => simp [below?, eq_comm (a := x)]
    | cons c q =>
      cases c with
      | input i => simp [below?, Option.bind_eq_some_iff]
      | next => simp [below?, Option.bind_eq_some_iff]

theorem mem_inputNodes_iff {i : Nat} {inputs : List (String × Block)} {p : List Branch}
    {x : Block} : (p, x) ∈ inputNodes i inputs ↔
      ∃ j q e, p = .input (i + j) :: q ∧ inputs[j]? = some e ∧ below? q e.2 = some x := by
  match inputs with
  | [] => simp [inputNodes]
  | (k, b) :: more =>
    rw [inputNodes, List.mem_append, mem_map_under, mem_inputNodes_iff]
    have hplace : ∀ j, i + 1 + j = i + (j + 1) := by omega
    constructor
    · rintro (⟨q, rfl, hq⟩ | ⟨j, q, e, rfl, he, hq⟩)
      · exact ⟨0, q, (k, b), rfl, rfl, mem_nodes_iff.1 hq⟩
      · exact ⟨j + 1, q, e, by rw [hplace], he, hq⟩
    · rintro ⟨j, q, e, rfl, he, hq⟩
      cases j with
      | zero =>
        cases he
        exact .inl ⟨q, rfl, mem_nodes_iff.2 hq⟩
      | succ j => exact .inr ⟨j, q, e, by rw [hplace], he, hq⟩

theorem mem_nextNodes_iff {next : Option Block} {p : List Branch} {x : Block} :
    (p, x) ∈ nextNodes next ↔ ∃ q n, p = .next :: q ∧ next = some n ∧ below? q n = some x := by
  match next with
  | none => simp [nextNodes]
  | some b =>
    rw [nextNodes, mem_map_under]
    simp [mem_nodes_iff]

end

theorem pairwise_map_under {es : List (List Branch × Block)}
    (h : es.Pairwise fun e f => PathBefore e.1 f.1) (c : Branch) :
    (es.map (under c)).Pairwise fun e f => PathBefore e.1 f.1 :=
  List.pairwise_map.2 (h.imp fun hef => hef.cons c)

mutual

/-- The nodes of a block are listed in order: along the tree an earlier part of the list is below an
earlier branch. -/
theorem pairwise_nodes (b : Block) : b.nodes.Pairwise fun e f => PathBefore e.1 f.1 := by
  match b with
  | ⟨id, kind, fields, inputs, next, disabled⟩ =>
    rw [nodes, List.pairwise_cons, List.pairwise_append]
    refine ⟨?_, pairwise_inputNodes 0 inputs, pairwise_nextNodes next, ?_⟩
    · rintro ⟨p, x⟩ h
      rw [List.mem_append, mem_inputNodes_iff, mem_nextNodes_iff] at h
      rcases h with ⟨j, q, e, rfl, -⟩ | ⟨q, n, rfl, -⟩
      · exact .below [] _ q
      · exact .below [] _ q
    · rintro ⟨p, x⟩ hp ⟨p', y⟩ hp'
      obtain ⟨j, q, e, rfl, -⟩ := mem_inputNodes_iff.1 hp
      obtain ⟨q', n, rfl, -⟩ := mem_nextNodes_iff.1 hp'
      exact .part [] q q' .next

theorem pairwise_inputNodes (i : Nat) (inputs : List (String × Block)) :
    (inputNodes i inputs).Pairwise fun e f => PathBefore e.1 f.1 := by
  match inputs with
  | [] => exact .nil
  | (k, b) :: more =>
    rw [inputNodes, List.pairwise_append]
    refine ⟨pairwise_map_under (pairwise_nodes b) _, pairwise_inputNodes (i + 1) more, ?_⟩
    rintro ⟨p, x⟩ hp ⟨p', y⟩ hp'
    obtain ⟨q, rfl, -⟩ := mem_map_under.1 hp
    obtain ⟨j, q', e, rfl, -⟩ := mem_inputNodes_iff.1 hp'
    exact .part [] q q' (.inputs (by omega))

theorem pairwise_nextNodes (next : Option Block) :
    (nextNodes next).Pairwise fun e f => PathBefore e.1 f.1 := by
  match next with
  | none => exact .nil
  | some b => exact pairwise_map_under (pairwise_nodes b) _

end

theorem inputsPreorder_eq_flatMap (inputs : List (String × Block)) :
    inputsPreorder inputs = inputs.flatMap fun e => e.2.preorder := by
  induction inputs with
  | nil => rfl
  | cons e more ih => rw [inputsPreorder, ih, List.flatMap_cons]

theorem preorder_eq (b : Block) :
    b.preorder =
      b :: ((b.inputs.flatMap fun e => e.2.preorder) ++ b.next.elim [] preorder) := by
  obtain ⟨id, kind, fields, inputs, next, disabled⟩ := b
  rw [preorder, inputsPreorder_eq_flatMap]
  cases next <;> rfl

end Block

/-! ## Nodes of a workspace -/

namespace Workspace

/-- The blocks of the workspace, each with its address. -/
def nodes (w : Workspace) : List (NodeAddress × Block) :=
  w.blocks.zipIdx.flatMap fun b => b.1.nodes.map fun e => (⟨b.2, e.1⟩, e.2)

theorem map_snd_nodes (w : Workspace) : w.nodes.map Prod.snd = w.preorder := by
  have hstack : ∀ b : Block × Nat,
      (b.1.nodes.map fun e => ((⟨b.2, e.1⟩ : NodeAddress), e.2)).map Prod.snd = b.1.preorder := by
    intro b
    rw [List.map_map, ← Block.map_snd_nodes]
    rfl
  have hblocks : w.blocks.zipIdx.map Prod.fst = w.blocks := List.zipIdx_map_fst ..
  rw [preorder_eq_flatMap, nodes, List.map_flatMap]
  simp only [hstack]
  rw [← List.flatMap_map, hblocks]

theorem mem_nodes_iff {w : Workspace} {a : NodeAddress} {x : Block} :
    (a, x) ∈ w.nodes ↔ w.node? a = some x := by
  obtain ⟨i, p⟩ := a
  rw [nodes, List.mem_flatMap, node?, Option.bind_eq_some_iff]
  constructor
  · rintro ⟨⟨b, j⟩, hb, h⟩
    obtain ⟨⟨q, y⟩, hq, he⟩ := List.mem_map.1 h
    cases he
    exact ⟨b, List.mem_zipIdx_iff_getElem?.1 hb, Block.mem_nodes_iff.1 hq⟩
  · rintro ⟨b, hb, h⟩
    refine ⟨(b, i), List.mem_zipIdx_iff_getElem?.2 hb, ?_⟩
    exact List.mem_map.2 ⟨(p, x), Block.mem_nodes_iff.2 h, rfl⟩

theorem pairwise_nodes (w : Workspace) : w.nodes.Pairwise fun e f => e.1.Before f.1 := by
  rw [nodes, List.pairwise_flatMap]
  constructor
  · rintro ⟨b, i⟩ -
    exact List.pairwise_map.2 (b.pairwise_nodes.imp fun h => .inr ⟨rfl, h⟩)
  · refine (pairwise_zipIdx w.blocks).imp ?_
    rintro ⟨b, i⟩ ⟨c, j⟩ hij e he f hf
    obtain ⟨_, -, rfl⟩ := List.mem_map.1 he
    obtain ⟨_, -, rfl⟩ := List.mem_map.1 hf
    exact .inl hij

/-- The walk over a workspace.  From every block it adds the preorder of the block to what was found
before: the block, the preorders of what is plugged into its inputs, in their order, and that of its
successor.  So every node, wherever it is and disabled or not, is listed exactly once, and the
addresses tell the order: one stack after the other, a node before those below it, and what is
plugged in before the successor. -/
theorem preorder_nodes (w : Workspace) :
    (∀ (b : Block) (found : Array Block),
        (b.collect found).toList = found.toList ++ b.preorder) ∧
      w.preorder = w.blocks.flatMap Block.preorder ∧
      (∀ b : Block, b.preorder =
        b :: ((b.inputs.flatMap fun e => e.2.preorder) ++ b.next.elim [] Block.preorder)) ∧
      ∃ nodes : List (NodeAddress × Block), w.preorder = nodes.map Prod.snd ∧
        (∀ a x, (a, x) ∈ nodes ↔ w.node? a = some x) ∧
        (nodes.map Prod.fst).Nodup ∧
        ∀ (i j : Nat) a c x y, nodes[i]? = some (a, x) → nodes[j]? = some (c, y) →
          (i < j ↔ a.Before c) := by
  refine ⟨Block.toList_collect, w.preorder_eq_flatMap, Block.preorder_eq, w.nodes,
    w.map_snd_nodes.symm, ?_, ?_, ?_⟩
  · intro a x
    exact mem_nodes_iff
  · refine List.pairwise_map.2 (w.pairwise_nodes.imp ?_)
    intro e f h heq
    rw [heq] at h
    exact h.asymm h
  · intro i j a c x y hi hj
    exact place_lt_iff (fun _ _ h => h.asymm) w.pairwise_nodes hi hj

example : (preorder ⟨[⟨"a", "stepper_configure", ∅, [("STEPPER_NAME", .fresh "b" "text")],
    some (.fresh "c" "stepper_step"), false⟩]⟩).map Block.id = ["a", "b", "c"] := by
  decide

end Workspace

end MotorSketch
