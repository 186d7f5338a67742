import MotorSketch.Proofs.Json.Tree
import MotorSketch.Workspace.Reader

/-!
# Spellings of workspaces

One workspace can be written in many ways.  A workspace and each of its blocks may be an object
with its members in any order, among them any with unknown keys, or the list of its fields; what
has its default may be left out; and within `fields` and `inputs` a key may come again.  A spelling
records these choices.  It says which workspace is meant, how deep the lists and objects that are
wanted are nested, and which keys an object has once too often.

    w.Sound → w.node.Whole                                                            (whole_node)

Spaces, escapes and numerals are chosen when the node of a spelling is written (`Json.Spells`).
-/

namespace MotorSketch

open Json (Member Node Value)
open Reader (BlockField blocksName)

mutual

inductive SpelledBlock
  | object (members : List SpelledMember)
  /-- The values without their keys. -/
  | list (items : List SpelledMember)

/-- What a block says about one of its fields, or something that is passed over. -/
inductive SpelledMember
  | id (s : String)
  | kind (s : String)
  | fields (entries : List (String × String))
  | inputs (entries : List (String × SpelledBlock))
  | next (b : SpelledBlock)
  | noNext
  | disabled (b : Bool)
  | unknown (key : String) (value : Node)

end

namespace SpelledMember

def field? : SpelledMember → Option BlockField
  | id _ => some .id
  | kind _ => some .kind
  | fields _ => some .fields
  | inputs _ => some .inputs
  | next _ | noNext => some .next
  | disabled _ => some .disabled
  | unknown _ _ => none

def key : SpelledMember → String
  | unknown key _ => key
  | m => (m.field?.map BlockField.name).getD ""

/-- The key, if it stands for a field that has been seen. -/
def again (seen : List BlockField) (m : SpelledMember) : List String :=
  (m.field?.toList.filter (· ∈ seen)).map BlockField.name

theorem eq_unknown_of_field? {m : SpelledMember} (h : m.field? = none) :
    ∃ key value, m = .unknown key value := by
  cases m with
  | unknown key value => exact ⟨key, value, rfl⟩
  | _ => cases h

end SpelledMember

namespace SpelledBlock

/-! ## The node -/

mutual

def node : SpelledBlock → Node
  | object members => .object (memberNodes members) none
  | list items => .list ((memberNodes items).map Prod.snd) none

def memberNode : SpelledMember → Node
  | .id s => .text (some s)
  | .kind s => .text (some s)
  | .fields es => (Value.textMap es).node
  | .inputs es => .object (plugNodes es) none
  | .next b => node b
  | .noNext => .null
  | .disabled b => .bool b
  | .unknown _ value => value

def memberNodes : List SpelledMember → List Member
  | [] => []
  | m :: more => (some m.key, memberNode m) :: memberNodes more

def plugNodes : List (String × SpelledBlock) → List Member
  | [] => []
  | (name, b) :: more => (some name, node b) :: plugNodes more

end

/-! ## The block that is meant -/

mutual

/-- Every member sets its field in the block of defaults. -/
def block : SpelledBlock → Block
  | object members => setAll (.fresh "" "") members
  | list items => setAll (.fresh "" "") items

def set (b : Block) : SpelledMember → Block
  | .id s => { b with id := s }
  | .kind s => { b with kind := s }
  | .fields es => { b with fields := OrderedMap.ofList es }
  | .inputs es => { b with inputs := plugAll [] es }
  | .next successor => { b with next := some (block successor) }
  | .noNext => { b with next := none }
  | .disabled d => { b with disabled := d }
  | .unknown _ _ => b

def setAll (b : Block) : List SpelledMember → Block
  | [] => b
  | m :: more => setAll (set b m) more

/-- A name that comes again keeps its place and gets the last block. -/
def plugAll (plugs : List (String × Block)) :
    List (String × SpelledBlock) → List (String × Block)
  | [] => plugs
  | (name, b) :: more => plugAll (Entries.insert name (block b) plugs) more

end

/-! ## Nesting -/

mutual

/-- How deep the lists and objects that are wanted are nested. -/
def nesting : SpelledBlock → Nat
  | object members => membersNesting members + 1
  | list items => membersNesting items + 1

def memberNesting : SpelledMember → Nat
  | .fields _ => 1
  | .inputs es => plugsNesting es + 1
  | .next b => nesting b
  | _ => 0

def membersNesting : List SpelledMember → Nat
  | [] => 0
  | m :: more => max (memberNesting m) (membersNesting more)

def plugsNesting : List (String × SpelledBlock) → Nat
  | [] => 0
  | (_, b) :: more => max (nesting b) (plugsNesting more)

end

/-! ## Repeated keys -/

mutual

/-- The keys of fields that come again in the same object, in the order of the text. -/
def repeats : SpelledBlock → List String
  | object members => membersRepeats [] members
  | list items => membersRepeats [] items

def memberRepeats : SpelledMember → List String
  | .inputs es => plugsRepeats es
  | .next b => repeats b
  | _ => []

def membersRepeats (seen : List BlockField) : List SpelledMember → List String
  | [] => []
  | m :: more =>
    m.again seen ++ (memberRepeats m ++ membersRepeats (m.field?.toList ++ seen) more)

def plugsRepeats : List (String × SpelledBlock) → List String
  | [] => []
  | (_, b) :: more => repeats b ++ plugsRepeats more

end

/-! ## Soundness -/

mutual

/-- The id and the kind are there, a list has its fields in order, and no key of a field is used
for something else. -/
def Sound : SpelledBlock → Prop
  | object members =>
    MembersSound members ∧ some .id ∈ members.map SpelledMember.field? ∧
      some .kind ∈ members.map SpelledMember.field?
  | list items =>
    MembersSound items ∧ items.map SpelledMember.field? <+: BlockField.all.map some ∧
      2 ≤ items.length

def MemberSound : SpelledMember → Prop
  | .inputs es => PlugsSound es
  | .next b => Sound b
  | .unknown key value => (∀ f : BlockField, f.name ≠ key) ∧ value.Whole
  | _ => True

def MembersSound : List SpelledMember → Prop
  | [] => True
  | m :: more => MemberSound m ∧ MembersSound more

def PlugsSound : List (String × SpelledBlock) → Prop
  | [] => True
  | (_, b) :: more => Sound b ∧ PlugsSound more

end

/-- A list that has an id and a kind starts with them. -/
theorem mem_of_prefix_all {fs : List (Option BlockField)} (h : fs <+: BlockField.all.map some)
    (hlen : 2 ≤ fs.length) : some .id ∈ fs ∧ some .kind ∈ fs := by
  match fs, hlen with
  | a :: b :: more, _ =>
    simp only [BlockField.all, List.map_cons, List.cons_prefix_cons] at h
    obtain ⟨rfl, rfl, -⟩ := h
    simp

/-! ## The node is whole -/

theorem itemsWhole_snd {ms : List Member} (h : Node.MembersWhole ms) :
    Node.ItemsWhole (ms.map Prod.snd) := by
  induction ms with
  | nil => trivial
  | cons m ms ih => exact ⟨h.1, ih h.2⟩

mutual

theorem whole_node (b : SpelledBlock) (h : b.Sound) : b.node.Whole := by
  match b, h with
  | object members, h => exact ⟨rfl, whole_memberNodes members h.1⟩
  | list items, h => exact ⟨rfl, itemsWhole_snd (whole_memberNodes items h.1)⟩

theorem whole_memberNode (m : SpelledMember) (h : MemberSound m) : (memberNode m).Whole := by
  match m, h with
  | .id _, _ | .kind _, _ | .noNext, _ | .disabled _, _ => trivial
  | .fields es, _ => exact (Value.textMap es).whole_node
  | .inputs es, h => exact ⟨rfl, whole_plugNodes es h⟩
  | .next b, h => exact whole_node b h
  | .unknown _ _, h => exact h.2

theorem whole_memberNodes (ms : List SpelledMember) (h : MembersSound ms) :
    Node.MembersWhole (memberNodes ms) := by
  match ms, h with
  | [], _ => trivial
  | m :: more, h => exact ⟨whole_memberNode m h.1, whole_memberNodes more h.2⟩

theorem whole_plugNodes (es : List (String × SpelledBlock)) (h : PlugsSound es) :
    Node.MembersWhole (plugNodes es) := by
  match es, h with
  | [], _ => trivial
  | (_, b) :: more, h => exact ⟨whole_node b h.1, whole_plugNodes more h.2⟩

end

end SpelledBlock

/-! ## Workspaces -/

inductive SpelledWorkspaceMember
  | blocks (bs : List SpelledBlock)
  | unknown (key : String) (value : Node)

inductive SpelledWorkspace
  | object (members : List SpelledWorkspaceMember)
  /-- The blocks without their key, if there are any. -/
  | list (blocks : Option (List SpelledBlock))

namespace SpelledWorkspaceMember

def key : SpelledWorkspaceMember → String
  | blocks _ => blocksName
  | unknown key _ => key

def node : SpelledWorkspaceMember → Node
  | blocks bs => .list (bs.map SpelledBlock.node) none
  | unknown _ value => value

def set (w : Workspace) : SpelledWorkspaceMember → Workspace
  | blocks bs => ⟨bs.map SpelledBlock.block⟩
  | unknown _ _ => w

def nesting : SpelledWorkspaceMember → Nat
  | blocks bs => (bs.map SpelledBlock.nesting).foldr max 0 + 1
  | unknown _ _ => 0

def Sound : SpelledWorkspaceMember → Prop
  | blocks bs => ∀ b ∈ bs, b.Sound
  | unknown key value => key ≠ blocksName ∧ value.Whole

/-- The keys that come again among the members, behind `blocks` or not. -/
def repeatsBehind (seen : Bool) : List SpelledWorkspaceMember → List String
  | [] => []
  | blocks bs :: more =>
    (if seen then [blocksName] else []) ++
      (bs.flatMap SpelledBlock.repeats ++ repeatsBehind true more)
  | unknown _ _ :: more => repeatsBehind seen more

theorem whole_node {m : SpelledWorkspaceMember} (h : m.Sound) : m.node.Whole := by
  cases m with
  | unknown key value => exact h.2
  | blocks bs =>
    refine ⟨rfl, ?_⟩
    induction bs with
    | nil => trivial
    | cons b bs ih =>
      exact ⟨b.whole_node (h b (by simp)), ih fun c hc => h c (by simp [hc])⟩

end SpelledWorkspaceMember

namespace SpelledWorkspace

def members : SpelledWorkspace → List SpelledWorkspaceMember
  | object members => members
  | list blocks => (blocks.map .blocks).toList

def node : SpelledWorkspace → Node
  | object members => .object (members.map fun m => (some m.key, m.node)) none
  | list blocks => .list (blocks.map fun bs => .list (bs.map SpelledBlock.node) none).toList none

/-- The workspace that is meant. -/
def workspace (w : SpelledWorkspace) : Workspace :=
  w.members.foldl SpelledWorkspaceMember.set .empty

def nesting (w : SpelledWorkspace) : Nat :=
  (w.members.map SpelledWorkspaceMember.nesting).foldr max 0 + 1

def repeats (w : SpelledWorkspace) : List String :=
  SpelledWorkspaceMember.repeatsBehind false w.members

def Sound (w : SpelledWorkspace) : Prop := ∀ m ∈ w.members, m.Sound

theorem whole_node {w : SpelledWorkspace} (h : w.Sound) : w.node.Whole := by
  match w, h with
  | list none, _ => exact ⟨rfl, trivial⟩
  | list (some bs), h =>
    have hbs := SpelledWorkspaceMember.whole_node (h (.blocks bs) (by simp [members]))
    exact ⟨rfl, hbs, trivial⟩
  | object ms, h =>
    refine ⟨rfl, ?_⟩
    induction ms with
    | nil => trivial
    | cons m ms ih =>
      have hms : (object ms).Sound := fun n hn => h n (List.mem_cons_of_mem _ hn)
      exact ⟨SpelledWorkspaceMember.whole_node (h m List.mem_cons_self), ih hms⟩

end SpelledWorkspace

end MotorSketch
