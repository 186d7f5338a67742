import MotorSketch.Proofs.Json.Tree
import MotorSketch.Proofs.OrderedMap
import MotorSketch.Workspace.File

/-!
# Writing and reading workspaces

A written block opens its own object and, inside it, one object for its fields and one for its
plugs, so a block on level n needs n + 1 levels.  A workspace whose blocks all have at most level
126 is read back from both of its layouts; any other one is refused as malformed.

    readBlock levels b.toJson.node = if all levels of b fit then .ok b else .error .malformed
                                                                                  (readBlock_node)
    w.WellFormed → if all levels of w fit then parse w.compact = .ok w ∧ parse w.pretty = .ok w
      else both are malformed                                                   (parse_written)
-/

namespace MotorSketch

open Json (Value Node Member Document)

/-! ## Levels -/

namespace Block

mutual

/-- The level of the block and of all blocks below it, in preorder: a successor is one level below
its owner, a plug two. -/
def levels (level : Nat) : Block → List Nat
  | ⟨_, _, _, inputs, next, _⟩ =>
    level :: (inputLevels (level + 2) inputs ++ nextLevels (level + 1) next)

def inputLevels (level : Nat) : List (String × Block) → List Nat
  | [] => []
  | (_, b) :: more => levels level b ++ inputLevels level more

def nextLevels (level : Nat) : Option Block → List Nat
  | none => []
  | some b => levels level b

end

end Block

/-- Top-level blocks are on level 3, inside the workspace and its list of blocks. -/
def Workspace.levels (w : Workspace) : List Nat := w.blocks.flatMap (Block.levels 3)

namespace Reader

/-! ## Fields -/

theorem BlockField.ofName?_name (f : BlockField) : BlockField.ofName? f.name = some f := by
  cases f <;> decide

theorem readTextEntries_node (es : List (String × String)) (m : OrderedMap String String) :
    readTextEntries m (Value.memberNodes (es.map fun e => (e.1, .text e.2))) =
      .ok (m.insertAll es) := by
  induction es generalizing m with
  | nil => rfl
  | cons e es ih => exact ih (m.insert e.1 e.2)

theorem readTextMap_textMap (levels : Nat) (es : List (String × String)) :
    readTextMap (levels + 1) (Value.textMap es).node = .ok (OrderedMap.ofList es) := by
  have hread := readTextEntries_node es ∅
  show (readTextEntries ∅ (Value.memberNodes _) >>= fun m => .ok m) = .ok (OrderedMap.ofList es)
  rw [hread]
  rfl

theorem readTextMap_node (levels : Nat) (m : OrderedMap String String) :
    readTextMap (levels + 1) (Value.textMap m.entries).node = .ok m := by
  have hm : OrderedMap.ofList m.entries = m :=
    OrderedMap.ext (OrderedMap.entries_ofList m.nodup_keys)
  rw [readTextMap_textMap, hm]

/-! ## Blocks -/

theorem readMembers_field {levels : Nat} {parts : BlockParts} {f : BlockField}
    (h : parts.has f = false) (value : Node) (rest : List Member) :
    readMembers levels parts ((some f.name, value) :: rest) =
      (parts.read levels f value (fun _ => readBlock levels value)
        (fun _ => readPlugs levels value) >>= fun parts => readMembers levels parts rest) := by
  rw [readMembers]
  simp only [readKey, bind, Except.bind, BlockField.ofName?_name, h]
  rfl

theorem readMembers_of_read {levels : Nat} {parts parts' : BlockParts} {f : BlockField}
    {value : Node} {rest : List Member} (h : parts.has f = false)
    (hread : parts.read levels f value (fun _ => readBlock levels value)
      (fun _ => readPlugs levels value) = .ok parts') :
    readMembers levels parts ((some f.name, value) :: rest) = readMembers levels parts' rest := by
  rw [readMembers_field h, hread]
  rfl

theorem readBlock_object (levels : Nat) (members : List Member) :
    readBlock (levels + 1) (.object members none) =
      (readMembers levels .none members >>= fun parts => parts.block) := by
  rw [readBlock]
  rfl

/-- An object with the members that are written for a block. -/
theorem readBlock_members (levels : Nat) (id kind : String) (fields plugs next : Node)
    (disabled : Bool) :
    readBlock (levels + 1) (.object [(some BlockField.id.name, .text (some id)),
        (some BlockField.kind.name, .text (some kind)), (some BlockField.fields.name, fields),
        (some BlockField.inputs.name, plugs), (some BlockField.next.name, next),
        (some BlockField.disabled.name, .bool disabled)] none) =
      (do
        let fs ← readTextMap levels fields
        let ps ← readPlugs levels plugs
        let n ← BlockParts.readNext next fun _ => readBlock levels next
        .ok ⟨id, kind, fs, ps, n, disabled⟩) := by
  rw [readBlock_object, readMembers_of_read rfl rfl, readMembers_of_read rfl rfl,
    readMembers_field rfl, BlockParts.read]
  cases readTextMap levels fields with
  | error e => rfl
  | ok fs =>
    show (readMembers levels ⟨id, kind, fs, none, none, none⟩ _ >>= fun parts => parts.block) = _
    rw [readMembers_field rfl, BlockParts.read]
    cases readPlugs levels plugs with
    | error e => rfl
    | ok ps =>
      show (readMembers levels ⟨id, kind, fs, ps, none, none⟩ _ >>= fun parts => parts.block) = _
      rw [readMembers_field rfl, BlockParts.read]
      cases BlockParts.readNext next fun _ => readBlock levels next with
      | error e => rfl
      | ok n =>
        show (readMembers levels ⟨id, kind, fs, ps, some n, none⟩ _ >>=
          fun parts => parts.block) = _
        rw [readMembers_of_read rfl rfl]
        rfl

theorem node_toJson (id kind : String) (fields : OrderedMap String String)
    (inputs : List (String × Block)) (next : Option Block) (disabled : Bool) :
    (Block.mk id kind fields inputs next disabled).toJson.node =
      .object [(some BlockField.id.name, .text (some id)),
        (some BlockField.kind.name, .text (some kind)),
        (some BlockField.fields.name, (Value.textMap fields.entries).node),
        (some BlockField.inputs.name,
          .object (Value.memberNodes (Block.inputsToJson inputs)) none),
        (some BlockField.next.name, (Block.nextToJson next).node),
        (some BlockField.disabled.name, .bool disabled)] none := by
  rw [Block.toJson]
  simp only [Value.node, Value.memberNodes]
  rfl

mutual

/-- A written block is read back if it and all blocks below it are on level 126 at most; `levels`
more may be opened where the block stands. -/
theorem readBlock_node (b : Block) (h : b.WellFormed) {levels level : Nat}
    (hl : levels + level = 128) :
    readBlock levels b.toJson.node =
      if ∀ l ∈ b.levels level, l ≤ 126 then .ok b else .error .malformed := by
  match b, h with
  | ⟨id, kind, fields, inputs, next, disabled⟩, h =>
    rw [node_toJson]
    by_cases hlevel : level ≤ 126
    · obtain ⟨inner, rfl⟩ : ∃ inner, levels = inner + 2 := ⟨levels - 2, by omega⟩
      have hplug : inner + (level + 2) = 128 := by omega
      have hbelow : inner + 1 + (level + 1) = 128 := by omega
      have hinputs := readPlugEntries_node inputs h.2.1 [] h.1 hplug
      have hnext := readNext_node next h.2.2 hbelow
      have hplugs : readPlugs (inner + 1)
          (.object (Value.memberNodes (Block.inputsToJson inputs)) none) =
            (readPlugEntries inner [] (Value.memberNodes (Block.inputsToJson inputs)) >>=
              fun m => .ok m) := by
        rw [readPlugs]
        rfl
      rw [readBlock_members, readTextMap_node, hplugs, hinputs, hnext]
      have hlevels : (∀ l ∈ (Block.mk id kind fields inputs next disabled).levels level, l ≤ 126) ↔
          (∀ l ∈ Block.inputLevels (level + 2) inputs, l ≤ 126) ∧
            ∀ l ∈ Block.nextLevels (level + 1) next, l ≤ 126 := by
        simp only [Block.levels, List.forall_mem_cons, List.forall_mem_append, hlevel, true_and]
      simp only [hlevels]
      by_cases hi : ∀ l ∈ Block.inputLevels (level + 2) inputs, l ≤ 126
      · by_cases hn : ∀ l ∈ Block.nextLevels (level + 1) next, l ≤ 126
        · rw [if_pos hi, if_pos hn, if_pos (And.intro hi hn)]
          rfl
        · rw [if_pos hi, if_neg hn, if_neg (mt And.right hn)]
          rfl
      · rw [if_neg hi, if_neg (mt And.left hi)]
        rfl
    · rw [if_neg fun h => hlevel (h level (by simp [Block.levels]))]
      -- One level may be left for the block itself, but none for its fields.
      obtain rfl | rfl : levels = 0 ∨ levels = 1 := by omega
      · rw [readBlock]
        rfl
      · rw [readBlock_members]
        rfl

theorem readPlugEntries_node (inputs : List (String × Block)) (h : Block.InputsWellFormed inputs)
    (plugs : List (String × Block)) (hk : (Entries.keys (plugs ++ inputs)).Nodup)
    {levels level : Nat} (hl : levels + level = 128) :
    readPlugEntries levels plugs (Value.memberNodes (Block.inputsToJson inputs)) =
      if ∀ l ∈ Block.inputLevels level inputs, l ≤ 126 then .ok (plugs ++ inputs)
      else .error .malformed := by
  match inputs, h with
  | [], _ =>
    rw [List.append_nil]
    rfl
  | (name, b) :: more, h =>
    have hname : name ∉ Entries.keys plugs := by
      intro hm
      rw [Entries.keys_append, List.nodup_append] at hk
      exact hk.2.2 name hm name (by simp) rfl
    have hkeys : (Entries.keys (plugs ++ [(name, b)] ++ more)).Nodup := by
      rwa [List.append_assoc, List.singleton_append]
    have hmore := readPlugEntries_node more h.2 (plugs ++ [(name, b)]) hkeys hl
    rw [Block.inputsToJson, Value.memberNodes, readPlugEntries]
    show (readBlock levels b.toJson.node >>= fun b => readPlugEntries levels
      (Entries.insert name b plugs) _) = _
    rw [readBlock_node b h.1 hl]
    simp only [Block.inputLevels, List.forall_mem_append]
    by_cases hb : ∀ l ∈ b.levels level, l ≤ 126
    · rw [if_pos hb]
      show readPlugEntries levels (Entries.insert name b plugs) _ = _
      rw [Entries.insert_of_not_mem hname, hmore, List.append_assoc, List.singleton_append]
      simp only [and_iff_right hb]
    · rw [if_neg hb, if_neg (mt And.left hb)]
      rfl

theorem readNext_node (next : Option Block) (h : Block.NextWellFormed next) {levels level : Nat}
    (hl : levels + level = 128) :
    BlockParts.readNext (Block.nextToJson next).node
        (fun _ => readBlock levels (Block.nextToJson next).node) =
      if ∀ l ∈ Block.nextLevels level next, l ≤ 126 then .ok next else .error .malformed := by
  match next, h with
  | none, _ => rfl
  | some b, h =>
    have hread : BlockParts.readNext b.toJson.node (fun _ => readBlock levels b.toJson.node) =
        (readBlock levels b.toJson.node).map some := by
      match b with
      | ⟨_, _, _, _, _, _⟩ =>
        rw [node_toJson]
        rfl
    show BlockParts.readNext b.toJson.node (fun _ => readBlock levels b.toJson.node) = _
    rw [hread, readBlock_node b h hl, Block.nextLevels]
    split <;> rfl

end

/-! ## Workspaces -/

theorem readBlockItems_node (bs : List Block) (h : ∀ b ∈ bs, b.WellFormed) {levels level : Nat}
    (hl : levels + level = 128) :
    readBlockItems levels (Value.itemNodes (bs.map Block.toJson)) =
      if ∀ l ∈ bs.flatMap (Block.levels level), l ≤ 126 then .ok bs else .error .malformed := by
  induction bs with
  | nil => rfl
  | cons b bs ih =>
    have hrest := ih fun x hx => h x (by simp [hx])
    rw [List.map_cons, Value.itemNodes, readBlockItems, readBlock_node b (h b (by simp)) hl, hrest]
    simp only [List.flatMap_cons, List.forall_mem_append]
    by_cases hb : ∀ l ∈ b.levels level, l ≤ 126
    · by_cases hbs : ∀ l ∈ bs.flatMap (Block.levels level), l ≤ 126
      · rw [if_pos hb, if_pos hbs, if_pos (And.intro hb hbs)]
        rfl
      · rw [if_pos hb, if_neg hbs, if_neg (mt And.right hbs)]
        rfl
    · rw [if_neg hb, if_neg (mt And.left hb)]
      rfl

theorem readBlocks_list (levels : Nat) (items : List Node) :
    readBlocks (levels + 1) (.list items none) = readBlockItems levels items := by
  rw [readBlocks]
  show (readBlockItems levels items >>= fun bs => .ok bs) = _
  cases readBlockItems levels items <;> rfl

/-- An object with nothing but its list of blocks. -/
theorem readWorkspace_list (levels : Nat) (items : List Node) :
    readWorkspace (levels + 2) (.object [(some blocksName, .list items none)] none) =
      (readBlockItems levels items).map Workspace.mk := by
  have hmembers : readWorkspaceMembers (levels + 1) none [(some blocksName, .list items none)] =
      (readBlockItems levels items).map some := by
    rw [← readBlocks_list, readWorkspaceMembers]
    show (readBlocks (levels + 1) (.list items none) >>= fun bs => .ok (some bs)) = _
    cases readBlocks (levels + 1) (.list items none) <;> rfl
  rw [readWorkspace]
  show (readWorkspaceMembers (levels + 1) none [(some blocksName, .list items none)] >>=
    fun blocks => .ok (Workspace.mk (blocks.getD []))) = _
  rw [hmembers]
  cases readBlockItems levels items <;> rfl

theorem readDocument_node (w : Workspace) (h : w.WellFormed) :
    readDocument ⟨w.toJson.node, false⟩ =
      if ∀ l ∈ w.levels, l ≤ 126 then .ok w else .error .malformed := by
  have hread : readWorkspace maxLevels w.toJson.node =
      (readBlockItems 125 (Value.itemNodes (w.blocks.map Block.toJson))).map Workspace.mk :=
    readWorkspace_list 125 _
  have hlevel : 125 + 3 = 128 := rfl
  have hitems := readBlockItems_node w.blocks h hlevel
  show (readWorkspace maxLevels w.toJson.node >>= fun w => .ok w) = _
  rw [hread, hitems, Workspace.levels]
  split <;> rfl

end Reader

/-! ## Texts -/

namespace Block

mutual

theorem numberFree_toJson (b : Block) : b.toJson.NumberFree := by
  match b with
  | ⟨id, kind, fields, inputs, next, disabled⟩ =>
    have hf := Value.numberFree_textMap fields.entries
    have hi := numberFree_inputsToJson inputs
    have hn := numberFree_nextToJson next
    rw [toJson]
    exact ⟨trivial, trivial, hf, hi, hn, trivial, trivial⟩

theorem numberFree_inputsToJson (inputs : List (String × Block)) :
    Value.MembersNumberFree (inputsToJson inputs) := by
  match inputs with
  | [] => trivial
  | (_, b) :: more => exact ⟨numberFree_toJson b, numberFree_inputsToJson more⟩

theorem numberFree_nextToJson (next : Option Block) : (nextToJson next).NumberFree := by
  match next with
  | none => trivial
  | some b => exact numberFree_toJson b

end

end Block

namespace Workspace

theorem numberFree_toJson (w : Workspace) : w.toJson.NumberFree := by
  have hblocks : Value.ItemsNumberFree (w.blocks.map Block.toJson) := by
    induction w.blocks with
    | nil => trivial
    | cons b bs ih => exact ⟨b.numberFree_toJson, ih⟩
  exact ⟨hblocks, trivial⟩

theorem parse_compact {w : Workspace} (h : w.WellFormed) :
    parse w.compact = if ∀ l ∈ w.levels, l ≤ 126 then .ok w else .error .malformed := by
  rw [parse, ofChars, compact, Value.ofChars_compact w.numberFree_toJson]
  exact Reader.readDocument_node w h

theorem parse_pretty {w : Workspace} (h : w.WellFormed) :
    parse w.pretty = if ∀ l ∈ w.levels, l ≤ 126 then .ok w else .error .malformed := by
  rw [parse, ofChars, pretty, Value.ofChars_pretty w.numberFree_toJson]
  exact Reader.readDocument_node w h

/-- What is loaded from a file that has just been saved. -/
theorem loadFrom_saved {w : Workspace} (h : w.WellFormed) {f g : Folder} {path : String}
    (hg : w.saveTo f path = .ok g) :
    loadFrom g path =
      if ∀ l ∈ w.levels, l ≤ 126 then .ok w else .error (.unsound path .malformed) := by
  rw [loadFrom_of_saveTo hg, parse_pretty h]
  split <;> rfl

/-- Both layouts of a workspace, whose inputs are keyed by their names, are read back, and so is the
saved file, if all blocks are on level 126 at most; otherwise all of them are malformed. -/
theorem parse_written (w : Workspace) (h : w.WellFormed) :
    ((∀ l ∈ w.levels, l ≤ 126) →
      parse w.compact = .ok w ∧ parse w.pretty = .ok w ∧
        ∀ f g path, w.saveTo f path = .ok g → loadFrom g path = .ok w) ∧
    ((∃ l ∈ w.levels, 126 < l) →
      parse w.compact = .error .malformed ∧ parse w.pretty = .error .malformed ∧
        ∀ f g path, w.saveTo f path = .ok g →
          loadFrom g path = .error (.unsound path .malformed)) := by
  constructor
  · intro hl
    refine ⟨?_, ?_, fun f g path hg => ?_⟩
    · rw [parse_compact h, if_pos hl]
    · rw [parse_pretty h, if_pos hl]
    · rw [loadFrom_saved h hg, if_pos hl]
  · rintro ⟨l, hl, hdeep⟩
    have hl : ¬ ∀ l ∈ w.levels, l ≤ 126 := by
      intro hall
      have := hall l hl
      omega
    refine ⟨?_, ?_, fun f g path hg => ?_⟩
    · rw [parse_compact h, if_neg hl]
    · rw [parse_pretty h, if_neg hl]
    · rw [loadFrom_saved h hg, if_neg hl]

end Workspace

/-! ## Stacks -/

/-- A block followed by `n` more. -/
def Block.stack : Nat → Block
  | 0 => .fresh "a" "b"
  | n + 1 => ⟨"a", "b", ∅, [], some (stack n), false⟩

namespace Block

theorem wellFormed_stack (n : Nat) : (stack n).WellFormed := by
  induction n with
  | zero => exact ⟨List.nodup_nil, trivial, trivial⟩
  | succ n ih => exact ⟨List.nodup_nil, trivial, ih⟩

theorem levels_stack (n level : Nat) : (stack n).levels level = List.range' level (n + 1) := by
  induction n generalizing level with
  | zero => rfl
  | succ n ih => exact congrArg (level :: ·) (ih (level + 1))

end Block

/-- The workspace of one stack. -/
def Workspace.stack (n : Nat) : Workspace := ⟨[.stack n]⟩

namespace Workspace

theorem wellFormed_stack (n : Nat) : (stack n).WellFormed := by
  intro b hb
  rw [List.mem_singleton.1 hb]
  exact Block.wellFormed_stack n

theorem mem_levels_stack (n l : Nat) : l ∈ (stack n).levels ↔ 3 ≤ l ∧ l ≤ n + 3 := by
  show l ∈ (Block.stack n).levels 3 ++ [] ↔ _
  rw [List.append_nil, Block.levels_stack, List.mem_range'_1]
  omega

theorem parse_written_stack :
    parse (stack 123).pretty = .ok (stack 123) ∧
      parse (stack 124).pretty = .error .malformed := by
  constructor
  · refine ((parse_written (stack 123) (wellFormed_stack 123)).1 fun l hl => ?_).2.1
    rw [mem_levels_stack] at hl
    exact hl.2
  · refine ((parse_written (stack 124) (wellFormed_stack 124)).2 ⟨127, ?_, by decide⟩).2.1
    rw [mem_levels_stack]
    omega

end Workspace

end MotorSketch
