import MotorSketch.Proofs.Workspace.RoundTrip

/-!
# Reloading saved workspaces

Short spellings of a block open fewer levels than the text that is written for it, so a workspace
can be read with blocks on level 127, where the written block has no level left for its fields.
No block that is read is deeper, and the workspaces with blocks on this level are the only ones
that cannot be loaded again once they are saved.

    parse s = .ok w → w.WellFormed ∧ ∀ l ∈ w.levels, l ≤ 127                     (parse_within)
    w.Accepted → (loadFrom g path = .ok w ↔ 127 ∉ w.levels), for the saved g     (reload_saved)
-/

namespace MotorSketch

open Json (Value Node Member Document)

/-! ## Blocks that are read -/

namespace Block

/-- A block that stands on a level, well-formed and without blocks below level 127. -/
def Within (level : Nat) (b : Block) : Prop := b.WellFormed ∧ ∀ l ∈ b.levels level, l ≤ 127

structure InputsWithin (level : Nat) (inputs : List (String × Block)) : Prop where
  nodup : (Entries.keys inputs).Nodup
  within : ∀ e ∈ inputs, e.2.Within level

theorem InputsWithin.nil (level : Nat) : InputsWithin level [] := ⟨List.nodup_nil, nofun⟩

theorem inputsWellFormed_iff {inputs : List (String × Block)} :
    InputsWellFormed inputs ↔ ∀ e ∈ inputs, e.2.WellFormed := by
  induction inputs with
  | nil => simp [InputsWellFormed]
  | cons e more ih => simp [InputsWellFormed, ih]

theorem inputLevels_eq_flatMap (level : Nat) (inputs : List (String × Block)) :
    inputLevels level inputs = inputs.flatMap fun e => e.2.levels level := by
  induction inputs with
  | nil => rfl
  | cons e more ih => rw [inputLevels, ih, List.flatMap_cons]

theorem within_mk {level : Nat} {id kind : String} {fields : OrderedMap String String}
    {inputs : List (String × Block)} {next : Option Block} {disabled : Bool} (hl : level ≤ 127)
    (hi : InputsWithin (level + 2) inputs) (hn : ∀ b ∈ next, b.Within (level + 1)) :
    Within level ⟨id, kind, fields, inputs, next, disabled⟩ := by
  have hwf : NextWellFormed next ∧ ∀ l ∈ nextLevels (level + 1) next, l ≤ 127 := by
    cases next with
    | none => exact ⟨trivial, nofun⟩
    | some b => exact hn b rfl
  refine ⟨⟨hi.nodup, ?_, hwf.1⟩, ?_⟩
  · rw [inputsWellFormed_iff]
    intro e he
    exact (hi.within e he).1
  · intro l hl'
    rw [levels, List.mem_cons, List.mem_append, inputLevels_eq_flatMap, List.mem_flatMap] at hl'
    rcases hl' with rfl | ⟨e, he, hl'⟩ | hl'
    · exact hl
    · exact (hi.within e he).2 l hl'
    · exact hwf.2 l hl'

theorem InputsWithin.insert {level : Nat} {plugs : List (String × Block)} {name : String}
    {b : Block} (h : InputsWithin level plugs) (hb : b.Within level) :
    InputsWithin level (Entries.insert name b plugs) := by
  refine ⟨Entries.nodup_keys_insert h.nodup, fun e he => ?_⟩
  rcases Entries.mem_of_mem_insert he with rfl | he
  · exact hb
  · exact h.within e he

end Block

namespace Reader

theorem bind_eq_ok {α β : Type} {x : Except ReadError α} {f : α → Except ReadError β} {b : β}
    (h : x >>= f = .ok b) : ∃ a, x = .ok a ∧ f a = .ok b := by
  cases x with
  | error e => cases h
  | ok a => exact ⟨a, rfl, h⟩

theorem map_eq_ok {α β : Type} {x : Except ReadError α} {f : α → β} {b : β}
    (h : x.map f = .ok b) : ∃ a, x = .ok a ∧ f a = b := by
  cases x with
  | error e => cases h
  | ok a => exact ⟨a, rfl, Except.ok.inj h⟩

theorem descend_eq_ok {levels inner : Nat} (h : descend levels = .ok inner) :
    levels = inner + 1 := by
  cases levels with
  | zero => cases h
  | succ n => rw [Except.ok.inj h]

/-- What has been read of a block on a level. -/
structure BlockParts.Within (level : Nat) (p : BlockParts) : Prop where
  inputs : ∀ m, p.inputs = some m → Block.InputsWithin (level + 2) m
  next : ∀ n, p.next = some n → ∀ b ∈ n, b.Within (level + 1)

namespace BlockParts

theorem within_none (level : Nat) : none.Within level := ⟨nofun, nofun⟩

theorem Within.block {p : BlockParts} {level : Nat} {b : Block} (h : p.Within level)
    (hl : level ≤ 127) (hb : p.block = .ok b) : b.Within level := by
  obtain ⟨hi, hn⟩ := h
  obtain ⟨id, kind, fields, inputs, next, disabled⟩ := p
  cases id with
  | none => cases hb
  | some id =>
    cases kind with
    | none => cases hb
    | some kind =>
      cases Except.ok.inj hb
      refine Block.within_mk hl ?_ ?_
      · cases inputs with
        | none => exact .nil _
        | some m => exact hi m rfl
      · cases next with
        | none => nofun
        | some n => exact hn n rfl

theorem Within.readNext {value : Node} {level : Nat} {rb : Unit → Except ReadError Block}
    {next : Option Block} (hrb : ∀ b, rb () = .ok b → b.Within level)
    (h : BlockParts.readNext value rb = .ok next) : ∀ b ∈ next, b.Within level := by
  unfold BlockParts.readNext at h
  split at h
  · cases h
    nofun
  · obtain ⟨b, hb, rfl⟩ := map_eq_ok h
    intro c hc
    cases hc
    exact hrb b hb

theorem Within.read {p q : BlockParts} {levels level : Nat} {f : BlockField} {value : Node}
    {rb : Unit → Except ReadError Block} {rp : Unit → Except ReadError (List (String × Block))}
    (h : p.Within level) (hrb : ∀ b, rb () = .ok b → b.Within (level + 1))
    (hrp : ∀ m, rp () = .ok m → Block.InputsWithin (level + 2) m)
    (hq : p.read levels f value rb rp = .ok q) : q.Within level := by
  cases f with
  | id | kind | fields | disabled =>
    obtain ⟨_, -, rfl⟩ := map_eq_ok hq
    exact ⟨h.inputs, h.next⟩
  | inputs =>
    obtain ⟨m, hm, rfl⟩ := map_eq_ok hq
    obtain ⟨plugs, hplugs, hm⟩ := bind_eq_ok hm
    cases Except.ok.inj hm
    refine ⟨fun m hm => ?_, h.next⟩
    cases hm
    exact hrp plugs hplugs
  | next =>
    obtain ⟨n, hn, rfl⟩ := map_eq_ok hq
    obtain ⟨next, hnext, hn⟩ := bind_eq_ok hn
    cases Except.ok.inj hn
    refine ⟨h.inputs, fun n hn => ?_⟩
    cases hn
    exact Within.readNext hrb hnext

end BlockParts

mutual

theorem readBlock_within (n : Node) {levels level : Nat} {b : Block} (hl : levels + level = 128)
    (h : readBlock levels n = .ok b) : b.Within level := by
  match n with
  | .object members cut =>
    rw [readBlock] at h
    obtain ⟨inner, hinner, h⟩ := bind_eq_ok h
    obtain ⟨parts, hparts, h⟩ := bind_eq_ok h
    obtain ⟨_, -, h⟩ := bind_eq_ok h
    have hlevels := descend_eq_ok hinner
    have hwithin := readMembers_within members (by omega) (BlockParts.within_none level) hparts
    exact hwithin.block (by omega) h
  | .list items cut =>
    rw [readBlock] at h
    obtain ⟨inner, hinner, h⟩ := bind_eq_ok h
    have hlevels := descend_eq_ok hinner
    exact readItems_within items (by omega) (BlockParts.within_none level) h
  | .null | .bool _ | .number _ | .text _ | .missing _ =>
    rw [readBlock] at h
    · cases h
    · nofun
    · nofun

theorem readPlugs_within (n : Node) {levels level : Nat} {m : List (String × Block)}
    (hl : levels + level = 128) (h : readPlugs levels n = .ok m) :
    Block.InputsWithin (level + 1) m := by
  match n with
  | .object members cut =>
    rw [readPlugs] at h
    obtain ⟨inner, hinner, h⟩ := bind_eq_ok h
    obtain ⟨plugs, hplugs, h⟩ := bind_eq_ok h
    obtain ⟨_, -, h⟩ := bind_eq_ok h
    cases Except.ok.inj h
    have hlevels := descend_eq_ok hinner
    exact readPlugEntries_within members (by omega) (.nil _) hplugs
  | .null | .bool _ | .number _ | .text _ | .missing _ | .list _ _ =>
    rw [readPlugs] at h
    · cases h
    · nofun

theorem readMembers_within (members : List Member) {levels level : Nat} {p q : BlockParts}
    (hl : levels + (level + 1) = 128) (hp : p.Within level)
    (h : readMembers levels p members = .ok q) : q.Within level := by
  match members with
  | [] =>
    rw [readMembers] at h
    cases Except.ok.inj h
    exact hp
  | (key, value) :: rest =>
    rw [readMembers] at h
    obtain ⟨k, -, h⟩ := bind_eq_ok h
    split at h
    · obtain ⟨_, -, h⟩ := bind_eq_ok h
      exact readMembers_within rest hl hp h
    · split at h
      · cases h
      · obtain ⟨parts, hparts, h⟩ := bind_eq_ok h
        have hparts := hp.read (fun b hb => readBlock_within value hl hb)
          (fun m hm => readPlugs_within value hl hm) hparts
        exact readMembers_within rest hl hparts h

theorem readItems_within (items : List Node) {levels level count : Nat}
    {fields : List BlockField} {p : BlockParts} {cut : Option Json.Break} {b : Block}
    (hl : levels + (level + 1) = 128) (hp : p.Within level)
    (h : readItems levels count fields p cut items = .ok b) : b.Within level := by
  match items with
  | [] =>
    rw [readItems] at h
    obtain ⟨_, -, h⟩ := bind_eq_ok h
    split at h
    · cases h
    · exact hp.block (by omega) h
  | value :: rest =>
    cases fields with
    | nil =>
      rw [readItems] at h
      cases h
    | cons f fields =>
      rw [readItems] at h
      obtain ⟨parts, hparts, h⟩ := bind_eq_ok h
      have hparts := hp.read (fun b hb => readBlock_within value hl hb)
        (fun m hm => readPlugs_within value hl hm) hparts
      exact readItems_within rest hl hparts h

theorem readPlugEntries_within (members : List Member) {levels level : Nat}
    {plugs m : List (String × Block)} (hl : levels + level = 128)
    (hp : Block.InputsWithin level plugs) (h : readPlugEntries levels plugs members = .ok m) :
    Block.InputsWithin level m := by
  match members with
  | [] =>
    rw [readPlugEntries] at h
    cases Except.ok.inj h
    exact hp
  | (key, value) :: rest =>
    rw [readPlugEntries] at h
    obtain ⟨k, -, h⟩ := bind_eq_ok h
    obtain ⟨b, hb, h⟩ := bind_eq_ok h
    exact readPlugEntries_within rest hl (hp.insert (readBlock_within value hl hb)) h

end

/-! ## Workspaces that are read -/

theorem readBlockItems_within {items : List Node} {levels level : Nat} {bs : List Block}
    (hl : levels + level = 128) (h : readBlockItems levels items = .ok bs) :
    ∀ b ∈ bs, b.Within level := by
  induction items generalizing bs with
  | nil =>
    cases Except.ok.inj h
    nofun
  | cons n rest ih =>
    rw [readBlockItems] at h
    obtain ⟨b, hb, h⟩ := bind_eq_ok h
    obtain ⟨more, hmore, h⟩ := bind_eq_ok h
    cases Except.ok.inj h
    intro c hc
    rcases List.mem_cons.1 hc with rfl | hc
    · exact readBlock_within n hl hb
    · exact ih hmore c hc

theorem readBlocks_within {n : Node} {levels level : Nat} {bs : List Block}
    (hl : levels + level = 128) (h : readBlocks levels n = .ok bs) :
    ∀ b ∈ bs, b.Within (level + 1) := by
  unfold readBlocks at h
  split at h
  · obtain ⟨inner, hinner, h⟩ := bind_eq_ok h
    obtain ⟨_, hbs, h⟩ := bind_eq_ok h
    obtain ⟨_, -, h⟩ := bind_eq_ok h
    cases Except.ok.inj h
    have hlevels := descend_eq_ok hinner
    exact readBlockItems_within (by omega) hbs
  · cases h

theorem readWorkspaceMembers_within {members : List Member} {levels level : Nat}
    {blocks read : Option (List Block)} (hl : levels + level = 128)
    (hb : ∀ bs ∈ blocks, ∀ b ∈ bs, b.Within (level + 1))
    (h : readWorkspaceMembers levels blocks members = .ok read) :
    ∀ bs ∈ read, ∀ b ∈ bs, b.Within (level + 1) := by
  induction members generalizing blocks with
  | nil =>
    cases Except.ok.inj h
    exact hb
  | cons m rest ih =>
    rw [readWorkspaceMembers] at h
    obtain ⟨k, -, h⟩ := bind_eq_ok h
    split at h
    · split at h
      · cases h
      · obtain ⟨bs, hbs, h⟩ := bind_eq_ok h
        refine ih (fun bs' hbs' => ?_) h
        cases hbs'
        exact readBlocks_within hl hbs
    · obtain ⟨_, -, h⟩ := bind_eq_ok h
      exact ih hb h

theorem readWorkspace_within {n : Node} {w : Workspace} (h : readWorkspace maxLevels n = .ok w) :
    ∀ b ∈ w.blocks, b.Within 3 := by
  unfold readWorkspace at h
  split at h
  · obtain ⟨inner, hinner, h⟩ := bind_eq_ok h
    obtain ⟨blocks, hblocks, h⟩ := bind_eq_ok h
    obtain ⟨_, -, h⟩ := bind_eq_ok h
    cases Except.ok.inj h
    have hlevels : 127 = inner + 1 := descend_eq_ok hinner
    have hinner : inner + 2 = 128 := by omega
    have hwithin := readWorkspaceMembers_within hinner (fun _ hbs => by cases hbs) hblocks
    intro b hb
    cases blocks with
    | none => cases hb
    | some bs => exact hwithin bs rfl b hb
  · obtain ⟨inner, hinner, h⟩ := bind_eq_ok h
    have hlevels : 127 = inner + 1 := descend_eq_ok hinner
    split at h
    · obtain ⟨_, -, h⟩ := bind_eq_ok h
      cases Except.ok.inj h
      intro b hb
      cases hb
    · obtain ⟨bs, hbs, h⟩ := bind_eq_ok h
      obtain ⟨_, -, h⟩ := bind_eq_ok h
      cases Except.ok.inj h
      have hinner : inner + 2 = 128 := by omega
      exact readBlocks_within hinner hbs
    · obtain ⟨_, -, h⟩ := bind_eq_ok h
      cases h
  · cases h

end Reader

/-! ## Short texts -/

/-- A stack, written with nothing that may be left out. -/
def Block.shortStack : Nat → Value
  | 0 => .object [(Reader.BlockField.id.name, .text "a"), (Reader.BlockField.kind.name, .text "b")]
  | n + 1 =>
    .object [(Reader.BlockField.id.name, .text "a"), (Reader.BlockField.kind.name, .text "b"),
      (Reader.BlockField.next.name, shortStack n)]

def Workspace.shortStack (n : Nat) : Value :=
  .object [(Reader.blocksName, .list [Block.shortStack n])]

theorem Block.numberFree_shortStack (n : Nat) : (shortStack n).NumberFree := by
  induction n with
  | zero => exact ⟨trivial, trivial, trivial⟩
  | succ n ih => exact ⟨trivial, trivial, ih, trivial⟩

/-- Each block opens a single object. -/
theorem Reader.readBlock_shortStack {n levels : Nat} (h : n < levels) :
    readBlock levels (Block.shortStack n).node = .ok (.stack n) := by
  induction n generalizing levels with
  | zero =>
    obtain ⟨inner, rfl⟩ : ∃ inner, levels = inner + 1 := ⟨levels - 1, by omega⟩
    rw [Block.shortStack, Value.node, readBlock_object, Value.memberNodes, Value.memberNodes,
      readMembers_of_read rfl rfl, readMembers_of_read rfl rfl]
    rfl
  | succ n ih =>
    obtain ⟨inner, rfl⟩ : ∃ inner, levels = inner + 1 := ⟨levels - 1, by omega⟩
    have hread : readBlock inner (Block.shortStack n).node = .ok (.stack n) := ih (by omega)
    have hnext : BlockParts.readNext (Block.shortStack n).node
        (fun _ => readBlock inner (Block.shortStack n).node) = .ok (some (.stack n)) := by
      rw [hread]
      cases n <;> rfl
    rw [Block.shortStack, Value.node, readBlock_object, Value.memberNodes, Value.memberNodes,
      Value.memberNodes, readMembers_of_read rfl rfl, readMembers_of_read rfl rfl,
      readMembers_field rfl, BlockParts.read, hnext]
    rfl

theorem Workspace.parse_shortStack {n : Nat} (h : n < 125) :
    parse (shortStack n).compact = .ok (stack n) := by
  have hfree : (shortStack n).NumberFree := ⟨⟨Block.numberFree_shortStack n, trivial⟩, trivial⟩
  have hitems : Reader.readBlockItems 125 [(Block.shortStack n).node] = .ok [.stack n] := by
    rw [Reader.readBlockItems, Reader.readBlock_shortStack h]
    rfl
  have hread : Reader.readWorkspace Reader.maxLevels (shortStack n).node = .ok (stack n) := by
    have hlist := Reader.readWorkspace_list 125 [(Block.shortStack n).node]
    rw [hitems] at hlist
    exact hlist
  rw [parse, ofChars, Value.ofChars_compact hfree]
  show (Reader.readWorkspace Reader.maxLevels (shortStack n).node >>= fun w => .ok w) = _
  rw [hread]
  rfl

/-! ## Loading, saving and loading again -/

namespace Workspace

/-- Every workspace that is read is well-formed and has no block below level 127. -/
theorem parse_within {s : String} {w : Workspace} (h : parse s = .ok w) :
    w.WellFormed ∧ ∀ l ∈ w.levels, l ≤ 127 := by
  obtain ⟨read, hread, h⟩ := Reader.bind_eq_ok h
  have hw : read = w := by
    split at h
    · cases h
    · exact Except.ok.inj h
  subst hw
  have hblocks := Reader.readWorkspace_within hread
  refine ⟨fun b hb => (hblocks b hb).1, fun l hl => ?_⟩
  obtain ⟨b, hb, hl⟩ := List.mem_flatMap.1 hl
  exact (hblocks b hb).2 l hl

/-- A workspace that some text or some file is read as. -/
def Accepted (w : Workspace) : Prop :=
  (∃ s, parse s = .ok w) ∨ ∃ f path, loadFrom f path = .ok w

theorem Accepted.within {w : Workspace} (h : w.Accepted) :
    w.WellFormed ∧ ∀ l ∈ w.levels, l ≤ 127 := by
  rcases h with ⟨s, hs⟩ | ⟨f, path, hload⟩
  · exact parse_within hs
  · unfold loadFrom load at hload
    split at hload
    · cases hload
    · next text _ =>
      cases hparse : parse text with
      | error e => rw [hparse] at hload; cases hload
      | ok read =>
        rw [hparse] at hload
        cases Except.ok.inj hload
        exact parse_within hparse

theorem exists_saveTo (w : Workspace) {f : Folder} {path : String}
    (h : (f.fileName? path).isSome) : ∃ g, w.saveTo f path = .ok g := by
  obtain ⟨name, hname⟩ := Option.isSome_iff_exists.1 h
  refine ⟨{ f with files := f.files.insert name w.fileBytes }, ?_⟩
  rw [saveTo, Folder.write?, hname]
  rfl

/-- A workspace that has been read can be saved, and then it is loaded again as it was, unless it
has a block on level 127; then the saved file is malformed. -/
theorem reload_saved {w : Workspace} (hw : w.Accepted) {f : Folder} {path : String}
    (hpath : (f.fileName? path).isSome) :
    ∃ g, w.saveTo f path = .ok g ∧ (loadFrom g path = .ok w ↔ 127 ∉ w.levels) ∧
      (127 ∈ w.levels → loadFrom g path = .error (.unsound path .malformed)) := by
  obtain ⟨hwf, hlevels⟩ := hw.within
  obtain ⟨g, hg⟩ := w.exists_saveTo hpath
  have hload := loadFrom_saved hwf hg
  have hiff : (∀ l ∈ w.levels, l ≤ 126) ↔ 127 ∉ w.levels := by
    constructor
    · intro hall hmem
      have := hall 127 hmem
      omega
    · intro hmem l hl
      have hle := hlevels l hl
      have hne : l ≠ 127 := fun h => hmem (h ▸ hl)
      omega
  refine ⟨g, hg, ?_, ?_⟩
  · rw [hload, ← hiff]
    by_cases hall : ∀ l ∈ w.levels, l ≤ 126
    · rw [if_pos hall]
      exact ⟨fun _ => hall, fun _ => rfl⟩
    · rw [if_neg hall]
      exact ⟨nofun, fun h => absurd h hall⟩
  · intro hmem
    rw [hload, if_neg]
    exact fun hall => hiff.1 hall hmem

theorem reload_saved_stack :
    ∃ g, (stack 123).saveTo ⟨"d", ∅⟩ "d/f" = .ok g ∧ loadFrom g "d/f" = .ok (stack 123) := by
  have hpath : ((⟨"d", ∅⟩ : Folder).fileName? "d/f").isSome := by decide
  obtain ⟨g, hg, hiff, -⟩ := reload_saved (.inl ⟨_, parse_shortStack (n := 123) (by decide)⟩) hpath
  refine ⟨g, hg, hiff.2 ?_⟩
  rw [mem_levels_stack]
  omega

/-- The short text of a block with 124 successors is read, but not the file that is saved then. -/
theorem reload_saved_stack_fails :
    parse (shortStack 124).compact = .ok (stack 124) ∧
      ∃ g, (stack 124).saveTo ⟨"d", ∅⟩ "d/f" = .ok g ∧
        loadFrom g "d/f" = .error (.unsound "d/f" .malformed) := by
  have hpath : ((⟨"d", ∅⟩ : Folder).fileName? "d/f").isSome := by decide
  obtain ⟨g, hg⟩ := (stack 124).exists_saveTo hpath
  have hdeep : ¬ ∀ l ∈ (stack 124).levels, l ≤ 126 := by
    intro hall
    have := hall 127 (by rw [mem_levels_stack]; omega)
    omega
  refine ⟨parse_shortStack (by decide), g, hg, ?_⟩
  rw [loadFrom_saved (wellFormed_stack 124) hg, if_neg hdeep]

end Workspace

end MotorSketch
