import MotorSketch.Proofs.Workspace.Choices
import MotorSketch.Proofs.Workspace.RoundTrip

/-!
# Reading spelled workspaces

Whatever choices a text makes, it is read as the workspace that is meant, if the lists and objects
that are wanted are nested at most 127 levels deep and no key of a field comes again.  A key that
comes again is reported, the first one in the text first; nesting that is too deep is malformed.
Two texts are read as the same workspace if and only if their spellings are alike.

    Reads n rs a x, Reads m ss b (f a) → Reads (max n m) (rs ++ ss) b (x >>= f)     (Reads.bind)
    b.Sound → Reads levels b.nesting b.repeats b.block (readBlock levels b.node)
                                                                               (readBlock_spelled)
    w.Sound → Spells w.node.lexemes s → parse s = .ok w.workspace, if it fits    (parse_spelled)
-/

namespace MotorSketch

open Json (Member Node Value)

namespace Reader

/-! ## Outcomes -/

def duplicate (k : String) : ReadError := .mismatch (.duplicateField k)

/-- The outcome of reading what is nested this deep and has these keys once too often, where
`levels` may be opened and `a` is meant.  If both are wrong, the place that is too deep may come
before the first of the keys or behind it. -/
structure Reads {α : Type} (levels nesting : Nat) (repeats : List String) (a : α)
    (r : Except ReadError α) : Prop where
  fits : nesting ≤ levels → repeats = [] → r = .ok a
  deep : levels < nesting → repeats = [] → r = .error .malformed
  again : ∀ k ks, repeats = k :: ks →
    r = .error (duplicate k) ∨ (levels < nesting ∧ r = .error .malformed)

namespace Reads

variable {α β : Type} {levels n m : Nat} {rs ss : List String} {a : α} {b : β}
  {x : Except ReadError α} {f : α → Except ReadError β}

theorem ok (levels : Nat) (a : α) : Reads levels 0 [] a (.ok a) where
  fits _ _ := rfl
  deep h _ := by omega
  again _ _ h := by cases h

/-- What comes after a repeated key does not matter. -/
theorem repeated (levels n : Nat) (k : String) (rs : List String) (a : α) :
    Reads levels n (k :: rs) a (.error (duplicate k)) where
  fits _ h := by cases h
  deep _ h := by cases h
  again k' ks h := by
    cases h
    exact .inl rfl

theorem bind (hx : Reads levels n rs a x) (hf : Reads levels m ss b (f a)) :
    Reads levels (max n m) (rs ++ ss) b (x >>= f) where
  fits hl h := by
    obtain ⟨hrs, hss⟩ := List.append_eq_nil_iff.1 h
    rw [hx.fits (by omega) hrs]
    exact hf.fits (by omega) hss
  deep hl h := by
    obtain ⟨hrs, hss⟩ := List.append_eq_nil_iff.1 h
    by_cases hn : n ≤ levels
    · rw [hx.fits hn hrs]
      exact hf.deep (by omega) hss
    · rw [hx.deep (by omega) hrs]
      rfl
  again k ks h := by
    -- The first key is one of `x`, or one of `f a` if `x` has none.
    cases rs with
    | cons j js =>
      cases h
      rcases hx.again k js rfl with hx | ⟨hn, hx⟩ <;> rw [hx]
      · exact .inl rfl
      · exact .inr ⟨by omega, rfl⟩
    | nil =>
      by_cases hn : n ≤ levels
      · rw [hx.fits hn rfl]
        exact (hf.again k ks h).imp_right fun ⟨hm, hr⟩ => ⟨by omega, hr⟩
      · rw [hx.deep (by omega) rfl]
        exact .inr ⟨by omega, rfl⟩

theorem pure_bind (hx : Reads levels n rs a x) (hf : f a = .ok b) :
    Reads levels n rs b (x >>= f) := by
  have h := hx.bind (hf ▸ ok levels b : Reads levels 0 [] b (f a))
  rwa [Nat.max_zero, List.append_nil] at h

theorem present (hx : Reads levels n rs a x) :
    Reads levels n rs (some a) (x >>= fun a => pure (some a)) :=
  hx.pure_bind rfl

theorem map (hx : Reads levels n rs a x) (g : α → β) : Reads levels n rs (g a) (x.map g) := by
  have h := hx.pure_bind (f := fun a => .ok (g a)) rfl
  cases x <;> exact h

/-- A list or object that is wanted takes a level. -/
theorem descend {r : Nat → Except ReadError α}
    (h : ∀ inner, levels = inner + 1 → Reads inner n rs a (r inner)) :
    Reads levels (n + 1) rs a (Reader.descend levels >>= r) := by
  cases levels with
  | succ inner =>
    have hr := h inner rfl
    exact ⟨fun hl => hr.fits (by omega), fun hl => hr.deep (by omega),
      fun k ks hk => (hr.again k ks hk).imp_right fun ⟨hn, hr⟩ => ⟨by omega, hr⟩⟩
  | zero => exact ⟨fun hl => by omega, fun _ _ => rfl, fun k ks hk => .inr ⟨by omega, rfl⟩⟩

end Reads

/-! ## Parts of blocks -/

namespace BlockParts

/-- The parts when a member has been read. -/
def put (p : BlockParts) : SpelledMember → BlockParts
  | .id s => { p with id := s }
  | .kind s => { p with kind := s }
  | .fields es => { p with fields := OrderedMap.ofList es }
  | .inputs es => { p with inputs := SpelledBlock.plugAll [] es }
  | .next b => { p with next := some (some b.block) }
  | .noNext => { p with next := some .none }
  | .disabled d => { p with disabled := d }
  | .unknown _ _ => p

/-- The block, with a default for everything. -/
def filled (p : BlockParts) : Block :=
  ⟨p.id.getD "", p.kind.getD "", p.fields.getD ∅, p.inputs.getD [], p.next.getD .none,
    p.disabled.getD false⟩

theorem filled_put (p : BlockParts) (m : SpelledMember) :
    (p.put m).filled = SpelledBlock.set p.filled m := by
  cases m <;> rfl

theorem filled_foldl_put (p : BlockParts) (ms : List SpelledMember) :
    (ms.foldl put p).filled = SpelledBlock.setAll p.filled ms := by
  induction ms generalizing p with
  | nil => rfl
  | cons m ms ih =>
    rw [List.foldl_cons, ih, filled_put]
    rfl

theorem has_put (p : BlockParts) (m : SpelledMember) (f : BlockField) :
    (p.put m).has f = true ↔ p.has f = true ∨ m.field? = some f := by
  cases m <;> cases f <;> simp [put, has, SpelledMember.field?]

theorem has_foldl_put (p : BlockParts) (ms : List SpelledMember) (f : BlockField) :
    (ms.foldl put p).has f = true ↔ p.has f = true ∨ some f ∈ ms.map SpelledMember.field? := by
  induction ms generalizing p with
  | nil => simp
  | cons m ms ih =>
    rw [List.foldl_cons, ih, has_put, List.map_cons, List.mem_cons, or_assoc, @eq_comm _ (some f)]

theorem block_of_has {p : BlockParts} (hid : p.has .id = true) (hkind : p.has .kind = true) :
    p.block = .ok p.filled := by
  obtain ⟨id, hid⟩ := Option.isSome_iff_exists.1 hid
  obtain ⟨kind, hkind⟩ := Option.isSome_iff_exists.1 hkind
  rw [block, filled, hid, hkind]
  rfl

/-- The fields that have been read. -/
def Saw (p : BlockParts) (seen : List BlockField) : Prop := ∀ f, p.has f = true ↔ f ∈ seen

theorem saw_none : none.Saw [] := by
  intro f
  cases f <;> simp [has, none]

theorem Saw.put {p : BlockParts} {seen : List BlockField} (h : p.Saw seen) (m : SpelledMember) :
    (p.put m).Saw (m.field?.toList ++ seen) := by
  intro f
  rw [has_put, h f, List.mem_append, Option.mem_toList, or_comm]

end BlockParts

/-! ## Keys -/

theorem key_of_field? {m : SpelledMember} {f : BlockField} (h : m.field? = some f) :
    m.key = f.name := by
  cases m <;> cases h <;> rfl

theorem again_of_mem {m : SpelledMember} {f : BlockField} (h : m.field? = some f)
    {seen : List BlockField} (hseen : f ∈ seen) : m.again seen = [f.name] := by
  simp [SpelledMember.again, h, hseen]

theorem again_of_not_mem {m : SpelledMember} {f : BlockField} (h : m.field? = some f)
    {seen : List BlockField} (hseen : f ∉ seen) : m.again seen = [] := by
  simp [SpelledMember.again, h, hseen]

theorem ofName?_eq_none {key : String} (h : ∀ f : BlockField, f.name ≠ key) :
    BlockField.ofName? key = none := by
  rw [BlockField.ofName?, List.find?_eq_none]
  intro f _
  simpa using h f

/-! ## Values that are passed over -/

mutual

theorem skip_of_whole (n : Node) (h : n.Whole) : skip n = .ok () := by
  match n, h with
  | .null, _ | .bool _, _ | .number _, _ | .text _, _ => rfl
  | .list items _, ⟨rfl, h⟩ =>
    rw [skip, skipItems_of_whole items h]
    rfl
  | .object members _, ⟨rfl, h⟩ =>
    rw [skip, skipMembers_of_whole members h]
    rfl

theorem skipItems_of_whole (ns : List Node) (h : Node.ItemsWhole ns) : skipItems ns = .ok () := by
  match ns, h with
  | [], _ => rfl
  | n :: more, h =>
    rw [skipItems, skip_of_whole n h.1]
    exact skipItems_of_whole more h.2

theorem skipMembers_of_whole (ms : List Member) (h : Node.MembersWhole ms) :
    skipMembers ms = .ok () := by
  match ms, h with
  | [], _ => rfl
  | (_, n) :: more, h =>
    rw [skipMembers, skip_of_whole n h.1]
    exact skipMembers_of_whole more h.2

end

/-! ## Blocks -/

open SpelledBlock

theorem readMembers_unknown {key : String} (hkey : ∀ f : BlockField, f.name ≠ key) {value : Node}
    (hvalue : value.Whole) (levels : Nat) (p : BlockParts) (rest : List Member) :
    readMembers levels p ((some key, value) :: rest) = readMembers levels p rest := by
  rw [readMembers]
  simp only [readKey, bind, Except.bind, ofName?_eq_none hkey, skip_of_whole value hvalue]

theorem readMembers_again {p : BlockParts} {f : BlockField} (h : p.has f = true) (levels : Nat)
    (value : Node) (rest : List Member) :
    readMembers levels p ((some f.name, value) :: rest) = .error (duplicate f.name) := by
  rw [readMembers]
  simp only [readKey, bind, Except.bind, BlockField.ofName?_name, h, if_true]
  rfl

theorem readTextMap_spelled (levels : Nat) (es : List (String × String)) :
    Reads levels 1 [] (OrderedMap.ofList es) (readTextMap levels (Value.textMap es).node) := by
  cases levels with
  | succ inner =>
    rw [readTextMap_textMap]
    exact ⟨fun _ _ => rfl, fun hl _ => by omega, fun k ks hk => by cases hk⟩
  | zero => exact ⟨fun hl => by omega, fun _ _ => rfl, fun k ks hk => by cases hk⟩

mutual

theorem readBlock_spelled (b : SpelledBlock) (h : b.Sound) (levels : Nat) :
    Reads levels b.nesting b.repeats b.block (readBlock levels b.node) := by
  match b, h with
  | object ms, ⟨hms, hid, hkind⟩ =>
    have hfilled : (ms.foldl BlockParts.put .none).block = .ok (object ms).block := by
      have hhas := fun f => BlockParts.has_foldl_put .none ms f
      rw [BlockParts.block_of_has ((hhas _).2 (.inr hid)) ((hhas _).2 (.inr hkind)),
        BlockParts.filled_foldl_put]
      rfl
    rw [node, readBlock]
    refine Reads.descend fun inner _ => ?_
    exact (readMembers_spelled ms hms inner .none [] BlockParts.saw_none).pure_bind hfilled
  | list ms, ⟨hms, hfields, hlen⟩ =>
    obtain ⟨hid, hkind⟩ := mem_of_prefix_all hfields (by rwa [List.length_map])
    have hhas := fun f => BlockParts.has_foldl_put .none ms f
    rw [node, readBlock]
    refine Reads.descend fun inner _ => ?_
    exact readItems_spelled ms hms inner 0 .none [] BlockParts.saw_none BlockField.all hfields
      (by decide) (by simp) (by omega) ((hhas _).2 (.inr hid)) ((hhas _).2 (.inr hkind))

theorem read_spelled (m : SpelledMember) (h : MemberSound m) (levels : Nat) (p : BlockParts)
    {f : BlockField} (hf : m.field? = some f) :
    Reads levels (memberNesting m) (memberRepeats m) (p.put m)
      (p.read levels f (memberNode m) (fun _ => readBlock levels (memberNode m))
        (fun _ => readPlugs levels (memberNode m))) := by
  match m, h with
  | .id s, _ | .kind s, _ | .noNext, _ | .disabled d, _ =>
    cases hf
    exact .ok levels _
  | .fields es, _ =>
    cases hf
    exact (readTextMap_spelled levels es).present.map ({ p with fields := · })
  | .inputs es, h =>
    cases hf
    have hplugs : Reads levels (plugsNesting es + 1) (plugsRepeats es) (plugAll [] es)
        (readPlugs levels (.object (plugNodes es) none)) := by
      rw [readPlugs]
      refine Reads.descend fun inner _ => ?_
      exact (readPlugEntries_spelled es h inner []).pure_bind rfl
    exact hplugs.present.map ({ p with inputs := · })
  | .next b, h =>
    cases hf
    have hnext : BlockParts.readNext b.node (fun _ => readBlock levels b.node) =
        (readBlock levels b.node).map some := by
      cases b <;> rfl
    have hblock := (readBlock_spelled b h levels).map some
    rw [← hnext] at hblock
    exact hblock.present.map ({ p with next := · })

theorem readMembers_spelled (ms : List SpelledMember) (h : MembersSound ms) (levels : Nat)
    (p : BlockParts) (seen : List BlockField) (hp : p.Saw seen) :
    Reads levels (membersNesting ms) (membersRepeats seen ms) (ms.foldl BlockParts.put p)
      (readMembers levels p (memberNodes ms)) := by
  match ms, h with
  | [], _ =>
    rw [memberNodes, readMembers]
    exact .ok levels p
  | m :: more, ⟨hm, hmore⟩ =>
    have hrest := readMembers_spelled more hmore levels (p.put m) _ (hp.put m)
    rw [membersNesting, membersRepeats, memberNodes, List.foldl_cons]
    cases hf : m.field? with
    | none =>
      -- What is passed over needs no level, leaves the parts alone and is not seen.
      obtain ⟨key, value, rfl⟩ := SpelledMember.eq_unknown_of_field? hf
      show Reads levels (max 0 _) ([] ++ ([] ++ _)) _
        (readMembers levels p ((some key, value) :: memberNodes more))
      rw [readMembers_unknown hm.1 hm.2, Nat.zero_max]
      exact hrest
    | some f =>
      rw [key_of_field? hf]
      by_cases hseen : f ∈ seen
      · rw [again_of_mem hf hseen, readMembers_again ((hp f).2 hseen)]
        exact .repeated ..
      · rw [again_of_not_mem hf hseen, List.nil_append,
          readMembers_field (by simpa using mt (hp f).1 hseen)]
        rw [hf] at hrest
        exact (read_spelled m hm levels p hf).bind hrest

/-- The items stand for the first of the fields that are still to come, none of which has been seen,
so that no key can come again here. -/
theorem readItems_spelled (ms : List SpelledMember) (h : MembersSound ms) (levels count : Nat)
    (p : BlockParts) (seen : List BlockField) (hp : p.Saw seen) (fields : List BlockField)
    (hfields : ms.map SpelledMember.field? <+: fields.map some) (hd : fields.Nodup)
    (hnew : ∀ f ∈ fields, f ∉ seen) (hcount : 2 ≤ count + ms.length)
    (hid : (ms.foldl BlockParts.put p).has .id = true)
    (hkind : (ms.foldl BlockParts.put p).has .kind = true) :
    Reads levels (membersNesting ms) (membersRepeats seen ms)
      (setAll p.filled ms)
      (readItems levels count fields p none ((memberNodes ms).map Prod.snd)) := by
  match ms, h with
  | [], _ =>
    have hlen : ¬count < 2 := by
      rw [List.length_nil] at hcount
      omega
    rw [memberNodes, List.map_nil, readItems]
    show Reads levels 0 [] p.filled (if count < 2 then _ else p.block)
    rw [if_neg hlen]
    exact BlockParts.block_of_has hid hkind ▸ .ok levels p.filled
  | m :: more, ⟨hm, hmore⟩ =>
    obtain ⟨f, fields, rfl⟩ : ∃ f fields', fields = f :: fields' := by
      cases fields with
      | nil => simp at hfields
      | cons f fields => exact ⟨f, fields, rfl⟩
    rw [List.map_cons, List.map_cons, List.cons_prefix_cons] at hfields
    obtain ⟨hf, hfields⟩ := hfields
    have hseen : f ∉ seen := hnew f (by simp)
    have hnew' : ∀ g ∈ fields, g ∉ m.field?.toList ++ seen := by
      intro g hg
      have hgf : g ≠ f := fun e => (List.nodup_cons.1 hd).1 (e ▸ hg)
      simp [hf, hgf, hnew g (by simp [hg])]
    have hcount' : 2 ≤ count + 1 + more.length := by
      rw [List.length_cons] at hcount
      omega
    have hrest := readItems_spelled more hmore levels (count + 1) (p.put m) _ (hp.put m) fields
      hfields hd.tail hnew' hcount' hid hkind
    rw [BlockParts.filled_put] at hrest
    rw [membersNesting, membersRepeats, again_of_not_mem hf hseen, List.nil_append, memberNodes,
      List.map_cons, readItems, setAll]
    exact (read_spelled m hm levels p hf).bind hrest

theorem readPlugEntries_spelled (es : List (String × SpelledBlock)) (h : PlugsSound es)
    (levels : Nat) (plugs : List (String × Block)) :
    Reads levels (plugsNesting es) (plugsRepeats es) (plugAll plugs es)
      (readPlugEntries levels plugs (plugNodes es)) := by
  match es, h with
  | [], _ =>
    rw [plugNodes, readPlugEntries]
    exact .ok levels plugs
  | (name, b) :: more, ⟨hb, hmore⟩ =>
    rw [plugNodes, readPlugEntries]
    exact (readBlock_spelled b hb levels).bind (readPlugEntries_spelled more hmore levels _)

end

/-! ## Workspaces -/

theorem readBlockItems_spelled (bs : List SpelledBlock) (h : ∀ b ∈ bs, b.Sound) (levels : Nat) :
    Reads levels ((bs.map nesting).foldr max 0) (bs.flatMap repeats) (bs.map block)
      (readBlockItems levels (bs.map node)) := by
  induction bs with
  | nil => exact .ok levels []
  | cons b bs ih =>
    have hb := readBlock_spelled b (h b (by simp)) levels
    have hbs := ih fun c hc => h c (by simp [hc])
    rw [List.map_cons, List.map_cons, List.map_cons, List.flatMap_cons, List.foldr_cons,
      readBlockItems]
    exact hb.bind (hbs.pure_bind rfl)

theorem readBlocks_spelled (bs : List SpelledBlock) (h : ∀ b ∈ bs, b.Sound) (levels : Nat) :
    Reads levels ((bs.map nesting).foldr max 0 + 1) (bs.flatMap repeats) (bs.map block)
      (readBlocks levels (.list (bs.map node) none)) := by
  rw [readBlocks]
  exact Reads.descend fun inner _ => (readBlockItems_spelled bs h inner).pure_bind rfl

theorem readWorkspaceMembers_unknown {key : String} (hkey : key ≠ blocksName) {value : Node}
    (hvalue : value.Whole) (levels : Nat) (read : Option (List Block)) (rest : List Member) :
    readWorkspaceMembers levels read ((some key, value) :: rest) =
      readWorkspaceMembers levels read rest := by
  rw [readWorkspaceMembers]
  simp only [readKey, bind, Except.bind, if_neg hkey, skip_of_whole value hvalue]

/-- The blocks when a member has been read. -/
def keep (read : Option (List Block)) : SpelledWorkspaceMember → Option (List Block)
  | .blocks bs => some (bs.map block)
  | .unknown _ _ => read

theorem getD_foldl_keep (read : Option (List Block)) (ms : List SpelledWorkspaceMember) :
    Workspace.mk ((ms.foldl keep read).getD []) =
      ms.foldl SpelledWorkspaceMember.set ⟨read.getD []⟩ := by
  induction ms generalizing read with
  | nil => rfl
  | cons m ms ih =>
    rw [List.foldl_cons, List.foldl_cons, ih]
    cases m <;> rfl

theorem readWorkspaceMembers_spelled (ms : List SpelledWorkspaceMember) (h : ∀ m ∈ ms, m.Sound)
    (levels : Nat) (read : Option (List Block)) :
    Reads levels ((ms.map SpelledWorkspaceMember.nesting).foldr max 0)
      (SpelledWorkspaceMember.repeatsBehind read.isSome ms) (ms.foldl keep read)
      (readWorkspaceMembers levels read (ms.map fun m => (some m.key, m.node))) := by
  induction ms generalizing read with
  | nil => exact .ok levels read
  | cons m ms ih =>
    have hms := ih fun n hn => h n (List.mem_cons_of_mem _ hn)
    rw [List.map_cons, List.map_cons, List.foldr_cons, List.foldl_cons]
    cases m with
    | unknown key value =>
      obtain ⟨hkey, hvalue⟩ := h _ List.mem_cons_self
      show Reads levels (max 0 _) _ _ (readWorkspaceMembers levels read ((some key, value) :: _))
      rw [readWorkspaceMembers_unknown hkey hvalue, Nat.zero_max]
      exact hms read
    | blocks bs =>
      have hbs := readBlocks_spelled bs (h (.blocks bs) List.mem_cons_self) levels
      cases read with
      | some _ => exact .repeated ..
      | none => exact hbs.bind (hms (some _))

theorem readWorkspace_spelled (w : SpelledWorkspace) (h : w.Sound) (levels : Nat) :
    Reads levels w.nesting w.repeats w.workspace (readWorkspace levels w.node) := by
  cases w with
  | object ms =>
    rw [SpelledWorkspace.node, readWorkspace]
    refine Reads.descend fun inner _ => ?_
    exact (readWorkspaceMembers_spelled ms h inner none).pure_bind
      (congrArg Except.ok (getD_foldl_keep none ms))
  | list blocks =>
    rw [SpelledWorkspace.node, readWorkspace]
    refine Reads.descend fun inner _ => ?_
    cases blocks with
    | none => exact .ok inner _
    | some bs =>
      have hbs := readBlocks_spelled bs (h (.blocks bs) (by simp [SpelledWorkspace.members])) inner
      show Reads inner (max _ 0) ([] ++ (_ ++ [])) _ _
      rw [Nat.max_zero, List.nil_append, List.append_nil]
      exact hbs.pure_bind rfl

end Reader

namespace Workspace

theorem parse_of_spells {w : SpelledWorkspace} (h : w.Sound) {s : String}
    (hs : Json.Spells w.node.lexemes s.toList) :
    parse s = Reader.readWorkspace Reader.maxLevels w.node := by
  rw [parse, ofChars, Node.ofChars_of_spells (SpelledWorkspace.whole_node h) hs]
  show (Reader.readWorkspace Reader.maxLevels w.node >>= fun w => .ok w) = _
  cases Reader.readWorkspace Reader.maxLevels w.node <;> rfl

/-- Every text of a sound spelling is read as the workspace that is meant if the lists and objects
that are wanted fit into 127 levels and no key of a field comes again.  Otherwise the first key that
comes again is reported, or nesting that is too deep is malformed.  Two texts are read as the same
workspace if and only if they differ in choices only. -/
theorem parse_spelled (w : SpelledWorkspace) (h : w.Sound) (s : String)
    (hs : Json.Spells w.node.lexemes s.toList) :
    (w.nesting ≤ 127 → w.repeats = [] → parse s = .ok w.workspace) ∧
    (127 < w.nesting → w.repeats = [] → parse s = .error .malformed) ∧
    (∀ k ks, w.repeats = k :: ks → parse s = .error (.mismatch (.duplicateField k)) ∨
      (127 < w.nesting ∧ parse s = .error .malformed)) ∧
    (w.nesting ≤ 127 → w.repeats = [] → ∀ (v : SpelledWorkspace) (t : String), v.Sound →
      Json.Spells v.node.lexemes t.toList → v.nesting ≤ 127 → v.repeats = [] →
      (parse t = parse s ↔ v.Alike w)) := by
  have hread := Reader.readWorkspace_spelled w h Reader.maxLevels
  rw [parse_of_spells h hs]
  refine ⟨hread.fits, hread.deep, hread.again, ?_⟩
  intro hw hrw v t hv ht hvn hrv
  have hreadv := Reader.readWorkspace_spelled v hv Reader.maxLevels
  rw [parse_of_spells hv ht, hread.fits hw hrw, hreadv.fits hvn hrv,
    SpelledWorkspace.alike_iff hv h hrv hrw, Except.ok.injEq]

end Workspace

/-! ## A sparse text -/

/-- A number that no double reaches. -/
def Json.Numeral.huge : Json.Numeral := ⟨false, ['1'], none, some ⟨'e', none, ['9', '9', '9']⟩⟩

theorem Json.Numeral.wellFormed_huge : Json.Numeral.huge.WellFormed where
  whole_ne_nil := List.cons_ne_nil _ _
  whole_digits := by
    intro c hc
    rw [List.mem_singleton.1 hc]
    rfl
  no_leading_zero := by decide
  fraction := nofun
  exponent := by
    rintro e ⟨⟩
    refine ⟨.inl rfl, nofun, List.cons_ne_nil _ _, fun c hc => ?_⟩
    rw [List.eq_of_mem_replicate (n := 3) hc]
    rfl

namespace SpelledWorkspace

/-- The number stands under an unknown key, and the block is a list without what has its default. -/
def sparse : SpelledWorkspace :=
  .object [.unknown "n" (.number .huge), .blocks [.list [.id "a", .kind "b"]]]

theorem sound_sparse : sparse.Sound := by
  intro m hm
  rcases List.mem_pair.1 hm with rfl | rfl
  · exact ⟨by decide, trivial⟩
  · intro b hb
    rw [List.mem_singleton.1 hb]
    exact ⟨⟨trivial, trivial, trivial⟩, by decide, by decide⟩

/-- The first letter of the key of the blocks is escaped. -/
def sparseText : String := " \x7b\"n\":1e999,\"\\u0062locks\":[[\"a\",\"b\"]]\x7d"

theorem spells_sparse : Json.Spells sparse.node.lexemes sparseText.toList := by
  have htext : sparseText.toList =
      [' ', '\x7b', '"', 'n', '"', ':', '1', 'e', '9', '9', '9', ',',
        '"', '\\', 'u', '0', '0', '6', '2', 'l', 'o', 'c', 'k', 's', '"', ':',
        '[', '[', '"', 'a', '"', ',', '"', 'b', '"', ']', ']', '\x7d'] := by
    decide
  have hlexemes : sparse.node.lexemes =
      [.token .openObject, .token (.text "n"), .token .colon, .token (.number .huge), .token .comma,
        .ofPieces [.unit 0x62, .char 'l', .char 'o', .char 'c', .char 'k', .char 's'],
        .token .colon, .token .openList, .token .openList, .token (.text "a"), .token .comma,
        .token (.text "b"), .token .closeList, .token .closeList, .token .closeObject] := by
    decide
  have hsound : (Json.Token.number .huge).Sound := by
    rintro n ⟨⟩
    exact Json.Numeral.wellFormed_huge
  have hkey : Json.Literal.Spells
      [.unit 0x62, .char 'l', .char 'o', .char 'c', .char 'k', .char 's']
      ['\\', 'u', '0', '0', '6', '2', 'l', 'o', 'c', 'k', 's'] := by
    refine .unit rfl ?_
    repeat refine .plain (by decide) (by decide) (by decide) ?_
    exact .nil
  rw [htext, hlexemes]
  refine .blank rfl (.cons rfl (.cons rfl (.cons rfl (.token hsound ?_ (.cons rfl ?_)))))
  · rintro n ⟨⟩ c ⟨⟩
    decide
  · refine .text hkey ?_
    repeat refine .cons rfl ?_
    exact .nil

/-- The same block as an object, with its kind in front and a successor that is null. -/
def turned : SpelledWorkspace := .object [.blocks [.object [.kind "b", .noNext, .id "a"]]]

theorem sound_turned : turned.Sound := by
  intro m hm
  rw [List.mem_singleton.1 hm]
  intro b hb
  rw [List.mem_singleton.1 hb]
  exact ⟨⟨trivial, trivial, trivial, trivial⟩, by decide, by decide⟩

def turnedText : String := "\x7b\"blocks\":[\x7b\"type\":\"b\",\"next\":null,\"id\":\"a\"\x7d]\x7d"

theorem spells_turned : Json.Spells turned.node.lexemes turnedText.toList := by
  have hlaid : Json.Laid
      [.openObject, .text "blocks", .colon, .openList, .openObject, .text "type", .colon,
        .text "b", .comma, .text "next", .colon, .null, .comma, .text "id", .colon, .text "a",
        .closeObject, .closeList, .closeObject] turnedText.toList :=
    Json.laid_compact (by decide)
  exact hlaid.spells

end SpelledWorkspace

theorem Workspace.parse_spelled_sparse :
    parse SpelledWorkspace.sparseText = .ok ⟨[.fresh "a" "b"]⟩ ∧
      SpelledWorkspace.turned.Alike SpelledWorkspace.sparse := by
  have hsparse := parse_spelled _ SpelledWorkspace.sound_sparse _ SpelledWorkspace.spells_sparse
  have hturned := parse_spelled _ SpelledWorkspace.sound_turned _ SpelledWorkspace.spells_turned
  obtain ⟨hfits, -, -, hiff⟩ := hsparse
  have hparse := hfits (by decide) (by decide)
  refine ⟨hparse, (hiff (by decide) (by decide) _ _ SpelledWorkspace.sound_turned
    SpelledWorkspace.spells_turned (by decide) (by decide)).1 ?_⟩
  exact (hturned.1 (by decide) (by decide)).trans hparse.symm

end MotorSketch
