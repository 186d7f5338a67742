import Mathlib.Logic.Relation
import MotorSketch.Proofs.OrderedMap
import MotorSketch.Proofs.Workspace.Spelling

/-!
# Choices of spellings

Two spellings are alike if one becomes the other by choices that do not matter: whether a workspace
or a block is an object or a list, the order of the members, members that say nothing, and keys
within `fields` and `inputs` that come again.  Spellings that are alike mean the same workspace, and
there are no other choices: a spelling is alike to the plain one of the workspace that is meant.

    b.Alike c → b.block = c.block                                                 (Alike.block_eq)
    b.Sound → b.repeats = [] → b.Alike (plain b.block)                               (alike_plain)
    v.Alike w ↔ v.workspace = w.workspace                                              (alike_iff)
-/

namespace MotorSketch

open Json (Node)
open Reader (BlockField)

/-! ## Keys that come again -/

/-- A key that comes again is left out, and the place where it came before gets its value. -/
inductive Merges {α : Type} : List (String × α) → List (String × α) → Prop
  | again {k : String} (u v : α) (before after : List (String × α)) {between : List (String × α)}
      (h : k ∉ Entries.keys between) :
      Merges (before ++ (k, u) :: (between ++ (k, v) :: after))
        (before ++ (k, v) :: (between ++ after))

namespace Merges

variable {α β : Type} {es fs : List (String × α)}

theorem ofList_eq (h : Merges es fs) : OrderedMap.ofList es = OrderedMap.ofList fs := by
  cases h with
  | @again k u v before after between hbetween =>
    have hk : k ∈ ((OrderedMap.insertAll ∅ before).insert k u).keys :=
      Entries.mem_keys_insert.2 (.inl rfl)
    simp only [OrderedMap.ofList, OrderedMap.insertAll_append, OrderedMap.insertAll_cons]
    rw [← OrderedMap.insertAll_insert hk v hbetween, OrderedMap.insert_insert]

theorem map (h : Merges es fs) (f : α → β) :
    Merges (es.map fun e => (e.1, f e.2)) (fs.map fun e => (e.1, f e.2)) := by
  cases h with
  | @again k u v before after between hbetween =>
    have hkeys : k ∉ Entries.keys (between.map fun e => (e.1, f e.2)) := by
      simpa [Entries.keys] using hbetween
    simpa using again (f u) (f v) (before.map fun e => (e.1, f e.2))
      (after.map fun e => (e.1, f e.2)) hkeys

/-- The entries of a map with one more entry behind them. -/
theorem insert (m : OrderedMap String α) (k : String) (v : α) (after : List (String × α)) :
    Relation.ReflGen Merges (m.entries ++ (k, v) :: after) ((m.insert k v).entries ++ after) := by
  show Relation.ReflGen Merges _ (Entries.insert k v m.entries ++ after)
  by_cases hk : k ∈ m.keys
  · obtain ⟨before, u, between, hsplit, hinsert⟩ := Entries.exists_insert_of_mem hk v
    have hnodup := m.nodup_keys
    rw [hsplit, Entries.keys_append, Entries.keys_cons, List.nodup_append] at hnodup
    have hbetween := (List.nodup_cons.1 hnodup.2.1).1
    rw [hsplit] at hinsert ⊢
    rw [hinsert, List.append_assoc, List.append_assoc, List.cons_append, List.cons_append]
    exact .single (again u v before after hbetween)
  · rw [Entries.insert_of_not_mem hk, List.append_assoc, List.singleton_append]

theorem insertAll (m : OrderedMap String α) (es : List (String × α)) :
    Relation.ReflTransGen Merges (m.entries ++ es) (m.insertAll es).entries := by
  induction es generalizing m with
  | nil =>
    rw [List.append_nil]
    exact .refl
  | cons e es ih => exact .trans (insert m e.1 e.2 es).to_reflTransGen (ih (m.insert e.1 e.2))

theorem ofList (es : List (String × α)) :
    Relation.ReflTransGen Merges es (OrderedMap.ofList es).entries :=
  insertAll ∅ es

end Merges

/-- Says no more than what holds without it. -/
def SpelledMember.isSilent : SpelledMember → Bool
  | fields [] | inputs [] | noNext | disabled false | unknown _ _ => true
  | _ => false

namespace SpelledBlock

/-! ## Alike blocks -/

/-- The same up to choices that do not matter, in the block and in the blocks within it. -/
inductive Alike : SpelledBlock → SpelledBlock → Prop
  | refl (b : SpelledBlock) : Alike b b
  | symm {b c : SpelledBlock} (h : Alike b c) : Alike c b
  | trans {b c d : SpelledBlock} (hbc : Alike b c) (hcd : Alike c d) : Alike b d
  | layout (ms : List SpelledMember) : Alike (object ms) (list ms)
  | order {ms ns : List SpelledMember} (hd : (ms.filterMap SpelledMember.field?).Nodup)
      (h : ms.Perm ns) : Alike (object ms) (object ns)
  | silent {m : SpelledMember} (h : m.isSilent) (ms : List SpelledMember) :
      Alike (object (m :: ms)) (object ms)
  | fields {es fs : List (String × String)} (h : Merges es fs) (ms : List SpelledMember) :
      Alike (object (.fields es :: ms)) (object (.fields fs :: ms))
  | inputs {es fs : List (String × SpelledBlock)} (h : Merges es fs) (ms : List SpelledMember) :
      Alike (object (.inputs es :: ms)) (object (.inputs fs :: ms))
  | plug {b c : SpelledBlock} (h : Alike b c) (name : String)
      (before after : List (String × SpelledBlock)) (ms : List SpelledMember) :
      Alike (object (.inputs (before ++ (name, b) :: after) :: ms))
        (object (.inputs (before ++ (name, c) :: after) :: ms))
  | next {b c : SpelledBlock} (h : Alike b c) (ms : List SpelledMember) :
      Alike (object (.next b :: ms)) (object (.next c :: ms))

theorem set_comm {m n : SpelledMember} (h : m.field? = none ∨ m.field? ≠ n.field?) (b : Block) :
    set (set b m) n = set (set b n) m := by
  cases m <;> cases n <;> first | rfl | simp [SpelledMember.field?] at h

theorem setAll_perm {ms ns : List SpelledMember} (h : ms.Perm ns)
    (hd : (ms.filterMap SpelledMember.field?).Nodup) (b : Block) : setAll b ms = setAll b ns := by
  induction h generalizing b with
  | nil => rfl
  | cons m _ ih =>
    refine ih ?_ (set b m)
    rw [List.filterMap_cons] at hd
    split at hd
    · exact hd
    · exact hd.tail
  | swap m n ms =>
    show setAll (set (set b n) m) ms = setAll (set (set b m) n) ms
    rw [set_comm ?_ b]
    cases hn : n.field? with
    | none => exact .inl rfl
    | some f =>
      refine .inr fun hm => ?_
      simp [hn, ← hm] at hd
  | trans h₁ _ ih₁ ih₂ =>
    exact (ih₁ hd b).trans (ih₂ ((h₁.filterMap _).nodup_iff.1 hd) b)

theorem set_fresh_of_isSilent {m : SpelledMember} (h : m.isSilent) (id kind : String) :
    set (.fresh id kind) m = .fresh id kind := by
  unfold SpelledMember.isSilent at h
  split at h
  case h_6 => cases h
  all_goals rfl

theorem plugAll_entries (m : OrderedMap String Block) (es : List (String × SpelledBlock)) :
    plugAll m.entries es = (m.insertAll (es.map fun e => (e.1, e.2.block))).entries := by
  induction es generalizing m with
  | nil => rfl
  | cons e es ih => exact ih (m.insert e.1 e.2.block)

theorem plugAll_nil (es : List (String × SpelledBlock)) :
    plugAll [] es = (OrderedMap.ofList (es.map fun e => (e.1, e.2.block))).entries :=
  plugAll_entries ∅ es

theorem Alike.block_eq {b c : SpelledBlock} (h : Alike b c) : b.block = c.block := by
  induction h with
  | refl => rfl
  | symm _ ih => exact ih.symm
  | trans _ _ ihbc ihcd => exact ihbc.trans ihcd
  | layout ms => rfl
  | order hd h => exact setAll_perm h hd _
  | silent h ms =>
    rw [block, block, setAll, set_fresh_of_isSilent h]
  | fields h ms => rw [block, block, setAll, setAll, set, set, h.ofList_eq]
  | inputs h ms =>
    rw [block, block, setAll, setAll, set, set, plugAll_nil, plugAll_nil, (h.map block).ofList_eq]
  | plug h name before after ms ih =>
    rw [block, block, setAll, setAll, set, set, plugAll_nil, plugAll_nil, List.map_append,
      List.map_append, List.map_cons, List.map_cons, ih]
  | next h ms ih => rw [block, block, setAll, setAll, set, set, ih]

/-! ## Plain blocks -/

mutual

/-- The object with all members, in order. -/
def plain : Block → SpelledBlock
  | ⟨id, kind, fields, inputs, next, disabled⟩ =>
    object [.id id, .kind kind, .fields fields.entries, .inputs (plainPlugs inputs),
      plainNext next, .disabled disabled]

def plainPlugs : List (String × Block) → List (String × SpelledBlock)
  | [] => []
  | (name, b) :: more => (name, plain b) :: plainPlugs more

def plainNext : Option Block → SpelledMember
  | none => .noNext
  | some b => .next (plain b)

end

theorem plainPlugs_eq_map (es : List (String × Block)) :
    plainPlugs es = es.map fun e => (e.1, plain e.2) := by
  induction es with
  | nil => rfl
  | cons e es ih => rw [plainPlugs, ih, List.map_cons]

/-- What the plain form says about a field. -/
def said (b : Block) : BlockField → SpelledMember
  | .id => .id b.id
  | .kind => .kind b.kind
  | .fields => .fields b.fields.entries
  | .inputs => .inputs (plainPlugs b.inputs)
  | .next => plainNext b.next
  | .disabled => .disabled b.disabled

theorem plain_eq (b : Block) : plain b = object (BlockField.all.map (said b)) := by
  cases b
  rfl

theorem field?_said (b : Block) (f : BlockField) : (said b f).field? = some f := by
  cases f with
  | next =>
    show (plainNext b.next).field? = _
    cases b.next <;> rfl
  | _ => rfl

theorem said_set {m : SpelledMember} {f : BlockField} (h : m.field? ≠ some f) (b : Block) :
    said (set b m) f = said b f := by
  cases m <;> cases f <;> first | rfl | exact absurd rfl h

theorem isSilent_said_fresh {f : BlockField} (hid : f ≠ .id) (hkind : f ≠ .kind) :
    (said (.fresh "" "") f).isSilent := by
  cases f <;> first | rfl | contradiction

/-! ## Normal forms -/

theorem Alike.silents {ns : List SpelledMember} (h : ∀ m ∈ ns, m.isSilent)
    (ms : List SpelledMember) : Alike (object (ns ++ ms)) (object ms) := by
  induction ns with
  | nil => exact .refl _
  | cons n ns ih => exact (silent (h n (by simp)) _).trans (ih fun m hm => h m (by simp [hm]))

theorem Alike.merged {α : Type} {spell : List (String × α) → SpelledBlock}
    (hspell : ∀ {es fs}, Merges es fs → Alike (spell es) (spell fs)) {es fs : List (String × α)}
    (h : Relation.ReflTransGen Merges es fs) : Alike (spell es) (spell fs) := by
  induction h with
  | refl => exact .refl _
  | tail _ hstep ih => exact ih.trans (hspell hstep)

/-- Where no key comes again, what a block has seen stands for different fields. -/
theorem nodup_of_membersRepeats {seen : List BlockField} {ms : List SpelledMember}
    (h : membersRepeats seen ms = []) :
    (ms.filterMap SpelledMember.field?).Nodup ∧
      ∀ f ∈ ms.filterMap SpelledMember.field?, f ∉ seen := by
  induction ms generalizing seen with
  | nil => simp
  | cons m ms ih =>
    rw [membersRepeats, List.append_eq_nil_iff, List.append_eq_nil_iff] at h
    obtain ⟨hm, -, hms⟩ := h
    obtain ⟨hnodup, hseen⟩ := ih hms
    cases hf : m.field? with
    | none =>
      rw [List.filterMap_cons_none hf]
      rw [hf] at hseen
      exact ⟨hnodup, hseen⟩
    | some f =>
      have hnot : f ∉ seen := by
        intro hmem
        simp [SpelledMember.again, hf, hmem] at hm
      rw [hf] at hseen
      rw [List.filterMap_cons_some hf]
      refine ⟨List.nodup_cons.2 ⟨fun hmem => hseen f hmem (by simp), hnodup⟩, ?_⟩
      intro g hg
      rcases List.mem_cons.1 hg with rfl | hg
      · exact hnot
      · exact fun hmem => hseen g hg (by simp [hmem])

/-- The fields that have not been seen. -/
def others (seen : List BlockField) : List BlockField := BlockField.all.filter (· ∉ seen)

theorem mem_others {f : BlockField} {seen : List BlockField} : f ∈ others seen ↔ f ∉ seen := by
  have hf : f ∈ BlockField.all := by cases f <;> decide
  simp [others, hf]

theorem nodup_others (seen : List BlockField) : (others seen).Nodup :=
  List.Pairwise.filter _ (by decide)

theorem perm_others {f : BlockField} {seen : List BlockField} (h : f ∉ seen) :
    (f :: others (f :: seen)).Perm (others seen) := by
  have hnodup : (f :: others (f :: seen)).Nodup :=
    List.nodup_cons.2 ⟨fun hf => mem_others.1 hf List.mem_cons_self, nodup_others _⟩
  rw [List.perm_ext_iff_of_nodup hnodup (nodup_others seen)]
  intro g
  rw [List.mem_cons, mem_others, mem_others, List.mem_cons]
  by_cases hgf : g = f
  · simp [hgf, h]
  · simp [hgf]

/-- What the plain form of a block says about all fields but these. -/
def rest (b : Block) (seen : List BlockField) : List SpelledMember := (others seen).map (said b)

theorem filterMap_rest (b : Block) (seen : List BlockField) :
    (rest b seen).filterMap SpelledMember.field? = others seen := by
  rw [rest, List.filterMap_map, funext (f := SpelledMember.field? ∘ said b) (field?_said b),
    List.filterMap_some]

theorem nodup_rest (b : Block) {ms : List SpelledMember}
    (h : (ms.filterMap SpelledMember.field?).Nodup) :
    ((rest b (ms.filterMap SpelledMember.field?) ++ ms).filterMap SpelledMember.field?).Nodup := by
  rw [List.filterMap_append, filterMap_rest, List.nodup_append]
  refine ⟨nodup_others _, h, ?_⟩
  rintro f hf _ hg rfl
  exact mem_others.1 hf hg

theorem rest_set {m : SpelledMember} {f : BlockField} (hf : m.field? = some f) (b : Block)
    (seen : List BlockField) : rest (set b m) (f :: seen) = rest b (f :: seen) := by
  refine List.map_congr_left fun g hg => said_set ?_ b
  intro hgf
  obtain rfl : f = g := Option.some_inj.1 (hf.symm.trans hgf)
  exact mem_others.1 hg List.mem_cons_self

theorem perm_rest {f : BlockField} {seen : List BlockField} (h : f ∉ seen) (b : Block) :
    (said b f :: rest b (f :: seen)).Perm (rest b seen) :=
  (perm_others h).map (said b)

/-- All that the plain form of a block of defaults says but for the id and the kind is silent. -/
theorem alike_rest_fresh {ms : List SpelledMember} (hid : some .id ∈ ms.map SpelledMember.field?)
    (hkind : some .kind ∈ ms.map SpelledMember.field?) :
    Alike (object (rest (.fresh "" "") (ms.filterMap SpelledMember.field?) ++ ms)) (object ms) := by
  refine .silents ?_ ms
  intro m hm
  obtain ⟨f, hf, rfl⟩ := List.mem_map.1 hm
  have hseen : ∀ g, some g ∈ ms.map SpelledMember.field? → f ≠ g := by
    rintro g hg rfl
    exact mem_others.1 hf (List.mem_filterMap.2 (List.mem_map.1 hg))
  exact isSilent_said_fresh (hseen _ hid) (hseen _ hkind)

theorem plainPlugs_plugAll (es : List (String × SpelledBlock)) :
    plainPlugs (plugAll [] es) =
      (OrderedMap.ofList (es.map fun e => (e.1, plain e.2.block))).entries := by
  rw [plainPlugs_eq_map, plugAll_nil, OrderedMap.entries_ofList_map,
    OrderedMap.entries_ofList_map, List.map_map]
  rfl

mutual

theorem alike_plain (b : SpelledBlock) (h : b.Sound) (hr : b.repeats = []) :
    b.Alike (plain b.block) := by
  match b, h with
  | object ms, ⟨hms, hid, hkind⟩ =>
    exact (alike_rest_fresh hid hkind).symm.trans (alike_rest ms hms hr _)
  | list ms, ⟨hms, hfields, hlen⟩ =>
    obtain ⟨hid, hkind⟩ := mem_of_prefix_all hfields (by rwa [List.length_map])
    exact (Alike.layout ms).symm.trans
      ((alike_rest_fresh hid hkind).symm.trans (alike_rest ms hms hr _))

/-- A member can be put as the plain form puts it. -/
theorem alike_said (m : SpelledMember) (h : MemberSound m) (hr : memberRepeats m = [])
    {f : BlockField} (hf : m.field? = some f) (b : Block) (ms : List SpelledMember) :
    Alike (object (m :: ms)) (object (said (set b m) f :: ms)) := by
  match m, h with
  | .id s, _ | .kind s, _ | .noNext, _ | .disabled d, _ =>
    cases hf
    exact .refl _
  | .fields es, _ =>
    cases hf
    exact .merged (.fields · ms) (Merges.ofList es)
  | .inputs es, h =>
    cases hf
    have hmerged := Merges.ofList (es.map fun e => (e.1, plain e.2.block))
    rw [← plainPlugs_plugAll] at hmerged
    exact (alike_plugs es h hr [] ms).trans (.merged (.inputs · ms) hmerged)
  | .next b, h =>
    cases hf
    exact .next (alike_plain b h hr) ms

theorem alike_plugs (es : List (String × SpelledBlock)) (h : PlugsSound es)
    (hr : plugsRepeats es = []) (before : List (String × SpelledBlock)) (ms : List SpelledMember) :
    Alike (object (.inputs (before ++ es) :: ms))
      (object (.inputs (before ++ es.map fun e => (e.1, plain e.2.block)) :: ms)) := by
  match es, h with
  | [], _ => exact .refl _
  | (name, b) :: more, ⟨hb, hmore⟩ =>
    obtain ⟨hrb, hrmore⟩ := List.append_eq_nil_iff.1 hr
    have hmore := alike_plugs more hmore hrmore (before ++ [(name, plain b.block)]) ms
    rw [List.append_assoc, List.append_assoc, List.singleton_append] at hmore
    exact (Alike.plug (alike_plain b hb hrb) name before more ms).trans hmore

/-- What the plain form says about a field gives way to the member that is still to come. -/
theorem alike_rest (ms : List SpelledMember) (h : MembersSound ms) {seen : List BlockField}
    (hr : membersRepeats seen ms = []) (b : Block) :
    Alike (object (rest b (ms.filterMap SpelledMember.field?) ++ ms)) (plain (setAll b ms)) := by
  match ms, h with
  | [], _ =>
    rw [plain_eq, List.append_nil]
    exact .refl _
  | m :: more, ⟨hm, hmore⟩ =>
    have hnodup := (nodup_of_membersRepeats hr).1
    obtain ⟨-, hr⟩ := List.append_eq_nil_iff.1 hr
    obtain ⟨hrm, hrmore⟩ := List.append_eq_nil_iff.1 hr
    have hmore := alike_rest more hmore hrmore (set b m)
    -- The member comes to the front, is dropped or put as in the plain form, and goes to its place.
    refine .trans (.order (nodup_rest b hnodup) List.perm_middle) (.trans ?_ hmore)
    cases hf : m.field? with
    | none =>
      obtain ⟨key, value, rfl⟩ := SpelledMember.eq_unknown_of_field? hf
      exact .silent rfl _
    | some f =>
      rw [List.filterMap_cons_some hf] at hnodup ⊢
      obtain ⟨hnew, hnodup⟩ := List.nodup_cons.1 hnodup
      have hperm := (perm_rest hnew (set b m)).append_right more
      have hd := (hperm.filterMap _).nodup_iff.2 (nodup_rest (set b m) hnodup)
      rw [rest_set hf] at hperm hd
      exact (alike_said m hm hrm hf b _).trans (.order hd hperm)

end

end SpelledBlock

/-! ## Alike workspaces -/

namespace SpelledWorkspace

open SpelledBlock (plain)

/-- The same up to choices that do not matter, in the workspace and in its blocks. -/
inductive Alike : SpelledWorkspace → SpelledWorkspace → Prop
  | refl (w : SpelledWorkspace) : Alike w w
  | symm {v w : SpelledWorkspace} (h : Alike v w) : Alike w v
  | trans {u v w : SpelledWorkspace} (huv : Alike u v) (hvw : Alike v w) : Alike u w
  | layout (bs : List SpelledBlock) : Alike (object [.blocks bs]) (list (some bs))
  | absent : Alike (list none) (list (some []))
  | silent : Alike (object []) (object [.blocks []])
  | unknown (key : String) (value : Node) (before after : List SpelledWorkspaceMember) :
      Alike (object (before ++ .unknown key value :: after)) (object (before ++ after))
  | block {b c : SpelledBlock} (h : b.Alike c) (before after : List SpelledBlock) :
      Alike (list (some (before ++ b :: after))) (list (some (before ++ c :: after)))

theorem Alike.workspace_eq {v w : SpelledWorkspace} (h : Alike v w) :
    v.workspace = w.workspace := by
  induction h with
  | refl | layout | absent | silent => rfl
  | symm _ ih => exact ih.symm
  | trans _ _ ihuv ihvw => exact ihuv.trans ihvw
  | unknown key value before after =>
    show List.foldl _ _ (before ++ _ :: after) = List.foldl _ _ (before ++ after)
    rw [List.foldl_append, List.foldl_cons, List.foldl_append]
    rfl
  | block h before after =>
    show Workspace.mk (List.map _ (before ++ _ :: after)) = ⟨List.map _ (before ++ _ :: after)⟩
    rw [List.map_append, List.map_append, List.map_cons, List.map_cons, h.block_eq]

theorem alike_singleton (m : SpelledWorkspaceMember) {ms : List SpelledWorkspaceMember}
    (h : SpelledWorkspaceMember.repeatsBehind true ms = []) :
    (object (m :: ms)).Alike (object [m]) := by
  induction ms with
  | nil => exact .refl _
  | cons n ms ih =>
    cases n with
    | unknown key value => exact (Alike.unknown key value [m] ms).trans (ih h)
    | blocks bs => cases h

theorem repeats_of_blocks {bs : List SpelledBlock} {ms : List SpelledWorkspaceMember}
    (h : SpelledWorkspaceMember.repeatsBehind false (.blocks bs :: ms) = []) :
    (∀ b ∈ bs, b.repeats = []) ∧ SpelledWorkspaceMember.repeatsBehind true ms = [] := by
  obtain ⟨-, h⟩ := List.append_eq_nil_iff.1 h
  obtain ⟨hbs, hms⟩ := List.append_eq_nil_iff.1 h
  exact ⟨List.flatMap_eq_nil_iff.1 hbs, hms⟩

/-- A workspace can be put as the list of its blocks. -/
theorem exists_alike_list (w : SpelledWorkspace) (h : w.Sound) (hr : w.repeats = []) :
    ∃ bs, w.Alike (list (some bs)) ∧ (∀ b ∈ bs, b.Sound) ∧ ∀ b ∈ bs, b.repeats = [] := by
  cases w with
  | list blocks =>
    cases blocks with
    | none => exact ⟨[], .absent, nofun, nofun⟩
    | some bs =>
      have hbs := (@repeats_of_blocks bs [] hr).1
      exact ⟨bs, .refl _, h (.blocks bs) List.mem_cons_self, hbs⟩
  | object ms =>
    induction ms with
    | nil => exact ⟨[], Alike.silent.trans (.layout []), nofun, nofun⟩
    | cons m ms ih =>
      cases m with
      | unknown key value =>
        obtain ⟨bs, halike, hbs⟩ := ih (fun n hn => h n (List.mem_cons_of_mem _ hn)) hr
        exact ⟨bs, (Alike.unknown key value [] ms).trans halike, hbs⟩
      | blocks bs =>
        obtain ⟨hbs, hms⟩ := repeats_of_blocks hr
        exact ⟨bs, (alike_singleton _ hms).trans (.layout bs), h _ List.mem_cons_self, hbs⟩

theorem alike_plainBlocks (bs : List SpelledBlock) (h : ∀ b ∈ bs, b.Sound)
    (hr : ∀ b ∈ bs, b.repeats = []) (before : List SpelledBlock) :
    Alike (list (some (before ++ bs)))
      (list (some (before ++ bs.map fun b => plain b.block))) := by
  induction bs generalizing before with
  | nil => exact .refl _
  | cons b bs ih =>
    have hbs := ih (fun c hc => h c (List.mem_cons_of_mem _ hc))
      (fun c hc => hr c (List.mem_cons_of_mem _ hc)) (before ++ [plain b.block])
    rw [List.append_assoc, List.append_assoc, List.singleton_append] at hbs
    exact (Alike.block (b.alike_plain (h b List.mem_cons_self) (hr b List.mem_cons_self))
      before bs).trans hbs

theorem alike_plain (w : SpelledWorkspace) (h : w.Sound) (hr : w.repeats = []) :
    w.Alike (list (some (w.workspace.blocks.map plain))) := by
  obtain ⟨bs, halike, hbs, hrbs⟩ := exists_alike_list w h hr
  have hblocks : w.workspace.blocks.map plain = bs.map fun b => plain b.block := by
    rw [halike.workspace_eq]
    exact List.map_map
  rw [hblocks]
  exact halike.trans (alike_plainBlocks bs hbs hrbs [])

/-- Spellings are alike if and only if they mean the same workspace. -/
theorem alike_iff {v w : SpelledWorkspace} (hv : v.Sound) (hw : w.Sound) (hrv : v.repeats = [])
    (hrw : w.repeats = []) : v.Alike w ↔ v.workspace = w.workspace := by
  refine ⟨Alike.workspace_eq, fun h => ?_⟩
  have hplain := v.alike_plain hv hrv
  rw [h] at hplain
  exact hplain.trans (w.alike_plain hw hrw).symm

end SpelledWorkspace

end MotorSketch
