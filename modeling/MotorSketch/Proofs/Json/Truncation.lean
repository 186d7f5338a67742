import MotorSketch.Proofs.Json.Tree

/-!
# Truncated texts

A layout of a value that breaks off somewhere, within a token, between two or in front of the first
one, is read as the tree of the value up to this place: what is complete there is as it was, every
list and object that is open ends with the break, and a value that is not complete is missing, or is
the list or object that is open.

    Laid ts (p ++ e) → e ≠ [] → CutShort (ts.map Lexeme.token) (Lexeme.lexemes p)   (Laid.cutShort)
    n.Whole → CutShort n.lexemes ks → ∃ m, n.Cut m ∧ Document.ofLexemes ks = ⟨m, false⟩
                                                                             (ofLexemes_of_cutShort)
    Laid v.tokens (p ++ e) → e ≠ [] → ∃ m, v.node.Cut m ∧ Document.ofChars p = ⟨m, false⟩
                                                                                 (ofChars_of_prefix)
-/

namespace MotorSketch.Json

/-- A list of two parts is cut within the first one or behind it. -/
theorem cut_append {α : Type} {p e ys zs : List α} (h : p ++ e = ys ++ zs) :
    (∃ a, a ≠ [] ∧ p ++ a = ys) ∨ ∃ q, p = ys ++ q ∧ q ++ e = zs := by
  obtain ⟨a, rfl, rfl⟩ | ⟨q, rfl, rfl⟩ := List.append_eq_append_iff.1 h
  · by_cases ha : a = []
    · exact .inr ⟨[], by simp [ha], by simp [ha]⟩
    · exact .inl ⟨a, ha, rfl⟩
  · exact .inr ⟨q, rfl, rfl⟩

/-! ## Texts that break off -/

namespace Literal

theorem unitFault_hexPair : ∀ n, n < 0x20 →
    unitFault ['0', '0', Nat.digitChar (n / 16)] = .truncated := by
  decide

theorem scan_unit_cut {n : Nat} (hn : n < 0x20) {p a : List Char}
    (h : p ++ a = ['\\', 'u', '0', '0'] ++ Text.hexPair n) (ha : a ≠ []) :
    scan p = .stop .truncated := by
  obtain ⟨k, hk, rfl⟩ : ∃ k < 6, p = (['\\', 'u', '0', '0'] ++ Text.hexPair n).take k := by
    have hlen := congrArg List.length h
    have hpos := List.length_pos_iff.2 ha
    have hsix : (['\\', 'u', '0', '0'] ++ Text.hexPair n).length = 6 := rfl
    rw [List.length_append] at hlen
    exact ⟨p.length, by omega, by rw [← h, List.take_left]⟩
  match k, hk with
  | 0, _ | 1, _ | 2, _ | 3, _ | 4, _ => rfl
  | 5, _ => exact congrArg Scanned.stop (unitFault_hexPair n hn)

theorem scan_escape_cut {c : Char} {p a : List Char} (h : p ++ a = escape c) (ha : a ≠ []) :
    scan p = .stop .truncated := by
  unfold escape at h
  split at h
  case h_8 =>
    split at h
    · next hc => exact scan_unit_cut hc h ha
    · rcases p with _ | ⟨x, p⟩
      · rfl
      · simp_all
  all_goals
    rcases p with _ | ⟨x, _ | ⟨y, p⟩⟩
    · rfl
    · rw [(List.cons.inj h).1]
      rfl
    · simp_all

/-- A text that breaks off in front of its closing quote. -/
theorem scan_body_cut {s p e : List Char} (h : p ++ e = body s) :
    ∃ t : List Char, scan p = ⟨t.map piece, some .truncated, []⟩ := by
  induction s generalizing p with
  | nil =>
    rw [(List.append_eq_nil_iff.1 h).1]
    exact ⟨[], rfl⟩
  | cons c s ih =>
    rw [body, List.flatMap_cons] at h
    obtain ⟨a, ha, hc⟩ | ⟨q, rfl, hq⟩ := cut_append h
    · exact ⟨[], scan_escape_cut hc ha⟩
    · obtain ⟨t, ht⟩ := ih hq
      refine ⟨c :: t, ?_⟩
      rw [scan_escape, ht]
      rfl

theorem decode_map_piece_fault (s : List Char) (f : Fault) :
    decode (s.map piece) (some f) = .error f := by
  induction s with
  | nil => rfl
  | cons c s ih => rw [List.map_cons, decode_piece, ih]; rfl

end Literal

/-! ## Tokens that break off -/

namespace Lexeme

theorem next_text_cut {s p e : List Char} (h : p ++ e = Literal.body s) :
    next '"' p = (.cutText .truncated, []) := by
  obtain ⟨t, ht⟩ := Literal.scan_body_cut h
  show ofLiteral (Literal.scan p) = _
  rw [ht, ofLiteral, Literal.decode_map_piece_fault]
  rfl

theorem lexemes_text_cut {s p e : List Char} (h : p ++ e = Literal.body s ++ ['"'])
    (he : e ≠ []) : lexemes ('"' :: p) = [.cutText .truncated] := by
  rw [← List.dropLast_concat_getLast he, ← List.append_assoc] at h
  rw [lexemes_cons rfl, next_text_cut (List.append_inj' h rfl).1, lexemes_nil]

theorem scanLetters_cut (t : Token) {ls p e : List Char} (h : p ++ e = ls) (he : e ≠ []) :
    scanLetters t ls p = (.broken .truncated, []) := by
  subst h
  induction p with
  | nil =>
    cases e with
    | nil => exact absurd rfl he
    | cons c e => rfl
  | cons c p ih => exact (if_pos rfl).trans ih

theorem lexemes_word_cut {t : Token} {c : Char} {ls p e : List Char} (hc : isBlank c = false)
    (hnext : ∀ cs, next c cs = scanLetters t ls cs) (h : p ++ e = ls) (he : e ≠ []) :
    lexemes (c :: p) = [.broken .truncated] := by
  rw [lexemes_cons hc, hnext, scanLetters_cut t h he, lexemes_nil]

theorem lexemes_blanks {bs : List Char} (h : ∀ c ∈ bs, isBlank c = true) (cs : List Char) :
    lexemes (bs ++ cs) = lexemes cs := by
  induction bs with
  | nil => rfl
  | cons b bs ih =>
    rw [List.forall_mem_cons] at h
    rw [List.cons_append, lexemes_blank h.1, ih h.2]

end Lexeme

/-- What is read of a token that breaks off behind its first character. -/
def Token.torn? : Token → Option Lexeme
  | null | bool _ => some (.broken .truncated)
  | text _ => some (.cutText .truncated)
  | _ => none

/-- The second sequence is what is read if a text of the first one breaks off before its last
token ends. -/
inductive CutShort : List Lexeme → List Lexeme → Prop
  | nothing {l : Lexeme} {ls : List Lexeme} : CutShort (l :: ls) []
  | torn {t : Token} {k : Lexeme} {ls : List Lexeme} :
      t.torn? = some k → CutShort (.token t :: ls) [k]
  | later {l : Lexeme} {ls ks : List Lexeme} : CutShort ls ks → CutShort (l :: ls) (l :: ks)

namespace CutShort

theorem of_write {t : Token} (ht : t.isNumber = false) {p e : List Char} (h : p ++ e = t.write)
    (he : e ≠ []) (ls : List Lexeme) : CutShort (.token t :: ls) (Lexeme.lexemes p) := by
  cases p with
  | nil =>
    rw [Lexeme.lexemes_nil]
    exact nothing
  | cons c p =>
    rw [List.cons_append] at h
    cases t with
    | number n => cases ht
    | text s =>
      obtain ⟨rfl, hp⟩ := List.cons.inj h
      rw [Lexeme.lexemes_text_cut hp he]
      exact torn rfl
    | null =>
      obtain ⟨rfl, hp⟩ := List.cons.inj h
      rw [Lexeme.lexemes_word_cut rfl (fun _ => rfl) hp he]
      exact torn rfl
    | bool b =>
      cases b <;>
      · obtain ⟨rfl, hp⟩ := List.cons.inj h
        rw [Lexeme.lexemes_word_cut rfl (fun _ => rfl) hp he]
        exact torn rfl
    | openList | closeList | openObject | closeObject | comma | colon =>
      exact absurd (List.append_eq_nil_iff.1 (List.cons.inj h).2).2 he

theorem append_cases {xs ys ks : List Lexeme} (h : CutShort (xs ++ ys) ks) :
    CutShort xs ks ∨ ∃ js, ks = xs ++ js ∧ CutShort ys js := by
  induction xs generalizing ks with
  | nil => exact .inr ⟨ks, rfl, h⟩
  | cons x xs ih =>
    cases h with
    | nothing => exact .inl nothing
    | torn ht => exact .inl (torn ht)
    | later hcut =>
      obtain hxs | ⟨js, rfl, hys⟩ := ih hcut
      · exact .inl (later hxs)
      · exact .inr ⟨js, rfl, hys⟩

/-- A token of one character is there or not. -/
theorem cons_cases {t : Token} (ht : t.torn? = none) {ls ks : List Lexeme}
    (h : CutShort (.token t :: ls) ks) : ks = [] ∨ ∃ js, ks = .token t :: js ∧ CutShort ls js := by
  cases h with
  | nothing => exact .inl rfl
  | torn h => rw [ht] at h; cases h
  | later h => exact .inr ⟨_, rfl, h⟩

/-- A last token of one character is not there. -/
theorem eq_nil {t : Token} (ht : t.torn? = none) {ks : List Lexeme}
    (h : CutShort [.token t] ks) : ks = [] := by
  obtain rfl | ⟨js, -, hjs⟩ := h.cons_cases ht
  · rfl
  · cases hjs

/-- A token in front is that of the whole. -/
theorem head? {ls ks : List Lexeme} (h : CutShort ls ks) {t : Token}
    (hk : ks.head? = some (.token t)) : ls.head? = some (.token t) := by
  cases h with
  | nothing => cases hk
  | later h => exact hk
  | @torn u k _ hu => cases u <;> cases hu <;> cases hk

end CutShort

theorem Laid.cutShort {ts : List Token} {cs : List Char} (h : Laid ts cs) {p e : List Char}
    (hp : p ++ e = cs) (he : e ≠ []) : CutShort (ts.map Lexeme.token) (Lexeme.lexemes p) := by
  induction h generalizing p with
  | nil => exact absurd (List.append_eq_nil_iff.1 hp).2 he
  | @cons bs t ts cs hb ht _ ih =>
    -- The cut is in the blanks in front of the token, in the token or behind it.
    obtain ⟨bs', -, rfl⟩ | ⟨q, rfl, hq⟩ := cut_append hp
    · have hblank := Lexeme.lexemes_blanks (fun c hc => hb c (List.mem_append_left _ hc)) []
      rw [List.append_nil, Lexeme.lexemes_nil] at hblank
      rw [hblank]
      exact .nothing
    · rw [Lexeme.lexemes_blanks hb]
      obtain ⟨a, ha, hq⟩ | ⟨r, rfl, hr⟩ := cut_append hq
      · exact .of_write ht hq ha _
      · rw [Lexeme.lexemes_write_append (Token.sound_of_isNumber ht)
          (Token.endsBefore_of_isNumber ht r)]
        exact .later (ih hr)

/-! ## Trees that are cut -/

mutual

/-- The second node is the first one up to a place where the text breaks off. -/
inductive Node.Cut : Node → Node → Prop
  | missing {n : Node} : Node.Cut n (.missing .truncated)
  | list {ns ms : List Node} :
      ItemsCut ns ms → Node.Cut (.list ns none) (.list ms (some .truncated))
  | object {ms ks : List Member} :
      MembersCut ms ks → Node.Cut (.object ms none) (.object ks (some .truncated))

/-- The first items, and perhaps the next one up to some place. -/
inductive ItemsCut : List Node → List Node → Prop
  | ended {ns : List Node} : ItemsCut ns []
  | last {n m : Node} {ns : List Node} : n.Cut m → ItemsCut (n :: ns) [m]
  | later {n : Node} {ns ms : List Node} : ItemsCut ns ms → ItemsCut (n :: ns) (n :: ms)

inductive MembersCut : List Member → List Member → Prop
  | ended {ms : List Member} : MembersCut ms []
  | last {key : Option String} {n m : Node} {ms : List Member} :
      n.Cut m → MembersCut ((key, n) :: ms) [(key, m)]
  | later {m : Member} {ms ks : List Member} : MembersCut ms ks → MembersCut (m :: ms) (m :: ks)

end

/-! ## Reading what is cut short -/

namespace Reading

/-- If the text ends behind these lexemes, the node stands in the innermost frame of the stack, and
every frame is cut behind it. -/
def EndsAt (r : Reading) (ks : List Lexeme) (n : Node) (stack : List Frame) : Prop :=
  (r.run ks).finish = ⟨enclose .truncated n stack, false⟩

theorem EndsAt.in_list {r : Reading} {ks : List Lexeme} {n : Node} {items : List Node}
    {stack : List Frame} (h : r.EndsAt ks n (.list items :: stack)) :
    r.EndsAt ks (.list (items.reverse ++ [n]) (some .truncated)) stack := by
  rw [← List.reverse_cons]
  exact h

theorem EndsAt.in_object {r : Reading} {ks : List Lexeme} {n : Node} {members : List Member}
    {key : Option String} {stack : List Frame} (h : r.EndsAt ks n (.object members key :: stack)) :
    r.EndsAt ks (.object (members.reverse ++ [(key, n)]) (some .truncated)) stack := by
  rw [← List.reverse_cons]
  exact h

/-- Where a value has to stand, it is missing unless its first lexeme is there. -/
theorem value_endsAt {l : Lexeme} {ks : List Lexeme} (h : CutShort [l] ks) (stack : List Frame) :
    (value stack).EndsAt ks (.missing .truncated) stack := by
  cases h with
  | nothing => rfl
  | later h => cases h
  | @torn t _ _ ht => cases t <;> cases ht <;> rfl

/-- A key that breaks off leaves no member. -/
theorem nextKey_endsAt {key : Option String} {ks : List Lexeme}
    (h : CutShort [Node.textLexeme key] ks) (members : List Member) (stack : List Frame) :
    (nextKey members stack).EndsAt ks (.object members.reverse (some .truncated)) stack := by
  cases key with
  | none =>
    cases h with
    | nothing => rfl
    | later h => cases h
  | some s =>
    cases h with
    | nothing => rfl
    | torn ht => cases ht; rfl
    | later h => cases h

/-- Behind an opening brace the text goes on as behind a comma, unless the brace is closed. -/
theorem finish_firstKey {ks : List Lexeme} (h : ks.head? ≠ some (.token .closeObject))
    (stack : List Frame) :
    ((firstKey stack).run ks).finish = ((nextKey [] stack).run ks).finish := by
  match ks with
  | [] => rfl
  | .token .closeObject :: _ => exact absurd rfl h
  | .token .openList :: _ | .token .closeList :: _ | .token .openObject :: _
  | .token .comma :: _ | .token .colon :: _ | .token .null :: _ | .token (.bool _) :: _
  | .token (.number _) :: _ | .token (.text _) :: _ | .unpaired :: _ | .cutText _ :: _
  | .broken _ :: _ => rfl

theorem run_firstItem {k : Lexeme} (h : k ≠ .token .closeList) (stack : List Frame)
    (ks : List Lexeme) :
    (firstItem stack).run (k :: ks) = (value (.list [] :: stack)).run (k :: ks) := by
  rw [run_cons, run_cons, step, step]
  exact h

end Reading

namespace Node

open Reading (EndsAt)

/-- Wherever the node stands, it is cut where its lexemes are. -/
def ReadsCut (n : Node) : Prop :=
  ∀ ks stack, CutShort n.lexemes ks → ∃ m, n.Cut m ∧ (Reading.value stack).EndsAt ks m stack

/-- Behind other items. -/
def ItemsReadCut (ns : List Node) : Prop :=
  ∀ ks items stack, CutShort (itemLexemes ns ++ [.token .closeList]) ks →
    ∃ ms, ItemsCut ns ms ∧ (Reading.afterItem items stack).EndsAt ks
      (.list (items.reverse ++ ms) (some .truncated)) stack

/-- Behind other members. -/
def MembersReadCut (ms : List Member) : Prop :=
  ∀ ks members stack, CutShort (memberLexemes ms ++ [.token .closeObject]) ks →
    ∃ js, MembersCut ms js ∧ (Reading.afterMember members stack).EndsAt ks
      (.object (members.reverse ++ js) (some .truncated)) stack

theorem endsAt_lexemes {n m : Node} (h : n.Whole) {around stack : List Frame} {ks : List Lexeme}
    (hk : (Reading.deliver n around).EndsAt ks m stack) :
    (Reading.value around).EndsAt (n.lexemes ++ ks) m stack := by
  rw [EndsAt, run_lexemes n h]
  exact hk

/-- No node starts with a closing bracket. -/
theorem head?_lexemes_append (n : Node) (h : n.Whole) (ls : List Lexeme) :
    (n.lexemes ++ ls).head? ≠ some (.token .closeList) := by
  match n, h with
  | null, _ | bool _, _ | number _, _ | text (some _), _ | text none, _ => nofun
  | list [] _, _ | list (_ :: _) _, _ => nofun
  | object [] _, _ | object ((_, _) :: _) _, _ => nofun

theorem readsCut_single {n : Node} {l : Lexeme} (h : n.lexemes = [l]) : n.ReadsCut := by
  intro ks stack hks
  rw [h] at hks
  exact ⟨_, .missing, Reading.value_endsAt hks stack⟩

/-- An item that is wanted, and the items behind it. -/
theorem ReadsCut.items {n : Node} (h : n.ReadsCut) (hn : n.Whole) {more : List Node}
    (hmore : ItemsReadCut more) {ks : List Lexeme}
    (hks : CutShort (n.lexemes ++ (itemLexemes more ++ [.token .closeList])) ks)
    (items : List Node) (stack : List Frame) :
    ∃ ms, ItemsCut (n :: more) ms ∧ (Reading.value (.list items :: stack)).EndsAt ks
      (.list (items.reverse ++ ms) (some .truncated)) stack := by
  obtain hin | ⟨js, rfl, hbehind⟩ := hks.append_cases
  · obtain ⟨m, hm, hend⟩ := h ks (.list items :: stack) hin
    exact ⟨[m], .last hm, hend.in_list⟩
  · obtain ⟨ms, hms, hend⟩ := hmore js (n :: items) stack hbehind
    rw [List.reverse_cons, List.append_assoc, List.singleton_append] at hend
    exact ⟨n :: ms, .later hms, endsAt_lexemes hn hend⟩

/-- A member that is wanted, and the members behind it: the cut is in the key, in front of the
colon, in the value or behind it. -/
theorem ReadsCut.members {n : Node} (h : n.ReadsCut) (hn : n.Whole) {key : Option String}
    {more : List Member} (hmore : MembersReadCut more) {ks : List Lexeme}
    (hks : CutShort ([textLexeme key] ++ .token .colon ::
      (n.lexemes ++ (memberLexemes more ++ [.token .closeObject]))) ks)
    (members : List Member) (stack : List Frame) :
    ∃ js, MembersCut ((key, n) :: more) js ∧ (Reading.nextKey members stack).EndsAt ks
      (.object (members.reverse ++ js) (some .truncated)) stack := by
  obtain hkey | ⟨ks, rfl, hcolon⟩ := hks.append_cases
  · refine ⟨[], .ended, ?_⟩
    rw [List.append_nil]
    exact Reading.nextKey_endsAt hkey members stack
  have hread : ∀ ls m, (Reading.colon members key stack).EndsAt ls m stack →
      (Reading.nextKey members stack).EndsAt ([textLexeme key] ++ ls) m stack := by
    intro ls m hend
    rw [EndsAt, List.singleton_append, Reading.run_cons, Reading.step, stepKey_textLexeme]
    exact hend
  obtain rfl | ⟨ks, rfl, hvalue⟩ := hcolon.cons_cases rfl
  · have hmissing : (Reading.colon members key stack).EndsAt [] (.missing .truncated)
        (.object members key :: stack) := rfl
    exact ⟨[(key, .missing .truncated)], .last .missing, hread _ _ hmissing.in_object⟩
  obtain hin | ⟨js, rfl, hbehind⟩ := hvalue.append_cases
  · obtain ⟨m, hm, hend⟩ := h ks (.object members key :: stack) hin
    exact ⟨[(key, m)], .last hm, hread _ _ hend.in_object⟩
  · obtain ⟨ms, hms, hend⟩ := hmore js ((key, n) :: members) stack hbehind
    rw [List.reverse_cons, List.append_assoc, List.singleton_append] at hend
    exact ⟨(key, n) :: ms, .later hms, hread _ _ (endsAt_lexemes hn hend)⟩

theorem ReadsCut.list {n : Node} (h : n.ReadsCut) (hn : n.Whole) {more : List Node}
    (hmore : ItemsReadCut more) : ReadsCut (.list (n :: more) none) := by
  intro ks stack hks
  obtain rfl | ⟨ks, rfl, hitems⟩ := hks.cons_cases rfl
  · exact ⟨_, .missing, rfl⟩
  cases ks with
  | nil => exact ⟨_, .list .ended, rfl⟩
  | cons k ks =>
    -- A closing bracket here would end an empty list, which the reader takes for whole.
    have hk : k ≠ .token .closeList := by
      rintro rfl
      exact head?_lexemes_append n hn _ (hitems.head? rfl)
    obtain ⟨ms, hms, hend⟩ := h.items hn hmore hitems [] stack
    rw [EndsAt, ← Reading.run_firstItem hk] at hend
    exact ⟨_, .list hms, hend⟩

theorem ReadsCut.object {n : Node} (h : n.ReadsCut) (hn : n.Whole) {key : Option String}
    {more : List Member} (hmore : MembersReadCut more) :
    ReadsCut (.object ((key, n) :: more) none) := by
  intro ks stack hks
  obtain rfl | ⟨ks, rfl, hmembers⟩ := hks.cons_cases rfl
  · exact ⟨_, .missing, rfl⟩
  have hclose : ks.head? ≠ some (.token .closeObject) := by
    intro hk
    have hkey := hmembers.head? hk
    cases key <;> cases hkey
  obtain ⟨js, hjs, hend⟩ := h.members hn hmore hmembers [] stack
  rw [EndsAt, ← Reading.finish_firstKey hclose] at hend
  exact ⟨_, .object hjs, hend⟩

mutual

theorem readsCut_of_whole (n : Node) (h : n.Whole) : n.ReadsCut := by
  match n, h with
  | null, _ | bool _, _ | number _, _ | text _, _ => exact readsCut_single rfl
  | list [] _, ⟨rfl, _⟩ =>
    intro ks stack hks
    obtain rfl | ⟨js, rfl, hclose⟩ := hks.cons_cases rfl
    · exact ⟨_, .missing, rfl⟩
    · rw [hclose.eq_nil rfl]
      exact ⟨_, .list .ended, rfl⟩
  | object [] _, ⟨rfl, _⟩ =>
    intro ks stack hks
    obtain rfl | ⟨js, rfl, hclose⟩ := hks.cons_cases rfl
    · exact ⟨_, .missing, rfl⟩
    · rw [hclose.eq_nil rfl]
      exact ⟨_, .object .ended, rfl⟩
  | list (n :: more) _, ⟨rfl, hn, hmore⟩ =>
    exact (readsCut_of_whole n hn).list hn (itemsReadCut_of_whole more hmore)
  | object ((k, n) :: more) _, ⟨rfl, hn, hmore⟩ =>
    exact (readsCut_of_whole n hn).object hn (membersReadCut_of_whole more hmore)

theorem itemsReadCut_of_whole (ns : List Node) (h : ItemsWhole ns) : ItemsReadCut ns := by
  intro ks items stack hks
  have hended : (Reading.afterItem items stack).EndsAt []
      (.list (items.reverse ++ []) (some .truncated)) stack := by
    rw [List.append_nil]
    rfl
  match ns, h with
  | [], _ =>
    rw [CutShort.eq_nil rfl hks]
    exact ⟨[], .ended, hended⟩
  | n :: more, ⟨hn, hmore⟩ =>
    rw [itemLexemes, List.cons_append, List.append_assoc] at hks
    obtain rfl | ⟨js, rfl, hitems⟩ := hks.cons_cases rfl
    · exact ⟨[], .ended, hended⟩
    · exact (readsCut_of_whole n hn).items hn (itemsReadCut_of_whole more hmore) hitems items stack

theorem membersReadCut_of_whole (ms : List Member) (h : MembersWhole ms) : MembersReadCut ms := by
  intro ks members stack hks
  have hended : (Reading.afterMember members stack).EndsAt []
      (.object (members.reverse ++ []) (some .truncated)) stack := by
    rw [List.append_nil]
    rfl
  match ms, h with
  | [], _ =>
    rw [CutShort.eq_nil rfl hks]
    exact ⟨[], .ended, hended⟩
  | (key, n) :: more, ⟨hn, hmore⟩ =>
    rw [memberLexemes] at hks
    simp only [List.cons_append, List.append_assoc] at hks
    obtain rfl | ⟨js, rfl, hmembers⟩ := hks.cons_cases rfl
    · exact ⟨[], .ended, hended⟩
    · exact (readsCut_of_whole n hn).members hn (membersReadCut_of_whole more hmore) hmembers
        members stack

end

theorem ofLexemes_of_cutShort {n : Node} (h : n.Whole) {ks : List Lexeme}
    (hks : CutShort n.lexemes ks) : ∃ m, n.Cut m ∧ Document.ofLexemes ks = ⟨m, false⟩ :=
  readsCut_of_whole n h ks [] hks

end Node

/-- Every part in front of the end of a text has the tree of the value, cut. -/
theorem Value.ofChars_of_prefix {v : Value} {p e : List Char} (h : Laid v.tokens (p ++ e))
    (he : e ≠ []) : ∃ m, v.node.Cut m ∧ Document.ofChars p = ⟨m, false⟩ := by
  have hks := h.cutShort rfl he
  rw [← lexemes_node] at hks
  exact Node.ofLexemes_of_cutShort v.whole_node hks

end MotorSketch.Json
