import MotorSketch.Proofs.Json.Spelling

/-!
# Trees of written texts

A node that is cut nowhere has lexemes, and reading them gives the node back at every place where a
value may stand.  So any text that spells a whole node has it as its tree and nothing behind it.
The tokens of a value are the lexemes of its tree, and both layouts of a value without numbers
spell them.

    n.Whole → (Reading.value stack).run (n.lexemes ++ ls) = (Reading.deliver n stack).run ls
                                                                                     (run_lexemes)
    n.Whole → Spells n.lexemes cs → Document.ofChars cs = ⟨n, false⟩           (ofChars_of_spells)
    v.node.lexemes = v.tokens.map Lexeme.token                                      (lexemes_node)
    v.NumberFree → Value.parse? v.compact = some v, and so v.pretty   (parse?_compact, parse?_pretty)
-/

namespace MotorSketch.Json

namespace Node

/-! ## Whole nodes -/

mutual

/-- Nothing is cut or missing. -/
def Whole : Node → Prop
  | list items cut => cut = none ∧ ItemsWhole items
  | object members cut => cut = none ∧ MembersWhole members
  | missing _ => False
  | _ => True

def ItemsWhole : List Node → Prop
  | [] => True
  | n :: more => Whole n ∧ ItemsWhole more

def MembersWhole : List Member → Prop
  | [] => True
  | (_, n) :: more => Whole n ∧ MembersWhole more

end

/-! ## Lexemes -/

def textLexeme : Option String → Lexeme
  | some s => .token (.text s)
  | none => .unpaired

mutual

/-- The lexemes as which a whole node is written. -/
def lexemes : Node → List Lexeme
  | null => [.token .null]
  | bool b => [.token (.bool b)]
  | number n => [.token (.number n)]
  | text s => [textLexeme s]
  | list [] _ => [.token .openList, .token .closeList]
  | list (n :: more) _ =>
    .token .openList :: (lexemes n ++ (itemLexemes more ++ [.token .closeList]))
  | object [] _ => [.token .openObject, .token .closeObject]
  | object ((k, n) :: more) _ =>
    .token .openObject :: textLexeme k :: .token .colon ::
      (lexemes n ++ (memberLexemes more ++ [.token .closeObject]))
  | missing _ => []

/-- Behind other items. -/
def itemLexemes : List Node → List Lexeme
  | [] => []
  | n :: more => .token .comma :: (lexemes n ++ itemLexemes more)

/-- Behind other members. -/
def memberLexemes : List Member → List Lexeme
  | [] => []
  | (k, n) :: more =>
    .token .comma :: textLexeme k :: .token .colon :: (lexemes n ++ memberLexemes more)

end

/-! ## Reading lexemes -/

theorem stepKey_textLexeme (members : List Member) (stack : List Frame) (key : Option String) :
    Reading.stepKey members stack (textLexeme key) = .colon members key stack := by
  cases key <;> rfl

theorem step_firstKey_textLexeme (stack : List Frame) (key : Option String) :
    (Reading.firstKey stack).step (textLexeme key) = .colon [] key stack := by
  cases key <;> rfl

/-- No node starts with a closing bracket. -/
theorem run_firstItem_lexemes (n : Node) (h : n.Whole) (stack : List Frame) (ls : List Lexeme) :
    (Reading.firstItem stack).run (n.lexemes ++ ls) =
      (Reading.value (.list [] :: stack)).run (n.lexemes ++ ls) := by
  match n, h with
  | null, _ | bool _, _ | number _, _ | text (some _), _ | text none, _ => rfl
  | list [] _, _ | list (_ :: _) _, _ => rfl
  | object [] _, _ | object ((_, _) :: _) _, _ => rfl

mutual

theorem run_lexemes (n : Node) (h : n.Whole) (stack : List Frame) (ls : List Lexeme) :
    (Reading.value stack).run (n.lexemes ++ ls) = (Reading.deliver n stack).run ls := by
  match n, h with
  | null, _ | bool _, _ | number _, _ | text (some _), _ | text none, _ => rfl
  | list [] _, ⟨rfl, _⟩ => rfl
  | object [] _, ⟨rfl, _⟩ => rfl
  | list (n :: more) _, ⟨rfl, hn, hmore⟩ =>
    rw [lexemes]
    simp only [List.cons_append, List.append_assoc, List.nil_append]
    rw [Reading.run_cons]
    show (Reading.firstItem stack).run _ = _
    rw [run_firstItem_lexemes n hn, run_lexemes n hn]
    exact run_itemLexemes more hmore [n] stack ls
  | object ((k, n) :: more) _, ⟨rfl, hn, hmore⟩ =>
    rw [lexemes]
    simp only [List.cons_append, List.append_assoc, List.nil_append]
    rw [Reading.run_cons, Reading.run_cons, Reading.run_cons]
    show (((Reading.firstKey stack).step (textLexeme k)).step (.token .colon)).run _ = _
    rw [step_firstKey_textLexeme]
    show (Reading.value (.object [] k :: stack)).run _ = _
    rw [run_lexemes n hn]
    exact run_memberLexemes more hmore [(k, n)] stack ls

/-- Behind some items, which are kept last one first. -/
theorem run_itemLexemes (ns : List Node) (h : ItemsWhole ns) (items : List Node)
    (stack : List Frame) (ls : List Lexeme) :
    (Reading.afterItem items stack).run (itemLexemes ns ++ .token .closeList :: ls) =
      (Reading.deliver (.list (items.reverse ++ ns) none) stack).run ls := by
  match ns, h with
  | [], _ =>
    rw [List.append_nil]
    rfl
  | n :: more, ⟨hn, hmore⟩ =>
    rw [itemLexemes]
    simp only [List.cons_append, List.append_assoc]
    rw [Reading.run_cons]
    show (Reading.value (.list items :: stack)).run _ = _
    rw [run_lexemes n hn]
    have := run_itemLexemes more hmore (n :: items) stack ls
    rwa [List.reverse_cons, List.append_assoc, List.singleton_append] at this

theorem run_memberLexemes (ms : List Member) (h : MembersWhole ms) (members : List Member)
    (stack : List Frame) (ls : List Lexeme) :
    (Reading.afterMember members stack).run (memberLexemes ms ++ .token .closeObject :: ls) =
      (Reading.deliver (.object (members.reverse ++ ms) none) stack).run ls := by
  match ms, h with
  | [], _ =>
    rw [List.append_nil]
    rfl
  | (k, n) :: more, ⟨hn, hmore⟩ =>
    rw [memberLexemes]
    simp only [List.cons_append, List.append_assoc]
    rw [Reading.run_cons, Reading.run_cons, Reading.run_cons]
    show ((Reading.stepKey members stack (textLexeme k)).step (.token .colon)).run _ = _
    rw [stepKey_textLexeme]
    show (Reading.value (.object members k :: stack)).run _ = _
    rw [run_lexemes n hn]
    have := run_memberLexemes more hmore ((k, n) :: members) stack ls
    rwa [List.reverse_cons, List.append_assoc, List.singleton_append] at this

end

theorem ofChars_of_spells {n : Node} (h : n.Whole) {cs : List Char} (hs : Spells n.lexemes cs) :
    Document.ofChars cs = ⟨n, false⟩ := by
  have hrun := run_lexemes n h [] []
  rw [List.append_nil] at hrun
  rw [Document.ofChars, Lexeme.lexemes_of_spells hs, Document.ofLexemes, hrun]
  rfl

end Node

namespace Value

/-! ## Trees of values -/

mutual

/-- The tree as which the value is read. -/
def node : Value → Node
  | null => .null
  | bool b => .bool b
  | number n => .number n
  | text s => .text (some s)
  | list items => .list (itemNodes items) none
  | object members => .object (memberNodes members) none

def itemNodes : List Value → List Node
  | [] => []
  | v :: more => node v :: itemNodes more

def memberNodes : List (String × Value) → List Member
  | [] => []
  | (k, v) :: more => (some k, node v) :: memberNodes more

end

mutual

theorem whole_node (v : Value) : v.node.Whole := by
  match v with
  | null | bool _ | number _ | text _ => trivial
  | list items => exact ⟨rfl, whole_itemNodes items⟩
  | object members => exact ⟨rfl, whole_memberNodes members⟩

theorem whole_itemNodes (vs : List Value) : Node.ItemsWhole (itemNodes vs) := by
  match vs with
  | [] => trivial
  | v :: more => exact ⟨whole_node v, whole_itemNodes more⟩

theorem whole_memberNodes (ms : List (String × Value)) :
    Node.MembersWhole (memberNodes ms) := by
  match ms with
  | [] => trivial
  | (_, v) :: more => exact ⟨whole_node v, whole_memberNodes more⟩

end

mutual

theorem lexemes_node (v : Value) : v.node.lexemes = v.tokens.map Lexeme.token := by
  match v with
  | null | bool _ | number _ | text _ => rfl
  | list [] => rfl
  | object [] => rfl
  | list (v :: more) =>
    rw [node, itemNodes, Node.lexemes, tokens, lexemes_node v, itemLexemes_itemNodes more]
    simp
  | object ((k, v) :: more) =>
    rw [node, memberNodes, Node.lexemes, tokens, lexemes_node v, memberLexemes_memberNodes more]
    simp [Node.textLexeme]

theorem itemLexemes_itemNodes (vs : List Value) :
    Node.itemLexemes (itemNodes vs) = (itemTokens vs).map Lexeme.token := by
  match vs with
  | [] => rfl
  | v :: more =>
    rw [itemNodes, Node.itemLexemes, itemTokens, lexemes_node v, itemLexemes_itemNodes more]
    simp

theorem memberLexemes_memberNodes (ms : List (String × Value)) :
    Node.memberLexemes (memberNodes ms) = (memberTokens ms).map Lexeme.token := by
  match ms with
  | [] => rfl
  | (k, v) :: more =>
    rw [memberNodes, Node.memberLexemes, memberTokens, lexemes_node v,
      memberLexemes_memberNodes more]
    simp [Node.textLexeme]

end

/-! ## Values without numbers -/

mutual

def NumberFree : Value → Prop
  | null => True
  | bool _ => True
  | number _ => False
  | text _ => True
  | list items => ItemsNumberFree items
  | object members => MembersNumberFree members

def ItemsNumberFree : List Value → Prop
  | [] => True
  | v :: more => NumberFree v ∧ ItemsNumberFree more

def MembersNumberFree : List (String × Value) → Prop
  | [] => True
  | (_, v) :: more => NumberFree v ∧ MembersNumberFree more

end

theorem membersNumberFree_iff {ms : List (String × Value)} :
    MembersNumberFree ms ↔ ∀ m ∈ ms, m.2.NumberFree := by
  induction ms with
  | nil => simp [MembersNumberFree]
  | cons m ms ih => simp [MembersNumberFree, ih]

theorem numberFree_textMap (es : List (String × String)) :
    (textMap es).NumberFree := by
  show MembersNumberFree _
  rw [membersNumberFree_iff]
  intro m hm
  obtain ⟨e, -, rfl⟩ := List.mem_map.1 hm
  trivial

mutual

theorem isNumber_of_mem_tokens (v : Value) (h : v.NumberFree) :
    ∀ t ∈ v.tokens, t.isNumber = false := by
  match v with
  | null | bool _ | text _ | list [] | object [] => simp [tokens, Token.isNumber]
  | list (v :: more) =>
    have hv := isNumber_of_mem_tokens v h.1
    have hm := isNumber_of_mem_itemTokens more h.2
    intro t ht
    simp only [tokens, List.mem_cons, List.mem_append, List.not_mem_nil, or_false] at ht
    rcases ht with rfl | (ht | ht) | rfl
    · rfl
    · exact hv t ht
    · exact hm t ht
    · rfl
  | object ((_, v) :: more) =>
    have hv := isNumber_of_mem_tokens v h.1
    have hm := isNumber_of_mem_memberTokens more h.2
    intro t ht
    simp only [tokens, List.mem_cons, List.mem_append, List.not_mem_nil, or_false] at ht
    rcases ht with rfl | rfl | rfl | (ht | ht) | rfl
    · rfl
    · rfl
    · rfl
    · exact hv t ht
    · exact hm t ht
    · rfl

theorem isNumber_of_mem_itemTokens (vs : List Value) (h : ItemsNumberFree vs) :
    ∀ t ∈ itemTokens vs, t.isNumber = false := by
  match vs with
  | [] => simp [itemTokens]
  | v :: more =>
    have hv := isNumber_of_mem_tokens v h.1
    have hm := isNumber_of_mem_itemTokens more h.2
    intro t ht
    simp only [itemTokens, List.mem_cons, List.mem_append] at ht
    rcases ht with rfl | ht | ht
    · rfl
    · exact hv t ht
    · exact hm t ht

theorem isNumber_of_mem_memberTokens (ms : List (String × Value)) (h : MembersNumberFree ms) :
    ∀ t ∈ memberTokens ms, t.isNumber = false := by
  match ms with
  | [] => simp [memberTokens]
  | (_, v) :: more =>
    have hv := isNumber_of_mem_tokens v h.1
    have hm := isNumber_of_mem_memberTokens more h.2
    intro t ht
    simp only [memberTokens, List.mem_cons, List.mem_append] at ht
    rcases ht with rfl | rfl | rfl | ht | ht
    · rfl
    · rfl
    · rfl
    · exact hv t ht
    · exact hm t ht

end

theorem getLast?_tokens (v : Value) : ∀ t ∈ v.tokens.getLast?, t.wantsMore = false := by
  match v with
  | null | bool _ | number _ | text _ => simp [tokens, Token.wantsMore]
  | list [] | list (_ :: _) => simp [tokens, List.getLast?_cons, Token.wantsMore]
  | object [] | object ((_, _) :: _) => simp [tokens, List.getLast?_cons, Token.wantsMore]

/-- Both layouts write the tokens of a value without numbers. -/
theorem laid_compact {v : Value} (h : v.NumberFree) : Laid v.tokens v.compact.toList := by
  rw [compact, String.toList_ofList]
  exact Json.laid_compact (isNumber_of_mem_tokens v h)

theorem laid_pretty {v : Value} (h : v.NumberFree) : Laid v.tokens v.pretty.toList := by
  rw [pretty, String.toList_ofList]
  exact laid_lines 0 ⟨isNumber_of_mem_tokens v h, getLast?_tokens v⟩

theorem ofChars_of_laid {v : Value} {cs : List Char} (h : Laid v.tokens cs) :
    Document.ofChars cs = ⟨v.node, false⟩ := by
  have hs := h.spells
  rw [← lexemes_node] at hs
  exact Node.ofChars_of_spells v.whole_node hs

/-- Both layouts of a value without numbers have its tree. -/
theorem ofChars_compact {v : Value} (h : v.NumberFree) :
    Document.ofChars v.compact.toList = ⟨v.node, false⟩ :=
  ofChars_of_laid (laid_compact h)

theorem ofChars_pretty {v : Value} (h : v.NumberFree) :
    Document.ofChars v.pretty.toList = ⟨v.node, false⟩ :=
  ofChars_of_laid (laid_pretty h)

/-! ## Reading values -/

mutual

theorem ofNode?_node (v : Value) : ofNode? v.node = some v := by
  match v with
  | null | bool _ | number _ | text _ => rfl
  | list items =>
    rw [node, ofNode?, ofItems?_itemNodes items]
    rfl
  | object members =>
    rw [node, ofNode?, ofMembers?_memberNodes members]
    rfl

theorem ofItems?_itemNodes (vs : List Value) : ofItems? (itemNodes vs) = some vs := by
  match vs with
  | [] => rfl
  | v :: more => rw [itemNodes, ofItems?, ofNode?_node v, ofItems?_itemNodes more]

theorem ofMembers?_memberNodes (ms : List (String × Value)) :
    ofMembers? (memberNodes ms) = some ms := by
  match ms with
  | [] => rfl
  | (k, v) :: more => rw [memberNodes, ofMembers?, ofNode?_node v, ofMembers?_memberNodes more]

end

theorem parse?_compact {v : Value} (h : v.NumberFree) : parse? v.compact = some v := by
  rw [parse?, ofChars_compact h]
  exact ofNode?_node v

theorem parse?_pretty {v : Value} (h : v.NumberFree) : parse? v.pretty = some v := by
  rw [parse?, ofChars_pretty h]
  exact ofNode?_node v

end Value

end MotorSketch.Json
