import MotorSketch.Proofs.Formula
import MotorSketch.Proofs.Text.CLiteral

/-!
# Reading formulas back

The code of a formula is read from the front: an opening bracket, alone or behind the name of the
power function, starts an operation on two formulas; anything else is literals or an atom.  The
brackets are complete, so no precedence is needed, and a name that no bracket follows is an atom
even if it is the name of the function.

    f.Readable → Ends rest → read (f.code.toList ++ rest) = some (f, rest)               (read_code)
    f.Readable → ofCode? f.code = some f                                             (ofCode?_code)
-/

namespace MotorSketch

/-! ## Algorithm -/

/-- The sign between two operands. -/
def Operator.ofSign? : Char → Option Operator
  | '+' => some .add
  | '-' => some .minus
  | '*' => some .multiply
  | '/' => some .divide
  | _ => none

namespace Formula

/-- What is left of a text behind something that was read. -/
abbrev Rest (s : List Char) : Type := { rest : List Char // rest.length < s.length }

/-- No blank, bracket, comma or quote. -/
def isAtomChar (c : Char) : Bool :=
  !Text.isBlank c && c != '(' && c != ')' && c != ',' && c != '"'

/-- The word at the front, which may be empty, and what follows it. -/
def word (s : List Char) : List Char × List Char := (s.takeWhile isAtomChar, s.dropWhile isAtomChar)

theorem append_of_word {s w rest : List Char} (h : word s = (w, rest)) : w ++ rest = s := by
  cases h
  exact List.takeWhile_append_dropWhile

theorem length_lt_append_cons (w : List Char) (c : Char) (rest : List Char) :
    rest.length < (w ++ c :: rest).length := by
  rw [List.length_append, List.length_cons]
  omega

/-- What follows a character behind a word is shorter than the text. -/
theorem length_lt_of_word {s w rest : List Char} {c : Char} (h : word s = (w, c :: rest)) :
    rest.length < s.length := by
  rw [← append_of_word h]
  exact length_lt_append_cons w c rest

/-- What follows a word that is not empty is shorter than the text. -/
theorem length_lt_of_word_cons {s w rest : List Char} {c : Char} (h : word s = (c :: w, rest)) :
    rest.length < s.length := by
  rw [← append_of_word h, List.length_append, List.length_cons]
  omega

/-- Reads an opening bracket, and tells whether it belongs to a call of the power function. -/
def readOpening (s : List Char) : Option (Bool × Rest s) :=
  match h : word s with
  | ([], '(' :: rest) => some (false, ⟨rest, length_lt_of_word h⟩)
  | (['p', 'o', 'w'], '(' :: rest) => some (true, ⟨rest, length_lt_of_word h⟩)
  | _ => none

/-- Reads what stands between two operands: a comma in a call, otherwise a sign. -/
def readSeparator (call : Bool) (s : List Char) : Option (Operator × Rest s) :=
  match call, s with
  | true, ',' :: ' ' :: rest => some (.power, ⟨rest, length_lt_append_cons [','] ..⟩)
  | false, ' ' :: c :: ' ' :: rest =>
    (Operator.ofSign? c).map fun o => (o, ⟨rest, length_lt_append_cons [' ', c] ..⟩)
  | _, _ => none

def readClosing (s : List Char) : Option (Rest s) :=
  match s with
  | ')' :: rest => some ⟨rest, Nat.lt_succ_self _⟩
  | _ => none

def readText (s : List Char) : Option (Formula × Rest s) :=
  match h : Text.readLiterals s with
  | some (cs, rest) => some (.text (String.ofList cs), ⟨rest, Text.length_of_readLiterals h⟩)
  | none => none

def readAtom (s : List Char) : Option (Formula × Rest s) :=
  match h : word s with
  | ([], _) => none
  | (c :: cs, rest) => some (.atom (String.ofList (c :: cs)), ⟨rest, length_lt_of_word_cons h⟩)

/-- Reads a formula at the front of a text. -/
def read (s : List Char) : Option (Formula × Rest s) :=
  match readOpening s with
  | some (call, ⟨s₁, h₁⟩) => do
    let (a, ⟨s₂, h₂⟩) ← read s₁
    let (o, ⟨s₃, h₃⟩) ← readSeparator call s₂
    let (b, ⟨s₄, h₄⟩) ← read s₃
    let ⟨s₅, h₅⟩ ← readClosing s₄
    return (.binary o a b, ⟨s₅, by omega⟩)
  | none => (readText s).or (readAtom s)
termination_by s.length

/-- The formula whose code is the whole text. -/
def ofCode? (s : String) : Option Formula :=
  match read s.toList with
  | some (f, ⟨[], _⟩) => some f
  | _ => none

/-! ## Readable formulas -/

/-- The atoms are not empty, and no character in them is a blank, a bracket, a comma or a quote. -/
def Readable : Formula → Prop
  | atom s => s ≠ "" ∧ ∀ c ∈ s.toList, isAtomChar c
  | text _ => True
  | binary _ a b => a.Readable ∧ b.Readable

/-- What may follow a formula in the code of another one, or nothing. -/
def Ends (rest : List Char) : Prop :=
  ∀ c ∈ rest.head?, isAtomChar c = false ∧ c ≠ '(' ∧ c ≠ '"'

end Formula

namespace Operator

/-- What stands in front of the operands. -/
def opening (o : Operator) : List Char := if o.sign?.isNone then ['p', 'o', 'w', '('] else ['(']

/-- What stands between the operands. -/
def separator (o : Operator) : List Char :=
  match o.sign? with
  | some sign => ' ' :: (sign.toList ++ [' '])
  | none => [',', ' ']

end Operator

namespace Formula

theorem toList_code_binary (o : Operator) (a b : Formula) :
    (binary o a b).code.toList =
      o.opening ++ (a.code.toList ++ (o.separator ++ (b.code.toList ++ [')']))) := by
  cases o <;> simp [code, Operator.opening, Operator.separator, Operator.sign?]

/-! ## Lemmas -/

theorem word_append {cs rest : List Char} (hcs : ∀ c ∈ cs, isAtomChar c)
    (hrest : ∀ c ∈ rest.head?, isAtomChar c = false) :
    word (cs ++ rest) = (cs, rest) := by
  rw [word, Text.takeWhile_append_of_head? hcs hrest, Text.dropWhile_append_of_head? hcs hrest]

theorem readOpening_opening (o : Operator) (s : List Char) :
    ∃ h, readOpening (o.opening ++ s) = some (o.sign?.isNone, ⟨s, h⟩) := by
  cases o <;> exact ⟨_, rfl⟩

theorem readSeparator_separator (o : Operator) (s : List Char) :
    ∃ h, readSeparator o.sign?.isNone (o.separator ++ s) = some (o, ⟨s, h⟩) := by
  cases o <;> exact ⟨_, rfl⟩

theorem ends_separator (o : Operator) (s : List Char) : Ends (o.separator ++ s) := by
  cases o <;> (intro c hc; cases hc; decide)

theorem ends_closing (s : List Char) : Ends (')' :: s) := by
  intro c hc
  cases hc
  decide

/-- A word that no bracket follows opens nothing. -/
theorem readOpening_word {cs rest : List Char} (hcs : ∀ c ∈ cs, isAtomChar c)
    (hrest : ∀ c ∈ rest.head?, isAtomChar c = false ∧ c ≠ '(') :
    readOpening (cs ++ rest) = none := by
  have hopen : ∀ r, rest ≠ '(' :: r := by
    rintro r rfl
    exact (hrest '(' rfl).2 rfl
  have hword := word_append hcs fun c hc => (hrest c hc).1
  unfold readOpening
  split
  · next r h =>
    rw [hword] at h
    exact absurd (congrArg Prod.snd h) (hopen r)
  · next r h =>
    rw [hword] at h
    exact absurd (congrArg Prod.snd h) (hopen r)
  · rfl

theorem readText_cLiteral (s : String) {rest : List Char} (hrest : Ends rest) :
    ∃ h, readText ((Text.cLiteral s).toList ++ rest) = some (text s, ⟨rest, h⟩) := by
  have hquote : rest.head? ≠ some '"' := fun h => (hrest '"' h).2.2 rfl
  have hread := Text.readLiterals_cLiteralChars s.toList hquote
  rw [← Text.toList_cLiteral] at hread
  refine ⟨Text.length_of_readLiterals hread, ?_⟩
  unfold readText
  split
  · next cs rest' h =>
    rw [hread] at h
    cases h
    rw [String.ofList_toList]
  · next h =>
    rw [hread] at h
    cases h

theorem readText_of_ne {c : Char} (hc : c ≠ '"') (s : List Char) : readText (c :: s) = none := by
  have hnone : Text.readLiterals (c :: s) = none := by
    rw [Text.readLiterals]
    rintro rest he
    exact hc (List.cons.inj he).1
  unfold readText
  split
  · next h =>
    rw [hnone] at h
    cases h
  · rfl

theorem readAtom_cons {c : Char} {cs rest : List Char} (hcs : ∀ d ∈ c :: cs, isAtomChar d)
    (hrest : Ends rest) :
    ∃ h, readAtom (c :: cs ++ rest) = some (atom (String.ofList (c :: cs)), ⟨rest, h⟩) := by
  have hword := word_append hcs fun d hd => (hrest d hd).1
  refine ⟨length_lt_of_word_cons hword, ?_⟩
  unfold readAtom
  split
  · next h =>
    rw [hword] at h
    cases h
  · next h =>
    rw [hword] at h
    cases h
    rfl

/-- The code of a formula is read as this formula, up to where it ends.  An operand ends where the
separator or the closing bracket starts, which is what the induction asks of the rest. -/
theorem read_code {f : Formula} (hf : f.Readable) {rest : List Char} (hrest : Ends rest) :
    ∃ h, read (f.code.toList ++ rest) = some (f, ⟨rest, h⟩) := by
  induction f generalizing rest with
  | atom s =>
    obtain ⟨c, cs, hs⟩ : ∃ c cs, s.toList = c :: cs :=
      List.exists_cons_of_ne_nil fun h => hf.1 (String.toList_inj.1 h)
    have hcs : ∀ d ∈ c :: cs, isAtomChar d := hs ▸ hf.2
    have hquote : c ≠ '"' := by
      rintro rfl
      exact absurd (hcs '"' List.mem_cons_self) (by decide)
    -- No bracket follows the atom, so it is no call even if it is the name of the function.
    have hopening := readOpening_word hcs fun d hd => ⟨(hrest d hd).1, (hrest d hd).2.1⟩
    obtain ⟨h, hatom⟩ := readAtom_cons hcs hrest
    have hcode : (atom s).code.toList = c :: cs := hs
    rw [hcode, read, hopening]
    refine ⟨h, ?_⟩
    show ((readText (c :: (cs ++ rest))).or _) = _
    rw [readText_of_ne hquote, Option.none_or, ← String.ofList_toList (s := s), hs]
    exact hatom
  | text s =>
    obtain ⟨h, htext⟩ := readText_cLiteral s hrest
    -- The word in front of the quote is empty.
    have hopening : readOpening ([] ++ ((Text.cLiteral s).toList ++ rest)) = none := by
      refine readOpening_word (by simp) ?_
      intro c hc
      rw [Text.toList_cLiteral] at hc
      cases hc
      decide
    rw [List.nil_append] at hopening
    refine ⟨h, ?_⟩
    show read ((Text.cLiteral s).toList ++ rest) = _
    rw [read, hopening]
    show ((readText _).or _) = _
    rw [htext]
    rfl
  | binary o a b iha ihb =>
    have hcode : (binary o a b).code.toList ++ rest =
        o.opening ++ (a.code.toList ++ (o.separator ++ (b.code.toList ++ ')' :: rest))) := by
      rw [toList_code_binary]
      simp
    obtain ⟨h₁, hopening⟩ := readOpening_opening o
      (a.code.toList ++ (o.separator ++ (b.code.toList ++ ')' :: rest)))
    obtain ⟨h₂, hleft⟩ := iha hf.1 (ends_separator o (b.code.toList ++ ')' :: rest))
    obtain ⟨h₃, hseparator⟩ := readSeparator_separator o (b.code.toList ++ ')' :: rest)
    obtain ⟨h₄, hright⟩ := ihb hf.2 (ends_closing rest)
    have h₅ : rest.length < (')' :: rest).length := Nat.lt_succ_self _
    rw [hcode, read, hopening]
    refine ⟨by omega, ?_⟩
    simp [hleft, hseparator, hright, readClosing]

theorem ofCode?_code {f : Formula} (hf : f.Readable) : ofCode? f.code = some f := by
  have hends : Ends [] := by
    intro c hc
    cases hc
  have hwhole := read_code hf hends
  rw [List.append_nil] at hwhole
  obtain ⟨h, hread⟩ := hwhole
  rw [ofCode?, hread]

end Formula

end MotorSketch
