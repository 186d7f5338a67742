import MotorSketch.Json.Layout
import MotorSketch.Proofs.Json.Literal

/-!
# Spellings of lexemes

A text spells a sequence of lexemes if it writes them in order, with blanks wherever they are
wanted, any of the escapes within a text and nothing behind a number that would make it longer.
Such a text is cut into exactly these lexemes.  Both layouts of a value without numbers are such
texts, with the short escapes and with blanks in front of tokens only.

    Spells ls cs → Lexeme.lexemes cs = ls                                      (lexemes_of_spells)
    Laid ts cs → Spells (ts.map Lexeme.token) cs                                     (Laid.spells)
    Laid ts (Layout.compact ts), and so Layout.lines depth ts, without numbers
                                                                       (laid_compact, laid_lines)
-/

namespace MotorSketch.Json

namespace Token

def isNumber : Token → Bool
  | number _ => true
  | _ => false

/-- A number is written in the form of a number. -/
def Sound (t : Token) : Prop := ∀ n, t = number n → n.WellFormed

/-- The token does not go on into the text. -/
def EndsBefore (t : Token) (cs : List Char) : Prop :=
  ∀ n, t = number n → ∀ c ∈ cs.head?, Numeral.continues c = false

theorem sound_of_isNumber {t : Token} (h : t.isNumber = false) : t.Sound := by
  rintro n rfl
  cases h

theorem endsBefore_of_isNumber {t : Token} (h : t.isNumber = false) (cs : List Char) :
    t.EndsBefore cs := by
  rintro n rfl
  cases h

end Token

/-- The lexeme of a complete text. -/
def Lexeme.ofPieces (ps : List Literal.Piece) : Lexeme :=
  match Literal.decode ps none with
  | .ok content => .token (.text (String.ofList content))
  | .error _ => .unpaired

/-- The text writes the lexemes in order, with any blanks around them. -/
inductive Spells : List Lexeme → List Char → Prop
  | nil : Spells [] []
  | blank {c : Char} {ls : List Lexeme} {cs : List Char} :
      Lexeme.isBlank c = true → Spells ls cs → Spells ls (c :: cs)
  | token {t : Token} {ls : List Lexeme} {cs : List Char} :
      t.Sound → t.EndsBefore cs → Spells ls cs → Spells (.token t :: ls) (t.write ++ cs)
  | text {ps : List Literal.Piece} {body : List Char} {ls : List Lexeme} {cs : List Char} :
      Literal.Spells ps body → Spells ls cs →
        Spells (.ofPieces ps :: ls) ('"' :: (body ++ '"' :: cs))

/-! ## Cutting -/

namespace Lexeme

theorem ofLiteral_complete (ps : List Literal.Piece) (rest : List Char) :
    ofLiteral ⟨ps, none, rest⟩ = (ofPieces ps, rest) := by
  unfold ofLiteral ofPieces
  cases Literal.decode ps none <;> rfl

theorem next_text (s : String) (cs : List Char) :
    next '"' (Literal.body s.toList ++ '"' :: cs) = (.token (.text s), cs) := by
  show ofLiteral (Literal.scan (Literal.body s.toList ++ '"' :: cs)) = _
  rw [Literal.scan_body, ofLiteral, Literal.decode_map_piece]
  simp

theorem next_spelled {ps : List Literal.Piece} {body : List Char} (h : Literal.Spells ps body)
    (cs : List Char) : next '"' (body ++ '"' :: cs) = (ofPieces ps, cs) := by
  show ofLiteral (Literal.scan (body ++ '"' :: cs)) = _
  rw [Literal.scan_of_spells h, ofLiteral_complete]

/-- A character that starts a number starts no other token. -/
theorem next_of_number {c : Char} (h : c = '-' ∨ c.isDigit) (cs : List Char) :
    next c cs = ofNumber (Numeral.scan (c :: cs)) := by
  unfold next
  split
  case h_11 => rw [if_pos h]
  all_goals
    rcases h with h | h
    · cases h
    · exact absurd h (by decide)

theorem isBlank_of_number {c : Char} (h : c = '-' ∨ c.isDigit) : isBlank c = false := by
  rw [isBlank]
  rcases h with rfl | h
  · rfl
  · have hc : c ≠ ' ' ∧ c ≠ '\t' ∧ c ≠ '\n' ∧ c ≠ '\r' := by
      refine ⟨?_, ?_, ?_, ?_⟩ <;>
        · rintro rfl
          exact absurd h (by decide)
    simp [hc]

theorem head_text {n : Numeral} (h : n.WellFormed) :
    ∃ c cs, n.text = c :: cs ∧ (c = '-' ∨ c.isDigit) := by
  obtain ⟨d, ds, hd⟩ := List.exists_cons_of_ne_nil h.whole_ne_nil
  have hdigit : d.isDigit := h.whole_digits d (by simp [hd])
  unfold Numeral.text
  rw [hd]
  cases n.negative with
  | true => exact ⟨_, _, rfl, .inl rfl⟩
  | false => exact ⟨_, _, rfl, .inr hdigit⟩

theorem lexemes_number {n : Numeral} (h : n.WellFormed) {cs : List Char}
    (hcs : ∀ c ∈ cs.head?, Numeral.continues c = false) :
    lexemes (n.text ++ cs) = .token (.number n) :: lexemes cs := by
  obtain ⟨c, text, ht, hc⟩ := head_text h
  have hscan := Numeral.scan_text_append h hcs
  rw [ht, List.cons_append] at hscan ⊢
  rw [lexemes_cons (isBlank_of_number hc), next_of_number hc, hscan]
  rfl

theorem lexemes_write_append {t : Token} (ht : t.Sound) {cs : List Char} (hcs : t.EndsBefore cs) :
    lexemes (t.write ++ cs) = .token t :: lexemes cs := by
  cases t with
  | number n => exact lexemes_number (ht n rfl) (hcs n rfl)
  | text s =>
    show lexemes ('"' :: (Literal.body s.toList ++ ['"'] ++ cs)) = _
    rw [lexemes_cons rfl, List.append_assoc, List.singleton_append, next_text]
  | bool b =>
    cases b with
    | false => exact lexemes_cons rfl _
    | true => exact lexemes_cons rfl _
  | openList | closeList | openObject | closeObject | comma | colon | null =>
    exact lexemes_cons rfl _

theorem lexemes_of_spells {ls : List Lexeme} {cs : List Char} (h : Spells ls cs) :
    lexemes cs = ls := by
  induction h with
  | nil => exact lexemes_nil
  | blank hc _ ih => rw [lexemes_blank hc, ih]
  | token ht hcs _ ih => rw [lexemes_write_append ht hcs, ih]
  | text hps _ ih => rw [lexemes_cons rfl, next_spelled hps, ih]

end Lexeme

/-! ## Layouts -/

namespace Spells

/-- Tokens other than numbers can be put in front of any text. -/
theorem cons {t : Token} (ht : t.isNumber = false) {ls : List Lexeme} {cs : List Char}
    (h : Spells ls cs) : Spells (.token t :: ls) (t.write ++ cs) :=
  token (Token.sound_of_isNumber ht) (Token.endsBefore_of_isNumber ht cs) h

theorem blanks {bs : List Char} (hb : ∀ c ∈ bs, Lexeme.isBlank c = true) {ls : List Lexeme}
    {cs : List Char} (h : Spells ls cs) : Spells ls (bs ++ cs) := by
  induction bs with
  | nil => exact h
  | cons b bs ih => exact blank (hb b (by simp)) (ih fun c hc => hb c (by simp [hc]))

end Spells

/-- Behind these tokens another one must come. -/
def Token.wantsMore : Token → Bool
  | openList | openObject | comma | colon => true
  | _ => false

/-- The text writes the tokens, which are no numbers, with blanks in front of them and none behind
the last one. -/
inductive Laid : List Token → List Char → Prop
  | nil : Laid [] []
  | cons {bs : List Char} {t : Token} {ts : List Token} {cs : List Char} :
      (∀ c ∈ bs, Lexeme.isBlank c = true) → t.isNumber = false → Laid ts cs →
        Laid (t :: ts) (bs ++ (t.write ++ cs))

namespace Laid

theorem spells {ts : List Token} {cs : List Char} (h : Laid ts cs) :
    Spells (ts.map Lexeme.token) cs := by
  induction h with
  | nil => exact .nil
  | cons hb ht _ ih => exact .blanks hb (.cons ht ih)

theorem token {t : Token} (ht : t.isNumber = false) {ts : List Token} {cs : List Char}
    (h : Laid ts cs) : Laid (t :: ts) (t.write ++ cs) := by
  rw [← List.nil_append (t.write ++ cs)]
  exact cons (by simp) ht h

/-- A blank may be put in front of a text that holds a token. -/
theorem blank {c : Char} (hc : Lexeme.isBlank c = true) {ts : List Token} (hts : ts ≠ [])
    {cs : List Char} (h : Laid ts cs) : Laid ts (c :: cs) := by
  cases h with
  | nil => exact absurd rfl hts
  | cons hb ht h =>
    rw [← List.cons_append]
    exact cons (List.forall_mem_cons.2 ⟨hc, hb⟩) ht h

theorem newLine (depth : Nat) {ts : List Token} (hts : ts ≠ []) {cs : List Char}
    (h : Laid ts cs) : Laid ts (Layout.newLine depth ++ cs) := by
  refine blank rfl hts ?_
  induction 2 * depth with
  | zero => exact h
  | succ n ih => exact blank rfl hts ih

end Laid

theorem laid_compact {ts : List Token} (h : ∀ t ∈ ts, t.isNumber = false) :
    Laid ts (Layout.compact ts) := by
  induction ts with
  | nil => exact .nil
  | cons t ts ih =>
    rw [Layout.compact, List.flatMap_cons]
    exact .token (h t (by simp)) (ih fun u hu => h u (by simp [hu]))

/-- Tokens other than numbers, the last of which needs nothing behind it. -/
structure Token.Finished (ts : List Token) : Prop where
  isNumber : ∀ t ∈ ts, t.isNumber = false
  wantsMore : ∀ t ∈ ts.getLast?, t.wantsMore = false

namespace Token.Finished

variable {t : Token} {ts : List Token}

theorem tail (h : Finished (t :: ts)) : Finished ts where
  isNumber u hu := h.isNumber u (by simp [hu])
  wantsMore u hu := by
    refine h.wantsMore u ?_
    rw [List.getLast?_cons, Option.mem_def.1 hu]
    rfl

theorem ne_nil (h : Finished (t :: ts)) (ht : t.wantsMore = true) : ts ≠ [] := by
  rintro rfl
  have := h.wantsMore t rfl
  rw [ht] at this
  cases this

end Token.Finished

theorem laid_lines (depth : Nat) {ts : List Token} (h : Token.Finished ts) :
    Laid ts (Layout.lines depth ts) := by
  fun_induction Layout.lines depth ts with
  | case1 => exact .nil
  | case2 depth rest ih | case3 depth rest ih => exact .token rfl (.token rfl (ih h.tail.tail))
  | case4 depth rest _ ih | case5 depth rest _ ih | case8 depth rest ih =>
    exact .token rfl (.newLine _ (h.ne_nil rfl) (ih h.tail))
  | case6 depth rest ih | case7 depth rest ih =>
    exact .newLine _ (List.cons_ne_nil _ _) (.token rfl (ih h.tail))
  | case9 depth rest ih => exact .token rfl (.blank rfl (h.ne_nil rfl) (ih h.tail))
  | case10 depth t rest _ _ _ _ _ _ _ _ ih =>
    exact .token (h.isNumber t (by simp)) (ih h.tail)

end MotorSketch.Json
