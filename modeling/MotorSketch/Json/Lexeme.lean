import MotorSketch.Json.Token

/-!
# Lexemes

A text is cut into lexemes from left to right: tokens, and where no token can be read the break
that ends the reading.  Blanks are skipped.

    lexemes (b :: cs) = lexemes cs  for a blank b                           (lexemes_blank)
    lexemes (c :: cs) = (next c cs).1 :: lexemes (next c cs).2  otherwise    (lexemes_cons)
-/

namespace MotorSketch.Json

inductive Lexeme
  | token (t : Token)
  /-- A complete text in which a surrogate stands alone. -/
  | unpaired
  /-- A text that breaks off. -/
  | cutText (at' : Break)
  | broken (at' : Break)
  deriving DecidableEq

namespace Lexeme

/-! ## Algorithm -/

def isBlank (c : Char) : Bool := c == ' ' || c == '\t' || c == '\n' || c == '\r'

/-- Reads on letter by letter. -/
def scanLetters (t : Token) : List Char → List Char → Lexeme × List Char
  | [], rest => (.token t, rest)
  | _ :: _, [] => (.broken .truncated, [])
  | l :: letters, c :: rest =>
    if c = l then scanLetters t letters rest else (.broken .malformed, [])

def ofLiteral (s : Literal.Scanned) : Lexeme × List Char :=
  match s.fault, Literal.decode s.pieces s.fault with
  | none, .ok content => (.token (.text (String.ofList content)), s.rest)
  | none, .error _ => (.unpaired, s.rest)
  | some f, .ok _ => (.cutText ⟨f, f⟩, [])
  | some f, .error kept => (.cutText ⟨kept, f⟩, [])

def ofNumber (s : Except Break (Numeral × List Char)) : Lexeme × List Char :=
  match s with
  | .error b => (.broken b, [])
  | .ok (n, rest) => (.token (.number n), rest)

/-- The lexeme that starts with the character `c`, and what follows it. -/
def next (c : Char) (rest : List Char) : Lexeme × List Char :=
  match c with
  | '[' => (.token .openList, rest)
  | ']' => (.token .closeList, rest)
  | '\x7b' => (.token .openObject, rest)
  | '\x7d' => (.token .closeObject, rest)
  | ',' => (.token .comma, rest)
  | ':' => (.token .colon, rest)
  | 'n' => scanLetters .null ['u', 'l', 'l'] rest
  | 't' => scanLetters (.bool true) ['r', 'u', 'e'] rest
  | 'f' => scanLetters (.bool false) ['a', 'l', 's', 'e'] rest
  | '"' => ofLiteral (Literal.scan rest)
  | c =>
    if c = '-' ∨ c.isDigit then ofNumber (Numeral.scan (c :: rest))
    else (.broken .malformed, [])

/-! ## Every lexeme takes characters -/

theorem length_scanLetters_le (t : Token) (ls cs : List Char) :
    (scanLetters t ls cs).2.length ≤ cs.length := by
  fun_induction scanLetters t ls cs with
  | case1 => exact Nat.le_refl _
  | case2 => exact Nat.le_refl _
  | case3 l ls rest ih => exact Nat.le_succ_of_le ih
  | case4 => exact Nat.zero_le _

theorem length_ofLiteral_le {s : Literal.Scanned} {n : Nat} (h : s.rest.length ≤ n) :
    (ofLiteral s).2.length ≤ n := by
  unfold ofLiteral
  split <;> simp [h]

theorem length_next_le (c : Char) (rest : List Char) : (next c rest).2.length ≤ rest.length := by
  unfold next
  split
  case h_7 | h_8 | h_9 => exact length_scanLetters_le ..
  case h_10 => exact length_ofLiteral_le (Literal.length_rest_scan_le rest)
  case h_11 =>
    split
    · unfold ofNumber
      split
      · exact Nat.zero_le _
      · next h => exact Nat.le_of_lt_succ (Numeral.length_scan_lt h)
    · exact Nat.zero_le _
  all_goals exact Nat.le_refl _

/-! ## Algorithm, continued -/

/-- The lexemes of a text; a break is the last one. -/
def lexemes : List Char → List Lexeme
  | [] => []
  | c :: rest =>
    if isBlank c then lexemes rest else (next c rest).1 :: lexemes (next c rest).2
  termination_by cs => cs.length
  decreasing_by
    · exact Nat.lt_succ_self _
    · exact Nat.lt_succ_of_le (length_next_le c rest)

/-! ## Lemmas -/

@[simp] theorem lexemes_nil : lexemes [] = [] := by rw [lexemes]

theorem lexemes_blank {b : Char} (h : isBlank b = true) (cs : List Char) :
    lexemes (b :: cs) = lexemes cs := by
  rw [lexemes, if_pos h]

theorem lexemes_cons {c : Char} (h : isBlank c = false) (cs : List Char) :
    lexemes (c :: cs) = (next c cs).1 :: lexemes (next c cs).2 := by
  rw [lexemes, if_neg (by simp [h])]

end Lexeme

end MotorSketch.Json
