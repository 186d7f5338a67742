import MotorSketch.Json.Value

/-!
# Layout

A value is written either without any blanks or over several lines: every item and every member
on a line of its own, two blanks deeper than the brackets around it, and a blank behind each
colon.  Empty lists and objects stay on one line.
-/

namespace MotorSketch.Json

/-! ## Algorithm -/

namespace Layout

def compact (ts : List Token) : List Char := ts.flatMap Token.write

def newLine (depth : Nat) : List Char := '\n' :: List.replicate (2 * depth) ' '

/-- The lines of the tokens, `depth` brackets being open. -/
def lines (depth : Nat) : List Token → List Char
  | [] => []
  | .openList :: .closeList :: rest => '[' :: ']' :: lines depth rest
  | .openObject :: .closeObject :: rest => '\x7b' :: '\x7d' :: lines depth rest
  | .openList :: rest => '[' :: (newLine (depth + 1) ++ lines (depth + 1) rest)
  | .openObject :: rest => '\x7b' :: (newLine (depth + 1) ++ lines (depth + 1) rest)
  | .closeList :: rest => newLine (depth - 1) ++ ']' :: lines (depth - 1) rest
  | .closeObject :: rest => newLine (depth - 1) ++ '\x7d' :: lines (depth - 1) rest
  | .comma :: rest => ',' :: (newLine depth ++ lines depth rest)
  | .colon :: rest => ':' :: ' ' :: lines depth rest
  | t :: rest => t.write ++ lines depth rest

end Layout

def Value.compact (v : Value) : String := String.ofList (Layout.compact v.tokens)

def Value.pretty (v : Value) : String := String.ofList (Layout.lines 0 v.tokens)

end MotorSketch.Json
