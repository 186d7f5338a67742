import MotorSketch.Json.Node

/-!
# JSON values

A value is written as a sequence of tokens, and read from a tree without breaks.  Objects keep
the order of their members, repeated keys included.
-/

namespace MotorSketch.Json

inductive Value
  | null
  | bool (b : Bool)
  | number (n : Numeral)
  | text (s : String)
  | list (items : List Value)
  | object (members : List (String × Value))

namespace Value

/-- An object whose values are texts. -/
def textMap (es : List (String × String)) : Value := object (es.map fun e => (e.1, text e.2))

/-! ## Writing -/

mutual

def tokens : Value → List Token
  | null => [.null]
  | bool b => [.bool b]
  | number n => [.number n]
  | text s => [.text s]
  | list [] => [.openList, .closeList]
  | list (v :: more) => .openList :: (tokens v ++ itemTokens more ++ [.closeList])
  | object [] => [.openObject, .closeObject]
  | object ((k, v) :: more) =>
    .openObject :: .text k :: .colon :: (tokens v ++ memberTokens more ++ [.closeObject])

/-- The items behind the first one. -/
def itemTokens : List Value → List Token
  | [] => []
  | v :: more => .comma :: (tokens v ++ itemTokens more)

/-- The members behind the first one. -/
def memberTokens : List (String × Value) → List Token
  | [] => []
  | (k, v) :: more => .comma :: .text k :: .colon :: (tokens v ++ memberTokens more)

end

/-! ## Reading -/

mutual

def ofNode? : Node → Option Value
  | .null => some null
  | .bool b => some (bool b)
  | .number n => some (number n)
  | .text (some s) => some (text s)
  | .list items none => (ofItems? items).map list
  | .object members none => (ofMembers? members).map object
  | _ => none

def ofItems? : List Node → Option (List Value)
  | [] => some []
  | n :: more =>
    match ofNode? n, ofItems? more with
    | some v, some vs => some (v :: vs)
    | _, _ => none

def ofMembers? : List (Option String × Node) → Option (List (String × Value))
  | [] => some []
  | (none, _) :: _ => none
  | (some k, n) :: more =>
    match ofNode? n, ofMembers? more with
    | some v, some ms => some ((k, v) :: ms)
    | _, _ => none

end

def ofDocument? (d : Document) : Option Value := if d.surplus then none else ofNode? d.root

def parse? (s : String) : Option Value := ofDocument? (Document.ofChars s.toList)

end Value

end MotorSketch.Json
