import MotorSketch.Json.Lexeme

/-!
# Reading trees

The lexemes of a text become one tree, whether or not the text is JSON: a list or an object that
is not closed ends with the break that cut it, and where a value had to stand and none can be
read the tree holds the break itself.  So a reader that walks the tree from left to right meets
every fault where it stands in the text.

    run (s) (xs ++ ys) = run (run s xs) ys                                   (run_append)
-/

namespace MotorSketch.Json

/-- A key is `none` when a surrogate stands alone in it. -/
inductive Node
  | null
  | bool (b : Bool)
  | number (n : Numeral)
  | text (content : Option String)
  | list (items : List Node) (cut : Option Break)
  | object (members : List (Option String × Node)) (cut : Option Break)
  | missing (why : Break)

abbrev Member := Option String × Node

/-- An open list or object around the place that is being read, with the finished parts, last
one first. -/
inductive Frame
  | list (items : List Node)
  | object (members : List Member) (key : Option String)

/-- What may come next; the stack holds the open frames, innermost first. -/
inductive Reading
  | value (stack : List Frame)
  /-- Directly behind an opening bracket. -/
  | firstItem (stack : List Frame)
  /-- Directly behind an opening brace. -/
  | firstKey (stack : List Frame)
  | nextKey (members : List Member) (stack : List Frame)
  | colon (members : List Member) (key : Option String) (stack : List Frame)
  | afterItem (items : List Node) (stack : List Frame)
  | afterMember (members : List Member) (stack : List Frame)
  | complete (root : Node)
  /-- Something follows the complete value. -/
  | surplus (root : Node)
  | cut (root : Node)

/-- The tree of a text; `surplus` tells whether something follows a complete value. -/
structure Document where
  root : Node
  surplus : Bool

namespace Frame

/-! ## Algorithm -/

/-- The list or object of the frame with `last` in it, cut behind it. -/
def cutBehind (why : Break) (last : Node) : Frame → Node
  | list items => .list (last :: items).reverse (some why)
  | object members key => .object ((key, last) :: members).reverse (some why)

end Frame

namespace Reading

/-- Every open frame is cut where the innermost node is. -/
def enclose (why : Break) (node : Node) (stack : List Frame) : Node :=
  stack.foldl (fun n f => f.cutBehind why n) node

/-- A complete value takes its place in the innermost frame. -/
def deliver (node : Node) : List Frame → Reading
  | [] => complete node
  | .list items :: stack => afterItem (node :: items) stack
  | .object members key :: stack => afterMember ((key, node) :: members) stack

/-- The tree when the text cannot be read further. -/
def stop (why : Break) : Reading → Node
  | value stack => enclose why (.missing why) stack
  | firstItem stack => enclose why (.list [] (some why)) stack
  | firstKey stack => enclose why (.object [] (some why)) stack
  | nextKey members stack => enclose why (.object members.reverse (some why)) stack
  | colon members key stack => enclose why (.missing why) (.object members key :: stack)
  | afterItem items stack => enclose why (.list items.reverse (some why)) stack
  | afterMember members stack => enclose why (.object members.reverse (some why)) stack
  | complete root => root
  | surplus root => root
  | cut root => root

def fail (why : Break) (r : Reading) : Reading := cut (r.stop why)

def stepValue (stack : List Frame) : Lexeme → Reading
  | .token .openList => firstItem stack
  | .token .openObject => firstKey stack
  | .token .null => deliver .null stack
  | .token (.bool b) => deliver (.bool b) stack
  | .token (.number n) => deliver (.number n) stack
  | .token (.text s) => deliver (.text (some s)) stack
  | .unpaired => deliver (.text none) stack
  | .cutText why => fail why (value stack)
  | .broken why => fail why (value stack)
  | .token _ => fail .malformed (value stack)

def stepKey (members : List Member) (stack : List Frame) : Lexeme → Reading
  | .token (.text s) => colon members (some s) stack
  | .unpaired => colon members none stack
  | .cutText why => fail why (nextKey members stack)
  | _ => fail .malformed (nextKey members stack)

def step : Reading → Lexeme → Reading
  | value stack, l => stepValue stack l
  | firstItem stack, .token .closeList => deliver (.list [] none) stack
  | firstItem stack, l => stepValue (.list [] :: stack) l
  | firstKey stack, .token .closeObject => deliver (.object [] none) stack
  | firstKey stack, l => stepKey [] stack l
  | nextKey members stack, l => stepKey members stack l
  | colon members key stack, .token .colon => value (.object members key :: stack)
  | colon members key stack, _ => fail .malformed (colon members key stack)
  | afterItem items stack, .token .comma => value (.list items :: stack)
  | afterItem items stack, .token .closeList => deliver (.list items.reverse none) stack
  | afterItem items stack, _ => fail .malformed (afterItem items stack)
  | afterMember members stack, .token .comma => nextKey members stack
  | afterMember members stack, .token .closeObject =>
    deliver (.object members.reverse none) stack
  | afterMember members stack, _ => fail .malformed (afterMember members stack)
  | complete root, _ => surplus root
  | surplus root, _ => surplus root
  | cut root, _ => cut root

def run (r : Reading) (lexemes : List Lexeme) : Reading := lexemes.foldl step r

/-- The text ends here. -/
def finish : Reading → Document
  | surplus root => ⟨root, true⟩
  | r => ⟨r.stop .truncated, false⟩

/-! ## Lemmas -/

@[simp] theorem run_nil (r : Reading) : r.run [] = r := rfl

@[simp] theorem run_cons (r : Reading) (l : Lexeme) (ls : List Lexeme) :
    r.run (l :: ls) = (r.step l).run ls := rfl

theorem run_append (r : Reading) (xs ys : List Lexeme) :
    r.run (xs ++ ys) = (r.run xs).run ys := by
  simp [run]

theorem run_cut (root : Node) (ls : List Lexeme) : (cut root).run ls = cut root := by
  induction ls with
  | nil => rfl
  | cons l ls ih => simpa [step] using ih

theorem run_surplus (root : Node) (ls : List Lexeme) : (surplus root).run ls = surplus root := by
  induction ls with
  | nil => rfl
  | cons l ls ih => simpa [step] using ih

end Reading

namespace Document

def ofLexemes (ls : List Lexeme) : Document := ((Reading.value []).run ls).finish

def ofChars (cs : List Char) : Document := ofLexemes (Lexeme.lexemes cs)

end Document

end MotorSketch.Json
