import MotorSketch.Json.Numeral
import MotorSketch.Json.Literal

/-!
# Tokens

The units of JSON and how each is written.  Blanks may stand between tokens.
-/

namespace MotorSketch.Json

inductive Token
  | openList
  | closeList
  | openObject
  | closeObject
  | comma
  | colon
  | null
  | bool (b : Bool)
  | number (n : Numeral)
  | text (content : String)
  deriving DecidableEq

namespace Token

def write : Token → List Char
  | openList => ['[']
  | closeList => [']']
  | openObject => ['\x7b']
  | closeObject => ['\x7d']
  | comma => [',']
  | colon => [':']
  | null => ['n', 'u', 'l', 'l']
  | bool true => ['t', 'r', 'u', 'e']
  | bool false => ['f', 'a', 'l', 's', 'e']
  | number n => n.text
  | text s => Literal.write s.toList

end Token

end MotorSketch.Json
