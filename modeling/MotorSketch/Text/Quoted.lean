import MotorSketch.Text.Printable

/-!
# Quoted text

A text between double quotes in which quotes, backslashes and everything that cannot be seen on
its own are written as escapes.
-/

namespace MotorSketch.Text

/-! ## Algorithm -/

/-- The code point in hexadecimal between braces. -/
def codeEscape (c : Char) : String :=
  "\\u\x7b" ++ String.ofList (Nat.toDigits 16 c.toNat) ++ "\x7d"

def quotedChar (c : Char) : String :=
  match c with
  | '\x00' => "\\0"
  | '\t' => "\\t"
  | '\r' => "\\r"
  | '\n' => "\\n"
  | '\\' => "\\\\"
  | '"' => "\\\""
  | c => if isCombining c || !isPrintable c then codeEscape c else String.singleton c

def quoted (s : String) : String :=
  "\"" ++ String.join (s.toList.map quotedChar) ++ "\""

end MotorSketch.Text
