import MotorSketch.Json.Fault
import MotorSketch.Json.Number
import MotorSketch.Text.Quoted

/-!
# Errors of reading a workspace

Either the text breaks, or it is sound so far and says something that is no workspace.
-/

namespace MotorSketch

/-- What stands where something else was wanted. -/
inductive Found
  | null
  | bool (b : Bool)
  | number (n : Json.Number)
  | text (s : String)
  | list
  | object
  deriving DecidableEq

inductive Wanted
  | text
  | bool
  | map
  | list
  | workspace
  | block
  deriving DecidableEq

inductive Mismatch
  | missingField (name : String)
  | duplicateField (name : String)
  /-- A block written as a list with too few items. -/
  | tooShort (length : Nat)
  | wrongType (found : Found) (wanted : Wanted)
  deriving DecidableEq

inductive ReadError
  | broken (fault : Json.Fault)
  | mismatch (cause : Mismatch)
  deriving DecidableEq

def Found.description : Found → String
  | null => "null"
  | bool true => "boolean `true`"
  | bool false => "boolean `false`"
  | number (.integer n) => "integer `" ++ (Json.Number.integer n).text ++ "`"
  | number (.double s x) => "floating point `" ++ (Json.Number.double s x).text ++ "`"
  | text s => "string " ++ Text.quoted s
  | list => "sequence"
  | object => "map"

def Wanted.description : Wanted → String
  | text => "a string"
  | bool => "a boolean"
  | map => "a map"
  | list => "a sequence"
  | workspace => "struct Workspace"
  | block => "struct Block"

def Mismatch.message : Mismatch → String
  | missingField name => "missing field `" ++ name ++ "`"
  | duplicateField name => "duplicate field `" ++ name ++ "`"
  | tooShort length =>
    "invalid length " ++ toString length ++ ", expected struct Block with 6 elements"
  | wrongType found wanted =>
    "invalid type: " ++ found.description ++ ", expected " ++ wanted.description

namespace ReadError

def malformed : ReadError := broken .malformed

def truncated : ReadError := broken .truncated

end ReadError

end MotorSketch
