import MotorSketch.Json.Node
import MotorSketch.Workspace
import MotorSketch.Workspace.ReadError

/-!
# Reading workspaces

A workspace is an object with the field `blocks`, a block an object with the fields `id`, `type`,
`fields`, `inputs`, `next` and `disabled`; either may also be written as the list of its fields in
this order.  All fields but `id` and `type` may be left out, unknown fields are passed over, and
of a field of `fields` or `inputs` that is repeated the last value counts.

The tree is walked from left to right, and the first thing that is wrong is reported.  Lists and
objects that are wanted may be nested 127 levels deep; `levels` counts the ones that may still be
opened.
-/

namespace MotorSketch

namespace Reader

open Json (Break Member Node)

/-! ## Single values -/

def brokenAt (why : Break) : ReadError := .broken why.kept

/-- The end of a list or object that is wanted. -/
def checkEnd : Option Break → Except ReadError Unit
  | none => .ok ()
  | some why => .error (brokenAt why)

def found (n : Node) : Except ReadError Found :=
  match n with
  | .null => .ok .null
  | .bool b => .ok (.bool b)
  | .number n =>
    match Json.Number.ofNumeral? n with
    | some v => .ok (.number v)
    | none => .error .malformed
  | .text (some s) => .ok (.text s)
  | .text none => .error .malformed
  | .list _ _ => .ok .list
  | .object _ _ => .ok .object
  | .missing why => .error (brokenAt why)

/-- The error of a node that is not what was wanted. -/
def refuse (wanted : Wanted) (n : Node) : ReadError :=
  match found n with
  | .ok f => .mismatch (.wrongType f wanted)
  | .error e => e

def readText : Node → Except ReadError String
  | .text (some s) => .ok s
  | n => .error (refuse .text n)

def readBool : Node → Except ReadError Bool
  | .bool b => .ok b
  | n => .error (refuse .bool n)

/-- A key that is wanted. -/
def readKey : Option String → Except ReadError String
  | some k => .ok k
  | none => .error .malformed

/-- Opens a list or object. -/
def descend : Nat → Except ReadError Nat
  | 0 => .error .malformed
  | levels + 1 => .ok levels

def readTextEntries (m : OrderedMap String String) :
    List Member → Except ReadError (OrderedMap String String)
  | [] => .ok m
  | (key, value) :: rest => do
    let k ← readKey key
    let s ← readText value
    readTextEntries (m.insert k s) rest

def readTextMap (levels : Nat) : Node → Except ReadError (OrderedMap String String)
  | .object members cut => do
    let _ ← descend levels
    let m ← readTextEntries ∅ members
    checkEnd cut
    return m
  | n => .error (refuse .map n)

/-! ## Values that are passed over -/

def skipEnd : Option Break → Except ReadError Unit
  | none => .ok ()
  | some why => .error (.broken why.skipped)

mutual

/-- Only breaks count, and only those that are breaks for everyone. -/
def skip : Node → Except ReadError Unit
  | .list items cut => do
    skipItems items
    skipEnd cut
  | .object members cut => do
    skipMembers members
    skipEnd cut
  | .missing why => .error (.broken why.skipped)
  | _ => .ok ()

def skipItems : List Node → Except ReadError Unit
  | [] => .ok ()
  | n :: rest => do
    skip n
    skipItems rest

def skipMembers : List Member → Except ReadError Unit
  | [] => .ok ()
  | (_, n) :: rest => do
    skip n
    skipMembers rest

end

/-! ## Blocks -/

inductive BlockField
  | id
  | kind
  | fields
  | inputs
  | next
  | disabled
  deriving DecidableEq

namespace BlockField

def name : BlockField → String
  | id => "id"
  | kind => "type"
  | fields => "fields"
  | inputs => "inputs"
  | next => "next"
  | disabled => "disabled"

/-- In the order of the list form. -/
def all : List BlockField := [id, kind, fields, inputs, next, disabled]

def ofName? (s : String) : Option BlockField := all.find? fun f => f.name == s

end BlockField

/-- The fields of a block that have been read. -/
structure BlockParts where
  id : Option String
  kind : Option String
  fields : Option (OrderedMap String String)
  inputs : Option (List (String × Block))
  next : Option (Option Block)
  disabled : Option Bool

namespace BlockParts

def none : BlockParts := ⟨.none, .none, .none, .none, .none, .none⟩

def has (p : BlockParts) : BlockField → Bool
  | .id => p.id.isSome
  | .kind => p.kind.isSome
  | .fields => p.fields.isSome
  | .inputs => p.inputs.isSome
  | .next => p.next.isSome
  | .disabled => p.disabled.isSome

/-- The block, with defaults for what may be left out. -/
def block (p : BlockParts) : Except ReadError Block :=
  match p.id, p.kind with
  | .none, _ => .error (.mismatch (.missingField BlockField.id.name))
  | .some _, .none => .error (.mismatch (.missingField BlockField.kind.name))
  | .some id, .some kind =>
    .ok ⟨id, kind, p.fields.getD ∅, p.inputs.getD [], p.next.getD .none, p.disabled.getD false⟩

/-- The successor of a block may be null. -/
def readNext (value : Node) (readBlock : Unit → Except ReadError Block) :
    Except ReadError (Option Block) :=
  match value with
  | .null => .ok .none
  | _ => (readBlock ()).map .some

/-- Reads one field; how this node is read as a block or as plugs is given, to be used when the
field asks for it. -/
def read (p : BlockParts) (levels : Nat) (field : BlockField) (value : Node)
    (readBlock : Unit → Except ReadError Block)
    (readPlugs : Unit → Except ReadError (List (String × Block))) :
    Except ReadError BlockParts :=
  match field with
  | .id => (readText value).map fun s => { p with id := s }
  | .kind => (readText value).map fun s => { p with kind := s }
  | .fields => (readTextMap levels value).map fun m => { p with fields := m }
  | .inputs => (readPlugs ()).map fun m => { p with inputs := m }
  | .next => (readNext value readBlock).map fun b => { p with next := b }
  | .disabled => (readBool value).map fun b => { p with disabled := b }

end BlockParts

mutual

def readBlock (levels : Nat) : Node → Except ReadError Block
  | .object members cut => do
    let inner ← descend levels
    let parts ← readMembers inner .none members
    checkEnd cut
    parts.block
  | .list items cut => do
    let inner ← descend levels
    readItems inner 0 BlockField.all .none cut items
  | n => .error (refuse .block n)

def readPlugs (levels : Nat) : Node → Except ReadError (List (String × Block))
  | .object members cut => do
    let inner ← descend levels
    let m ← readPlugEntries inner [] members
    checkEnd cut
    return m
  | n => .error (refuse .map n)

/-- The named fields of a block; none may come twice. -/
def readMembers (levels : Nat) (parts : BlockParts) : List Member → Except ReadError BlockParts
  | [] => .ok parts
  | (key, value) :: rest => do
    let k ← readKey key
    match BlockField.ofName? k with
    | none =>
      skip value
      readMembers levels parts rest
    | some field =>
      if parts.has field then .error (.mismatch (.duplicateField k))
      else
        let parts ← parts.read levels field value (fun _ => readBlock levels value)
          (fun _ => readPlugs levels value)
        readMembers levels parts rest

/-- The fields of a block by their places, `count` of which have been read. -/
def readItems (levels : Nat) (count : Nat) (fields : List BlockField) (parts : BlockParts)
    (cut : Option Break) : List Node → Except ReadError Block
  | [] => do
    checkEnd cut
    if count < 2 then .error (.mismatch (.tooShort count)) else parts.block
  | value :: rest => do
    match fields with
    | [] => .error .malformed
    | field :: fields =>
      let parts ← parts.read levels field value (fun _ => readBlock levels value)
        (fun _ => readPlugs levels value)
      readItems levels (count + 1) fields parts cut rest

def readPlugEntries (levels : Nat) (plugs : List (String × Block)) :
    List Member → Except ReadError (List (String × Block))
  | [] => .ok plugs
  | (key, value) :: rest => do
    let k ← readKey key
    let b ← readBlock levels value
    readPlugEntries levels (Entries.insert k b plugs) rest

end

/-! ## Workspaces -/

def readBlockItems (levels : Nat) : List Node → Except ReadError (List Block)
  | [] => .ok []
  | n :: rest => do
    let b ← readBlock levels n
    let bs ← readBlockItems levels rest
    return b :: bs

def readBlocks (levels : Nat) : Node → Except ReadError (List Block)
  | .list items cut => do
    let inner ← descend levels
    let bs ← readBlockItems inner items
    checkEnd cut
    return bs
  | n => .error (refuse .list n)

/-- The name of the only field of a workspace. -/
def blocksName : String := "blocks"

def readWorkspaceMembers (levels : Nat) (blocks : Option (List Block)) :
    List Member → Except ReadError (Option (List Block))
  | [] => .ok blocks
  | (key, value) :: rest => do
    let k ← readKey key
    if k = blocksName then
      if blocks.isSome then .error (.mismatch (.duplicateField k))
      else
        let bs ← readBlocks levels value
        readWorkspaceMembers levels (some bs) rest
    else
      skip value
      readWorkspaceMembers levels blocks rest

def readWorkspace (levels : Nat) : Node → Except ReadError Workspace
  | .object members cut => do
    let inner ← descend levels
    let blocks ← readWorkspaceMembers inner none members
    checkEnd cut
    return ⟨blocks.getD []⟩
  | .list items cut => do
    let inner ← descend levels
    match items with
    | [] =>
      checkEnd cut
      return ⟨[]⟩
    | [n] =>
      let bs ← readBlocks inner n
      checkEnd cut
      return ⟨bs⟩
    | n :: _ :: _ =>
      let _ ← readBlocks inner n
      .error .malformed
  | n => .error (refuse .workspace n)

/-- How deep wanted lists and objects may be nested. -/
def maxLevels : Nat := 127

/-- Something behind a sound workspace is malformed. -/
def readDocument (d : Json.Document) : Except ReadError Workspace := do
  let w ← readWorkspace maxLevels d.root
  if d.surplus then .error .malformed else return w

end Reader

namespace Workspace

def ofChars (cs : List Char) : Except ReadError Workspace :=
  Reader.readDocument (Json.Document.ofChars cs)

def parse (s : String) : Except ReadError Workspace := ofChars s.toList

end Workspace

end MotorSketch
