import MotorSketch.Workspace

/-!
# Editing workspaces

A block is addressed by the index of a top-level block and a path that leads down from it, along
successors and plugs.  An edit of a block that is not there does not happen.
-/

namespace MotorSketch

/-- One step down from a block. -/
inductive Descent
  | next
  | input (name : String)
  deriving DecidableEq

/-- The word `next` leads to the successor, any other word is the name of an input. -/
def Descent.ofWord (s : String) : Descent := if s = "next" then next else input s

structure BlockPath where
  top : Nat
  descents : List Descent

namespace Block

/-- Changes the block at the end of the path. -/
def modify? (f : Block → Block) : List Descent → Block → Option Block
  | [], b => some (f b)
  | .next :: path, b =>
    match b.next with
    | none => none
    | some n => (modify? f path n).map fun n => { b with next := some n }
  | .input name :: path, b =>
    match b.input? name with
    | none => none
    | some v => (modify? f path v).map fun v => b.plug name v

mutual

/-- Puts `last` at the end of the successors. -/
def append : Block → Block → Block
  | ⟨i, k, f, ins, next, d⟩, last => ⟨i, k, f, ins, some (appendNext next last), d⟩

def appendNext : Option Block → Block → Block
  | none, last => last
  | some b, last => append b last

end

end Block

namespace Workspace

def add (w : Workspace) (b : Block) : Workspace := ⟨w.blocks ++ [b]⟩

/-- Puts a block below the last top-level block. -/
def append? (w : Workspace) (b : Block) : Option Workspace :=
  match w.blocks.reverse with
  | [] => none
  | last :: before => some ⟨(last.append b :: before).reverse⟩

def remove? (w : Workspace) (index : Nat) : Option Workspace :=
  if index < w.blocks.length then some ⟨w.blocks.eraseIdx index⟩ else none

def modify? (w : Workspace) (path : BlockPath) (f : Block → Block) : Option Workspace :=
  match w.blocks[path.top]? with
  | none => none
  | some b => (b.modify? f path.descents).map fun b => ⟨w.blocks.set path.top b⟩

end Workspace

end MotorSketch
