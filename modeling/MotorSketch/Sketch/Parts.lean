import MotorSketch.OrderedMap

/-!
# Parts of a sketch

A sketch is put together from keyed pieces of code: definitions, statements of the setup, and
statements of the loop.  Writing a key again replaces its code where it stands.
-/

namespace MotorSketch.Sketch

structure Parts where
  definitions : OrderedMap String String
  setups : OrderedMap String String
  body : OrderedMap String String
  deriving DecidableEq

namespace Parts

def empty : Parts := ⟨∅, ∅, ∅⟩

/-- Writes every piece of `g` over `f`. -/
def overlay (f g : Parts) : Parts :=
  ⟨f.definitions.overlay g.definitions, f.setups.overlay g.setups, f.body.overlay g.body⟩

def isEmpty (f : Parts) : Bool :=
  f.definitions.isEmpty && f.setups.isEmpty && f.body.isEmpty

end Parts

end MotorSketch.Sketch
