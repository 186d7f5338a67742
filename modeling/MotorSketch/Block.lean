import MotorSketch.OrderedMap

/-!
# Blocks

A block has an id, a kind, text fields, blocks plugged into named inputs, and the block that
follows it.  A block and everything plugged into it or below it are listed in preorder: the
block, then for each input the blocks of its plug, then the blocks of its successor.  They are
collected on one walk that goes along the successors and descends into the plugs.

    (b.collect found).toList = found.toList ++ b.preorder                      (toList_collect)
-/

namespace MotorSketch

structure Block where
  id : String
  kind : String
  fields : OrderedMap String String
  /-- Plugged blocks by input name; only inputs with a plug are present. -/
  inputs : List (String × Block)
  next : Option Block
  disabled : Bool

namespace Block

/-! ## Access -/

def fresh (id kind : String) : Block := ⟨id, kind, ∅, [], none, false⟩

instance : Inhabited Block := ⟨fresh "" ""⟩

def field? (b : Block) (name : String) : Option String := b.fields.get? name

def input? (b : Block) (name : String) : Option Block := Entries.find? name b.inputs

def setField (b : Block) (name value : String) : Block :=
  { b with fields := b.fields.insert name value }

def clearField (b : Block) (name : String) : Block := { b with fields := b.fields.erase name }

/-- Plugs a block into an input, in place of what was plugged there. -/
def plug (b : Block) (name : String) (value : Block) : Block :=
  { b with inputs := Entries.insert name value b.inputs }

def unplug (b : Block) (name : String) : Block :=
  { b with inputs := Entries.erase name b.inputs }

/-! ## Equality -/

mutual

def decEq : (a b : Block) → Decidable (a = b)
  | ⟨i, k, f, ins, n, d⟩, ⟨i', k', f', ins', n', d'⟩ =>
    match decEqInputs ins ins', decEqNext n n' with
    | .isTrue h, .isTrue h' =>
      decidable_of_iff (i = i' ∧ k = k' ∧ f = f' ∧ d = d') (by subst h h'; simp)
    | .isFalse h, _ => .isFalse fun e => h (Block.mk.inj e).2.2.2.1
    | _, .isFalse h => .isFalse fun e => h (Block.mk.inj e).2.2.2.2.1

def decEqInputs : (xs ys : List (String × Block)) → Decidable (xs = ys)
  | [], [] => .isTrue rfl
  | [], _ :: _ => .isFalse nofun
  | _ :: _, [] => .isFalse nofun
  | (k, b) :: xs, (k', b') :: ys =>
    match decEq b b', decEqInputs xs ys with
    | .isTrue h, .isTrue h' => decidable_of_iff (k = k') (by subst h h'; simp)
    | .isFalse h, _ => .isFalse fun e => h (Prod.mk.inj (List.cons.inj e).1).2
    | _, .isFalse h => .isFalse fun e => h (List.cons.inj e).2

def decEqNext : (a b : Option Block) → Decidable (a = b)
  | none, none => .isTrue rfl
  | none, some _ => .isFalse nofun
  | some _, none => .isFalse nofun
  | some a, some b =>
    match decEq a b with
    | .isTrue h => .isTrue (h ▸ rfl)
    | .isFalse h => .isFalse fun e => h (Option.some.inj e)

end

instance : DecidableEq Block := decEq

/-! ## Well-formed blocks -/

mutual

/-- The inputs have distinct names, here and in every block below. -/
def WellFormed : Block → Prop
  | ⟨_, _, _, inputs, next, _⟩ =>
    (Entries.keys inputs).Nodup ∧ InputsWellFormed inputs ∧ NextWellFormed next

def InputsWellFormed : List (String × Block) → Prop
  | [] => True
  | (_, b) :: more => b.WellFormed ∧ InputsWellFormed more

def NextWellFormed : Option Block → Prop
  | none => True
  | some b => b.WellFormed

end

/-! ## Preorder -/

mutual

/-- Puts the block, then all that is plugged into it, behind the blocks found so far, and goes on
with its successor. -/
def collect : Block → Array Block → Array Block
  | b@⟨_, _, _, inputs, next, _⟩, found => collectNext next (collectInputs inputs (found.push b))

def collectInputs : List (String × Block) → Array Block → Array Block
  | [], found => found
  | (_, b) :: more, found => collectInputs more (collect b found)

def collectNext : Option Block → Array Block → Array Block
  | none, found => found
  | some b, found => collect b found

end

mutual

def preorder : Block → List Block
  | b@⟨_, _, _, inputs, next, _⟩ => b :: (inputsPreorder inputs ++ nextPreorder next)

def inputsPreorder : List (String × Block) → List Block
  | [] => []
  | (_, b) :: more => preorder b ++ inputsPreorder more

def nextPreorder : Option Block → List Block
  | none => []
  | some b => preorder b

end

/-! ## Lemmas -/

mutual

theorem toList_collect (b : Block) (found : Array Block) :
    (b.collect found).toList = found.toList ++ b.preorder := by
  match b with
  | ⟨_, _, _, inputs, next, _⟩ =>
    rw [collect, preorder, toList_collectNext, toList_collectInputs]
    simp

theorem toList_collectInputs (inputs : List (String × Block)) (found : Array Block) :
    (collectInputs inputs found).toList = found.toList ++ inputsPreorder inputs := by
  match inputs with
  | [] => simp [collectInputs, inputsPreorder]
  | (_, b) :: more =>
    rw [collectInputs, inputsPreorder, toList_collectInputs, toList_collect]
    simp

theorem toList_collectNext (next : Option Block) (found : Array Block) :
    (collectNext next found).toList = found.toList ++ nextPreorder next := by
  match next with
  | none => simp [collectNext, nextPreorder]
  | some b => rw [collectNext, nextPreorder, toList_collect]

end

end Block

end MotorSketch
