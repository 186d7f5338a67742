/-!
# Log

What happens on the way is reported as events, each with a level and a message.  A logged value
carries the events of its computation in the order in which they happened.
-/

namespace MotorSketch

inductive Level
  | error
  | warn
  | info
  | debug
  deriving DecidableEq

inductive Event
  | loaded (topBlocks : Nat) (path : String)
  | emptyWorkspace (path : String)
  | visiting (id kind : String)
  | skipping (id : String)
  | noGenerator (kind : String)
  | noValue (id kind : String)
  | unknownOperator (id operator : String)
  | unnamedInstance (id kind : String)
  | generated (definitions setups loops warned : Nat)
  | blockWarning (id text : String)
  | pinClaimed (pin role : String)
  deriving DecidableEq

namespace Event

def level : Event → Level
  | loaded .. => .info
  | emptyWorkspace _ => .warn
  | visiting .. => .debug
  | skipping _ => .debug
  | noGenerator _ => .debug
  | noValue .. => .warn
  | unknownOperator .. => .warn
  | unnamedInstance .. => .debug
  | generated .. => .info
  | blockWarning .. => .warn
  | pinClaimed .. => .debug

def message : Event → String
  | loaded topBlocks path => "Loaded " ++ toString topBlocks ++ " top-level blocks from " ++ path
  | emptyWorkspace path => "Workspace " ++ path ++ " contains no blocks"
  | visiting id kind => "Visiting block " ++ id ++ " (" ++ kind ++ ")"
  | skipping id => "Skipping disabled block " ++ id ++ " and its successors"
  | noGenerator kind => "No generator for block type " ++ kind
  | noValue id kind => "Block " ++ id ++ " of type " ++ kind ++ " has no value to generate"
  | unknownOperator id operator =>
    "Block " ++ id ++ " has unknown arithmetic operator " ++ operator ++ ", using ADD"
  | unnamedInstance id kind => "Block " ++ id ++ " (" ++ kind ++ ") declares an unnamed instance"
  | generated definitions setups loops warned =>
    "Generated " ++ toString definitions ++ " definitions, " ++ toString setups ++
      " setup and " ++ toString loops ++ " loop fragments (" ++ toString warned ++
      " blocks with warnings)"
  | blockWarning id text => id ++ ": " ++ text
  | pinClaimed pin role => "Pin " ++ pin ++ " claimed as " ++ role

end Event

namespace Level

def name : Level → String
  | error => "ERROR"
  | warn => "WARN"
  | info => "INFO"
  | debug => "DEBUG"

/-- How much a level lets through. -/
def rank : Level → Nat
  | error => 1
  | warn => 2
  | info => 3
  | debug => 4

end Level

/-- The events up to a level; without a level, none. -/
def Event.upTo (limit : Option Level) (events : List Event) : List Event :=
  match limit with
  | none => []
  | some l => events.filter fun e => e.level.rank ≤ l.rank

structure Logged (α : Type) where
  value : α
  events : List Event

namespace Logged

variable {α β : Type}

def log (e : Event) : Logged Unit := ⟨(), [e]⟩

instance : Monad Logged where
  pure a := ⟨a, []⟩
  bind x f := ⟨(f x.value).value, x.events ++ (f x.value).events⟩

@[simp] theorem value_pure (a : α) : (pure a : Logged α).value = a := rfl

@[simp] theorem events_pure (a : α) : (pure a : Logged α).events = [] := rfl

@[simp] theorem value_bind (x : Logged α) (f : α → Logged β) :
    (x >>= f).value = (f x.value).value := rfl

@[simp] theorem events_bind (x : Logged α) (f : α → Logged β) :
    (x >>= f).events = x.events ++ (f x.value).events := rfl

@[simp] theorem value_log (e : Event) : (log e).value = () := rfl

@[simp] theorem events_log (e : Event) : (log e).events = [e] := rfl

theorem bind_def (x : Logged α) (f : α → Logged β) :
    x >>= f = ⟨(f x.value).value, x.events ++ (f x.value).events⟩ := rfl

instance : LawfulMonad Logged := LawfulMonad.mk' Logged
  (fun x => by simp [Functor.map])
  (fun x f => by simp [bind_def, pure])
  (fun x f g => by simp [bind_def])

@[simp] theorem value_map (f : α → β) (x : Logged α) : (f <$> x).value = f x.value := rfl

@[simp] theorem events_map (f : α → β) (x : Logged α) : (f <$> x).events = x.events := by
  simp [Functor.map]

end Logged

end MotorSketch
