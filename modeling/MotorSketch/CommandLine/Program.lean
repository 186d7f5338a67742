import MotorSketch.CommandLine.Arguments
import MotorSketch.Dropdown
import MotorSketch.Compilation
import MotorSketch.Text.Line
import MotorSketch.Text.Plain
import MotorSketch.Workspace.File

/-!
# The program

One run reads a workspace and writes one text: the sketch or the report of the workspace, or the
motors that can be chosen.  What can go wrong is checked in order: the board, the workspace, the
reservations, the output.  A run that fails writes nothing.
-/

namespace MotorSketch.CommandLine

def versionText : String := "stepperblocks 0.1.0\n"

inductive Failure
  | unknownBoard (name : String)
  | load (why : LoadError)
  | reservation (r : Reservation) (conflict : PinClash)
  | save (why : SaveError)
  deriving DecidableEq

namespace Failure

def message : Failure → String
  | unknownBoard name =>
    "Unknown board " ++ name ++ " (known: " ++ ", ".intercalate (Board.all.map Board.name) ++ ")"
  | load why => why.message
  | reservation r _ => "Failed to reserve pin " ++ r.pin ++ " as " ++ r.role.tag
  | save why => why.message

/-- The conflict behind a reservation that failed. -/
def cause : Failure → Option String
  | reservation _ conflict => some conflict.message
  | _ => none

end Failure

inductive Outcome
  | failed (why : Failure)
  | printed (text : String)
  | saved (path text : String)

namespace Outcome

def status : Outcome → UInt32
  | failed _ => 1
  | _ => 0

/-- What is written to the output stream. -/
def output : Outcome → String
  | printed text => text
  | _ => ""

/-- The file that is written, as its path and its text. -/
def file : Outcome → Option (String × String)
  | saved path text => some (path, text)
  | _ => none

def failure : Outcome → Option Failure
  | failed why => some why
  | _ => none

end Outcome

def choicesToJson (choices : List Choice) : Json.Value :=
  .list (choices.map fun c => .object [("label", .text c.label), ("value", .text c.value)])

def choicesText (format : Format) (choices : List Choice) : String :=
  match format with
  | .json => (choicesToJson choices).pretty
  | .sketch => String.join (choices.map fun c => c.label ++ "\n")

def reportText (format : Format) (r : Report) : String :=
  match format with
  | .json => r.json
  | .sketch => r.sketch

/-- The events that tell of the warnings and pins of a report. -/
def reportEvents (r : Report) : List Event :=
  r.warnings.blocks.filterMap (fun id => (r.warnings.text? id).map (.blockWarning id)) ++
    r.pins.roles.entries.map fun e => .pinClaimed e.1 e.2.tag

def loadEvents (w : Workspace) (path : String) : List Event :=
  .loaded w.blocks.length path :: if w.isEmpty then [.emptyWorkspace path] else []

def logAll (events : List Event) : Logged Unit := ⟨(), events⟩

/-- The text to write for a workspace. -/
def compose (o : Options) (board : Board) (w : Workspace) : Logged (Except Failure String) :=
  if o.listInstances then do
    let choices ← w.instanceChoices
    return .ok (choicesText o.format choices)
  else
    match PinAssignment.empty.reserve o.reservations with
    | .error (r, conflict) => pure (.error (.reservation r conflict))
    | .ok pins => do
      let report ← Compilation.ofWorkspace board pins w
      logAll (reportEvents report)
      return .ok (reportText o.format report)

/-- Where the text goes; a file may not be writable. -/
def deliver (output : Option String) (writable : Bool) (text : String) : Outcome :=
  match output with
  | none => .printed text
  | some path => if writable then .saved path text else .failed (.save ⟨path⟩)

/-- The whole run.  Given are the bytes of the workspace file, if it can be read, and whether the
output file can be written. -/
def run (o : Options) (contents : Option ByteArray) (writable : Bool) : Logged Outcome :=
  match Board.find? o.board with
  | none => pure (.failed (.unknownBoard o.board))
  | some board =>
    match Workspace.load o.workspace contents with
    | .error why => pure (.failed (.load why))
    | .ok w => do
      logAll (loadEvents w o.workspace)
      match ← compose o board w with
      | .error why => return .failed why
      | .ok text => return deliver o.output writable text

/-! ## What is logged -/

/-- The level that a setting names, in any ASCII casing; `none` turns the log off. -/
def levelOfSetting (s : String) : Option Level :=
  match s.map Char.toLower with
  | "" | "error" => some .error
  | "warn" => some .warn
  | "info" => some .info
  | "debug" | "trace" => some .debug
  | _ => none

/-- Everything when the run is verbose, else what the setting lets through, and without a setting
all but details. -/
def logLimit (verbose : Bool) (setting : Option String) : Option Level :=
  if verbose then some .debug
  else
    match setting with
    | none => some .info
    | some s => levelOfSetting s

/-- The further lines of a message are indented. -/
def indented (message : String) : String :=
  String.ofList (message.toList.flatMap fun c => if c = '\n' then "\n    ".toList else [c])

/-- What the log shows of a message.  The line feed at the end is made plain with it, so a
sequence that is left open may take it along. -/
def loggedText (message : String) : String := Text.plain (indented message ++ "\n")

/-- The lines of the log for an event.  The first one has the level, and is there even if nothing
is left of the message. -/
def loggedLines (e : Event) : List (Option Level × String) :=
  match Text.lines (loggedText e.message) with
  | [] => [(some e.level, "")]
  | first :: more => (some e.level, first) :: more.map (none, ·)

/-! ## What is seen of a run -/

structure Result where
  log : List Event
  outcome : Outcome

/-- The run under a log setting. -/
def execute (o : Options) (setting : Option String) (contents : Option ByteArray)
    (writable : Bool) : Result :=
  let r := run o contents writable
  ⟨Event.upTo (logLimit o.verbose setting) r.events, r.value⟩

end MotorSketch.CommandLine
