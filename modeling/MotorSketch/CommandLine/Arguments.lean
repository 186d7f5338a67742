import MotorSketch.Pin.Reservation

/-!
# Command-line arguments

Arguments are taken from left to right.  Long options have their value behind an equals sign or
in the next argument, short ones also directly behind the letter, and short flags can stand
together.  A value of its own may not look like an option, behind `--` nothing is an option, and
only reservations may be repeated.  The first argument that is wrong, or that asks for the help
or the version, decides.
-/

namespace MotorSketch.CommandLine

inductive Format
  | sketch
  | json
  deriving DecidableEq

def Format.ofName? (s : String) : Option Format :=
  if s = "sketch" then some sketch else if s = "json" then some json else none

structure Options where
  workspace : String
  board : String
  format : Format
  reservations : List Reservation
  listInstances : Bool
  output : Option String
  verbose : Bool
  deriving DecidableEq

inductive Command
  | usage
  | help
  | version
  | run (options : Options)
  deriving DecidableEq

inductive Flag
  | listInstances
  | verbose
  | help
  | version
  deriving DecidableEq

inductive Setting
  | board
  | format
  | reserve
  | output
  deriving DecidableEq

inductive Name
  | flag (f : Flag)
  | setting (s : Setting)
  deriving DecidableEq

def Name.ofLong? (s : String) : Option Name :=
  match s with
  | "list-instances" => some (flag .listInstances)
  | "verbose" => some (flag .verbose)
  | "help" => some (flag .help)
  | "version" => some (flag .version)
  | "board" => some (setting .board)
  | "format" => some (setting .format)
  | "reserve" => some (setting .reserve)
  | "output" => some (setting .output)
  | _ => none

def Name.ofShort? (c : Char) : Option Name :=
  match c with
  | 'v' => some (flag .verbose)
  | 'h' => some (flag .help)
  | 'V' => some (flag .version)
  | 'b' => some (setting .board)
  | 'f' => some (setting .format)
  | 'o' => some (setting .output)
  | _ => none

/-- The options that have been given so far. -/
structure Draft where
  workspace : Option String
  board : Option String
  format : Option Format
  reservations : List Reservation
  listInstances : Bool
  output : Option String
  verbose : Bool

/-- What an argument leads to: an end, further arguments, or a value that must follow. -/
inductive Progress
  | stop (c : Command)
  | more (d : Draft)
  | wants (d : Draft) (s : Setting)

namespace Draft

def start : Draft := ⟨none, none, none, [], false, none, false⟩

def raise (d : Draft) (f : Flag) : Progress :=
  match f with
  | .listInstances =>
    if d.listInstances then .stop .usage else .more { d with listInstances := true }
  | .verbose => if d.verbose then .stop .usage else .more { d with verbose := true }
  | .help => .stop .help
  | .version => .stop .version

def set (d : Draft) (s : Setting) (value : String) : Progress :=
  match s with
  | .board => if d.board.isSome then .stop .usage else .more { d with board := some value }
  | .output => if d.output.isSome then .stop .usage else .more { d with output := some value }
  | .format =>
    if d.format.isSome then .stop .usage
    else
      match Format.ofName? value with
      | some f => .more { d with format := some f }
      | none => .stop .usage
  | .reserve =>
    match Reservation.parse value with
    | .ok r => .more { d with reservations := d.reservations ++ [r] }
    | .error _ => .stop .usage

def place (d : Draft) (path : String) : Progress :=
  if d.workspace.isSome then .stop .usage else .more { d with workspace := some path }

/-- The letters of short options behind a dash. -/
def cluster (d : Draft) : List Char → Progress
  | [] => .more d
  | c :: rest =>
    match Name.ofShort? c with
    | none => .stop .usage
    | some (.flag f) =>
      match d.raise f with
      | .more d => d.cluster rest
      | other => other
    | some (.setting s) =>
      match rest with
      | [] => .wants d s
      | '=' :: value => d.set s (String.ofList value)
      | value => d.set s (String.ofList value)

/-- A long option, with the value behind its equals sign if there is one. -/
def long (d : Draft) (text : List Char) : Progress :=
  match Name.ofLong? (String.ofList (text.takeWhile (· ≠ '='))), text.dropWhile (· ≠ '=') with
  | some (.flag f), [] => d.raise f
  | some (.setting s), [] => .wants d s
  | some (.setting s), _ :: value => d.set s (String.ofList value)
  | _, _ => .stop .usage

def argument (d : Draft) (text : String) : Progress :=
  match text.toList with
  | '-' :: '-' :: name => d.long name
  | '-' :: c :: rest => d.cluster (c :: rest)
  | _ => d.place text

/-- The options, once there is a workspace. -/
def finish (d : Draft) : Command :=
  match d.workspace with
  | none => .usage
  | some path =>
    .run ⟨path, d.board.getD "uno", d.format.getD .sketch, d.reservations, d.listInstances,
      d.output, d.verbose⟩

end Draft

/-- An argument that cannot be the value of the option before it. -/
def looksLikeOption (text : String) : Bool :=
  match text.toList with
  | '-' :: _ :: _ => true
  | _ => false

def readPaths (d : Draft) : List String → Command
  | [] => d.finish
  | path :: rest =>
    match d.place path with
    | .more d => readPaths d rest
    | _ => .usage

def readArguments (d : Draft) : List String → Command
  | [] => d.finish
  | text :: rest =>
    if text = "--" then readPaths d rest
    else
      match d.argument text with
      | .stop c => c
      | .more d => readArguments d rest
      | .wants d s =>
        match rest with
        | [] => .usage
        | value :: rest =>
          if looksLikeOption value then .usage
          else
            match d.set s value with
            | .stop c => c
            | .more d => readArguments d rest
            | .wants _ _ => .usage

def Command.ofArguments (args : List String) : Command := readArguments .start args

end MotorSketch.CommandLine
