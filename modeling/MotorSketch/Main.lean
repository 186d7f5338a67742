import MotorSketch.CommandLine.Program

/-!
# Command line

Reads the arguments, the workspace file and the log setting, and writes what the run yields: the
log and errors to the error stream, the text to the output stream or to a file.
-/

namespace MotorSketch.CommandLine

/-- The environment variable that holds the log setting. -/
def logVariable : String := "RUST_LOG"

def helpText : String :=
  "Generate Arduino Stepper code from a block workspace\n\n" ++
  "Usage: stepperblocks [OPTIONS] <WORKSPACE>\n\n" ++
  "Arguments:\n" ++
  "  <WORKSPACE>  Workspace JSON file\n\n" ++
  "Options:\n" ++
  "  -b, --board <BOARD>       Target board (uno, leonardo, mega) [default: uno]\n" ++
  "  -f, --format <FORMAT>     Output format: sketch or json [default: sketch]\n" ++
  "      --reserve <PIN=TYPE>  Pre-claim a pin for another peripheral, such as 3=SERVO\n" ++
  "      --list-instances      Print the motors that can be chosen instead of code\n" ++
  "  -o, --output <OUTPUT>     Write output to a file instead of stdout\n" ++
  "  -v, --verbose             Enable debug messages\n" ++
  "  -h, --help                Print help\n" ++
  "  -V, --version             Print version\n"

def usageText : String :=
  "error: invalid arguments\n\nUsage: stepperblocks [OPTIONS] <WORKSPACE>\n\n" ++
  "For more information, try '--help'.\n"

def readBytes? (path : String) : IO (Option ByteArray) := do
  try
    let bytes ← IO.FS.readBinFile path
    return some bytes
  catch _ => return none

/-- Whether the file could be written. -/
def writeText (path text : String) : IO Bool := do
  try
    IO.FS.writeFile path text
    return true
  catch _ => return false

def printEvent (e : Event) : IO Unit :=
  IO.eprint ("[" ++ e.level.name ++ "] " ++ loggedText e.message)

def printFailure (why : Failure) : IO Unit := do
  IO.eprintln ("Error: " ++ why.message)
  match why.cause with
  | some text => IO.eprintln ("\nCaused by:" ++ indented ("\n" ++ text))
  | none => pure ()

/-- Whether the file can be written shows when it is. -/
def perform (o : Options) : IO UInt32 := do
  let contents ← readBytes? o.workspace
  let setting ← IO.getEnv logVariable
  let attempt := execute o setting contents true
  for e in attempt.log do
    printEvent e
  let written ← match attempt.outcome.file with
    | some (path, text) => writeText path text
    | none => pure true
  let outcome := if written then attempt.outcome else (execute o setting contents false).outcome
  outcome.failure.forM printFailure
  IO.print outcome.output
  return outcome.status

end MotorSketch.CommandLine

def main (args : List String) : IO UInt32 :=
  match MotorSketch.CommandLine.Command.ofArguments args with
  | .usage => do
    IO.eprint MotorSketch.CommandLine.usageText
    return 2
  | .help => do
    IO.print MotorSketch.CommandLine.helpText
    return 0
  | .version => do
    IO.print MotorSketch.CommandLine.versionText
    return 0
  | .run o => MotorSketch.CommandLine.perform o
