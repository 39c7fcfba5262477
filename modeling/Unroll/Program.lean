import Unroll.CommandLine.Parse
import Unroll.Config.Load
import Unroll.Execution
import Unroll.Log.Filter

/-!
# A whole run

`perform` does what a command line asks for: it loads the configuration, lets the command line
replace values, and prints the configuration or executes it. Both the loaded and the replaced
configuration have to be valid, and nothing is printed if a check fails. `run` starts from the words
of the command line and gives the exit code and what is written.
-/

namespace Unroll

/-- Why a run fails. -/
inductive RunFault where
  /-- The configuration could not be loaded. -/
  | load (fault : ConfigError)
  /-- The configuration cannot be used after the command line replaced values, or not be printed. -/
  | config (fault : ConfigError)
  | execute (fault : ExecuteFault)

namespace RunFault

/-- The messages of a fault and of what is behind it. -/
def chain : RunFault → List String
  | load fault => "Failed to load configuration" :: fault.chain
  | config fault => fault.chain
  | execute fault => fault.chain

/-- Whether the fault is beyond what a run can report. -/
def isFatal : RunFault → Bool
  | load (.load (.index _)) => true
  | load _ => false
  | config _ => false
  | execute fault => fault.isFatal

end RunFault

/-- The configuration that a command line asks for. -/
def effectiveConfig (h : Host) (line : CommandLine) : Except RunFault Config := do
  let loaded ← (Config.load h line.configPath).mapError .load
  let c := line.apply loaded
  c.validate.mapError fun reason => .config (.invalid reason)
  return c

/-- Does what a command line asks for, and gives what is printed. -/
def perform (h : Host) (clock : Clock) (line : CommandLine) : Logged RunFault String := do
  let c ← .ofExcept (effectiveConfig h line)
  if line.printConfig then
    .ofExcept (c.toToml.mapError fun fault => .config (.unwritable fault))
  else
    return (← (execute c clock).mapError .execute).output

/-! ## Exit codes and messages -/

/-- What a run leaves behind. -/
structure Ending where
  code : UInt32
  stdout : String
  stderr : String
  deriving DecidableEq, Repr

/-- A message of several lines, all but the first one indented. -/
def hanging (indent : Nat) (message : String) : String :=
  ("\n" ++ String.ofList (List.replicate indent ' ')).intercalate (Text.split '\n' message)

/-- The lines about what is behind a fault, numbered if there are several. -/
def causeLines : List String → List String
  | [] => []
  | [cause] => ["    " ++ hanging 4 cause]
  | causes => causes.mapIdx fun i cause =>
    let number := toString i
    String.ofList (List.replicate (5 - number.length) ' ') ++ number ++ ": " ++ hanging 7 cause

/-- A fault as it is shown at the end of a run. -/
def faultText : List String → String
  | [] => "Error: \n"
  | [message] => "Error: " ++ message ++ "\n"
  | message :: causes =>
    "Error: " ++ message ++ "\n\nCaused by:\n" ++
      String.join ((causeLines causes).map (· ++ "\n"))

namespace Ending

/-- The end of a run whose command line could not be read or asked for help. -/
def ofStop (stop : CommandLine.Stop) : Ending :=
  match stop with
  | .help | .version => { code := 0, stdout := stop.message, stderr := "" }
  | _ => { code := 2, stdout := "", stderr := stop.message }

def ofOutcome (log : String) : Except RunFault String → Ending
  | .ok output => { code := 0, stdout := output, stderr := log }
  | .error fault =>
    { code := if fault.isFatal then 101 else 1
      stdout := ""
      stderr := log ++ faultText fault.chain }

end Ending

/-- The log lines that are shown. -/
def shownLog (directives : List Log.Directive) (events : List Event) : String :=
  String.join ((events.filter (Log.shows directives)).map (·.line ++ "\n"))

/-- A run from the words of its command line. -/
def run (h : Host) (clock : Clock) (words : List String) : Ending :=
  match CommandLine.parse words with
  | .error stop => .ofStop stop
  | .ok line =>
    let directives := Log.directives (h.valueOf? "RUST_LOG") line.verbosity
    let result := perform h clock line
    .ofOutcome (shownLog directives result.events) result.outcome

/-- The configuration that a run executes, if it gets so far. -/
def executedConfig? (h : Host) (words : List String) : Option Config := do
  let line ← (CommandLine.parse words).toOption
  guard !line.printConfig
  (effectiveConfig h line).toOption

end Unroll
