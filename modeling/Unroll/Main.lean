import Unroll.Program

/-!
# The command

Gathers what a run needs of the machine, times the calls, and hands both to the pure `run`.
-/

namespace Unroll

/-- The variables in a listing of texts `name=value` that are separated by zero characters. -/
def bindingsOf (listing : String) : List (String × String) :=
  (Text.split '\x00' listing).filterMap fun entry =>
    match entry.toList.dropWhile (· != '=') with
    | [] => none
    | _ :: value =>
      some (String.ofList (entry.toList.takeWhile (· != '=')), String.ofList value)

/-- The home directory in a table of accounts, by the number of the account. -/
def accountHome? (accounts number : String) : Option String :=
  (Text.split '\n' accounts).findSome? fun entry =>
    match Text.split ':' entry with
    | _ :: _ :: id :: _ :: _ :: home :: _ => if id = number then some home else none
    | _ => none

/-- The number of the account in the description of a process. -/
def accountNumber? (status : String) : Option String :=
  (Text.split '\n' status).findSome? fun entry =>
    match Text.split '\t' entry with
    | "Uid:" :: id :: _ => some id
    | _ => none

def readBytes? (path : String) : IO (Option ByteArray) := do
  try
    return some (← IO.FS.readBinFile path)
  catch _ =>
    return none

def readText (path : String) : IO String := do
  return ((← readBytes? path).bind String.fromUTF8?).getD ""

/-- The files that a run may look for, given how it sees everything else. -/
def wantedFiles (h : Host) (words : List String) : List String :=
  let path :=
    match CommandLine.parse words with
    | .ok line => (line.configPath.map h.expandPath).getD h.defaultConfigPath
    | .error _ => h.defaultConfigPath
  h.configCandidates path

def currentHost (words : List String) : IO Host := do
  let environment := bindingsOf (← readText "/proc/self/environ")
  let number := (accountNumber? (← readText "/proc/self/status")).getD "0"
  let home := (accountHome? (← readText "/etc/passwd") number).getD "/"
  let bare : Host := {
    environment
    workingDirectory := (← IO.currentDir).toString
    accountHome := home
    read := fun _ => none }
  let files ← (wantedFiles bare words).mapM fun path => return (path, ← readBytes? path)
  return { bare with read := fun path => (files.find? (·.1 == path)).bind (·.2) }

/-- Times the calls of a run. -/
def timedRuns (c : Config) (m : Method) : IO (Array Nat) := do
  let mut times := #[]
  for _ in List.range c.run.runs.toNat do
    let start ← IO.monoNanosNow
    let _ ← IO.lazyPure fun _ => m.compute c.run.n
    times := times.push ((← IO.monoNanosNow) - start)
  return times

def timedClock (c : Config) : IO Clock := do
  let times := (← c.run.methods.mapM (timedRuns c)).toArray
  return fun position run => ((times[position]?.getD #[])[run - 1]?).getD 0

end Unroll

def main (words : List String) : IO UInt32 := do
  let host ← Unroll.currentHost words
  let clock ←
    match Unroll.executedConfig? host words with
    | some c => Unroll.timedClock c
    | none => pure fun _ _ => 0
  let ending := Unroll.run host clock words
  (← IO.getStderr).putStr ending.stderr
  (← IO.getStdout).putStr ending.stdout
  return ending.code
