import Unroll.CommandLine
import Unroll.Text.Integer
import Unroll.Text.Split
import Unroll.Text.Terminal

/-!
# Parameters, switches and their values

A command line consists of parameters, which take a value, and switches, which take none. The index
is the only parameter without a name. A parameter sets one field of the command line; only methods
may be given several times.
-/

namespace Unroll.CommandLine

/-- What takes a value. -/
inductive Parameter where
  | index
  | method
  | runs
  | format
  | precision
  | config
  deriving DecidableEq, Repr

/-- What takes no value. -/
inductive Switch where
  | printConfig
  | verbose
  | help
  | version
  deriving DecidableEq, Repr

/-- What a name on a command line stands for. -/
inductive Named where
  | parameter (p : Parameter)
  | switch (s : Switch)
  deriving DecidableEq, Repr

/-- Names that follow two hyphens. -/
def Named.ofLong? : String → Option Named
  | "method" => some (.parameter .method)
  | "runs" => some (.parameter .runs)
  | "format" => some (.parameter .format)
  | "precision" => some (.parameter .precision)
  | "config" => some (.parameter .config)
  | "print-config" => some (.switch .printConfig)
  | "verbose" => some (.switch .verbose)
  | "help" => some (.switch .help)
  | "version" => some (.switch .version)
  | _ => none

/-- Letters that follow one hyphen. -/
def Named.ofLetter? : Char → Option Named
  | 'm' => some (.parameter .method)
  | 'r' => some (.parameter .runs)
  | 'f' => some (.parameter .format)
  | 'c' => some (.parameter .config)
  | 'v' => some (.switch .verbose)
  | 'h' => some (.switch .help)
  | 'V' => some (.switch .version)
  | _ => none

/-- A parameter in a message. -/
def Parameter.label : Parameter → String
  | .index => "[N]"
  | .method => "--method <METHOD>"
  | .runs => "--runs <RUNS>"
  | .format => "--format <FORMAT>"
  | .precision => "--precision <PRECISION>"
  | .config => "--config <PATH>"

/-- A switch in a message. -/
def Switch.label : Switch → String
  | .printConfig => "--print-config"
  | .verbose => "--verbose..."
  | .help => "--help"
  | .version => "--version"

/-- Why a value is refused. -/
inductive ValueFault where
  | integer (fault : Text.IntegerFault)
  /-- The number of runs does not fit thirty-two bits. -/
  | runsOutOfRange (runs : Int)
  | method (fault : UnknownMethod)
  | format (fault : Invalid)
  deriving DecidableEq, Repr

def ValueFault.message : ValueFault → String
  | .integer fault => fault.message
  | .runsOutOfRange runs => toString runs ++ " is not in 0..=" ++ toString (UInt32.size - 1)
  | .method fault => fault.message
  | .format fault => fault.message

/-- What ends the reading of a command line early. -/
inductive Stop where
  | invalidValue (value : String) (parameter : Parameter) (fault : ValueFault)
  | missingValue (parameter : Parameter)
  | unknownArgument (text : String)
  /-- Something that may be given once is given again. -/
  | repeated (label : String)
  /-- A switch is given a value. -/
  | surplusValue (value : String) (switch : Switch)
  | help
  | version
  deriving DecidableEq, Repr

def helpText : String :=
"CLI timing harness for fibstack

Usage: fibstack [OPTIONS] [N]

Arguments:
  [N]  Fibonacci index to compute [default: 30]

Options:
  -m, --method <METHOD>        Method to run (naive, stack); repeat or comma-separate for several
  -r, --runs <RUNS>            Timed repetitions per method
  -f, --format <FORMAT>        Output format (text, json)
      --precision <PRECISION>  Decimal places for millisecond timings
  -c, --config <PATH>          Configuration file (TOML)
      --print-config           Print the effective configuration and exit
  -v, --verbose...             Increase log verbosity (-v info, -vv debug, -vvv trace)
  -h, --help                   Print help
  -V, --version                Print version
"

def versionText : String :=
  "fibstack 0.1.0\n"

/-- A text between quotes in bold. The sequence that ends the bold ends whatever the text left
open. -/
def marked (s : String) : String :=
  "'\x1b[1m" ++ s ++ "\x1b[0m'"

/-- The words of a refusal: the reason and a hint, written without control sequences, those in the
reason included. -/
def refusal (reason : String) : String :=
  Text.Terminal.plainText <|
    "error: " ++ reason ++ "\n\nFor more information, try " ++ marked "--help" ++ ".\n"

/-- What is said when the reading stops. -/
def Stop.message : Stop → String
  | .invalidValue value parameter fault =>
    refusal <|
      "invalid value " ++ marked value ++ " for " ++ marked parameter.label ++ ": " ++ fault.message
  | .missingValue parameter =>
    refusal ("a value is required for " ++ marked parameter.label ++ " but none was supplied")
  | .unknownArgument text => refusal ("unexpected argument " ++ marked text ++ " found")
  | .repeated label =>
    refusal ("the argument " ++ marked label ++ " cannot be used multiple times")
  | .surplusValue value switch =>
    refusal <|
      "unexpected value " ++ marked value ++ " for " ++ marked switch.label ++
        " found; no more were expected"
  | .help => helpText
  | .version => versionText

/-! ## Values -/

def readWord (s : String) : Except ValueFault UInt64 :=
  match Text.parseNat (UInt64.size - 1) s with
  | .ok n => .ok (UInt64.ofNat n)
  | .error fault => .error (.integer fault)

def readRuns (s : String) : Except ValueFault UInt32 :=
  match Text.parseInt64 s with
  | .ok n =>
    if 0 ≤ n && n < UInt32.size then .ok (UInt32.ofNat n.toNat) else .error (.runsOutOfRange n)
  | .error fault => .error (.integer fault)

/-- Reads a value of a parameter. -/
def reading {α : Type} (p : Parameter) (read : String → Except ValueFault α) (value : String) :
    Except Stop α :=
  (read value).mapError (.invalidValue value p)

/-- Refuses what is set already. -/
def once {α : Type} (p : Parameter) (current : Option α) : Except Stop Unit :=
  match current with
  | none => .ok ()
  | some _ => .error (.repeated p.label)

/-- Sets a parameter to a value. -/
def assign (line : CommandLine) (p : Parameter) (value : String) : Except Stop CommandLine :=
  match p with
  | .index => do
    once p line.n
    return { line with n := some (← reading p readWord value) }
  | .method => do
    let methods ← (Text.split ',' value).mapM <|
      reading p fun s => (Method.parse s).mapError .method
    return { line with methods := line.methods ++ methods }
  | .runs => do
    once p line.runs
    return { line with runs := some (← reading p readRuns value) }
  | .format => do
    once p line.format
    let format ← reading p (fun s => (OutputFormat.parse s).mapError .format) value
    return { line with format := some format }
  | .precision => do
    once p line.precision
    return { line with precision := some (← reading p readWord value) }
  | .config => do
    once p line.configPath
    if value.isEmpty then .error (.missingValue p)
    return { line with configPath := some value }

/-- Acts on a switch. The verbosity stays at its greatest value. -/
def turn (line : CommandLine) : Switch → Except Stop CommandLine
  | .printConfig =>
    if line.printConfig then .error (.repeated Switch.printConfig.label)
    else .ok { line with printConfig := true }
  | .verbose =>
    .ok { line with verbosity := if line.verbosity = 255 then 255 else line.verbosity + 1 }
  | .help => .error .help
  | .version => .error .version

end Unroll.CommandLine
