import Unroll.Method

/-!
# Configurations

What to compute, how often, and how to report it. A configuration that cannot be run is refused by
`Config.validate`, which reports the first fault in a fixed order.
-/

namespace Unroll

/-- How a report is written. -/
inductive OutputFormat where
  | text
  | json
  deriving DecidableEq, Repr

/-- What to compute and how often. -/
structure RunConfig where
  /-- The index of the Fibonacci number. -/
  n : UInt64
  /-- The methods to run, in order and with repeats. -/
  methods : List Method
  /-- Timed repetitions per method. -/
  runs : UInt32
  deriving DecidableEq, Repr

/-- How to report. -/
structure OutputConfig where
  format : OutputFormat
  /-- Decimal places of timings in milliseconds. -/
  precision : UInt64
  deriving DecidableEq, Repr

structure Config where
  run : RunConfig
  output : OutputConfig
  deriving DecidableEq, Repr

/-- Why a value is refused although it is well formed. -/
inductive Invalid where
  | noMethods
  | noRuns
  | precisionTooLarge (precision : UInt64)
  /-- Carries the name in lower case and without padding. -/
  | unknownFormat (name : String)
  deriving DecidableEq, Repr

def RunConfig.initial : RunConfig :=
  { n := 30, methods := Method.all, runs := 1 }

def OutputConfig.initial : OutputConfig :=
  { format := .text, precision := 2 }

/-- The configuration of a run for which nothing is set. -/
def Config.initial : Config :=
  { run := .initial, output := .initial }

/-- The largest number of decimal places. -/
def maxPrecision : UInt64 := 9

def Invalid.message : Invalid → String
  | .noMethods => "Invalid configuration: run.methods must name at least one method"
  | .noRuns => "Invalid configuration: run.runs must be at least 1"
  | .precisionTooLarge p =>
    "Invalid configuration: output.precision must be at most " ++ toString maxPrecision.toNat ++
      ", got " ++ toString p.toNat
  | .unknownFormat name =>
    "Invalid configuration: unknown output format '" ++ name ++ "' (expected 'text' or 'json')"

/-- Accepts the configurations that can be run. -/
def Config.validate (c : Config) : Except Invalid Unit :=
  if c.run.methods.isEmpty then .error .noMethods
  else if c.run.runs = 0 then .error .noRuns
  else if c.output.precision > maxPrecision then .error (.precisionTooLarge c.output.precision)
  else .ok ()

namespace OutputFormat

/-- Every format. -/
def all : List OutputFormat := [text, json]

/-- The canonical name. -/
def name : OutputFormat → String
  | text => "text"
  | json => "json"

/-- The format with the given name, in lower case and without padding. -/
def ofName? : String → Option OutputFormat
  | "text" => some text
  | "json" => some json
  | _ => none

/-- Reads a format from a name that may be padded and in any ASCII case. -/
def parse (s : String) : Except Invalid OutputFormat :=
  let name := Text.asciiLower (Text.trim s)
  match ofName? name with
  | some f => .ok f
  | none => .error (.unknownFormat name)

end OutputFormat

end Unroll
