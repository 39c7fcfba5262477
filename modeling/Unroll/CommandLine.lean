import Unroll.Config

/-!
# Command lines

What a command line asks for. What it sets replaces the values of a configuration, and the rest of
the configuration stays.
-/

namespace Unroll

structure CommandLine where
  /-- The index of the Fibonacci number. -/
  n : Option UInt64 := none
  /-- The methods to run; none leaves those of the configuration. -/
  methods : List Method := []
  runs : Option UInt32 := none
  format : Option OutputFormat := none
  precision : Option UInt64 := none
  /-- The path of a configuration file. -/
  configPath : Option String := none
  /-- Print the configuration instead of running it. -/
  printConfig : Bool := false
  /-- How often more log lines were asked for. -/
  verbosity : UInt8 := 0
  deriving DecidableEq, Repr

/-- Replaces what the command line sets. -/
def CommandLine.apply (line : CommandLine) (c : Config) : Config where
  run := {
    n := line.n.getD c.run.n
    methods := if line.methods.isEmpty then c.run.methods else line.methods
    runs := line.runs.getD c.run.runs }
  output := {
    format := line.format.getD c.output.format
    precision := line.precision.getD c.output.precision }

end Unroll
