import Unroll.Report

/-!
# Executing a configuration

`execute` measures every method of a configuration in turn and writes the report. Nothing is written
unless every method could be measured.
-/

namespace Unroll

/-- The nanoseconds of each call, by the position of the method and the number of the run. -/
abbrev Clock := Nat → Stopwatch

/-- A report and what was written of it. -/
structure Execution where
  report : Report
  output : String
  deriving DecidableEq, Repr

/-- Why an execution fails. -/
inductive ExecuteFault where
  | measure (method : Method) (fault : MeasureFault)
  | render (fault : RenderFault)
  deriving DecidableEq, Repr

namespace ExecuteFault

/-- The messages of a fault and of what is behind it. -/
def chain : ExecuteFault → List String
  | measure method fault => ["Failed to measure " ++ method.name ++ " method", fault.message]
  | render .tooManyPlaces => ["Formatting argument out of range"]

/-- Whether the fault is beyond what a run can report. -/
def isFatal : ExecuteFault → Bool
  | measure _ .overflow => true
  | measure _ _ => false
  | render .tooManyPlaces => true

end ExecuteFault

/-- The use of the stack is part of JSON reports only. -/
def Config.tracesStack (c : Config) : Bool :=
  c.output.format = .json

/-- Measures a method of a configuration. -/
def measureMethod (c : Config) (stopwatch : Stopwatch) (method : Method) :
    Logged ExecuteFault Measurement := do
  let m ← (measure stopwatch method c.run.n c.run.runs c.tracesStack).mapError (.measure method)
  .say .info .program <|
    callText m.label c.run.n ++ " = " ++ toString m.value.toNat ++ " in " ++
      Measurement.millisecondsText m.meanMs
  return m

/-- Measures methods in turn, the first of them at the given position. -/
def measureMethods (c : Config) (clock : Clock) :
    Nat → List Method → Logged ExecuteFault (List Measurement)
  | _, [] => return []
  | position, method :: rest => do
    let m ← measureMethod c (clock position) method
    return m :: (← measureMethods c clock (position + 1) rest)

/-- Measures every method of a configuration and writes the report, with a line end after it. -/
def execute (c : Config) (clock : Clock) : Logged ExecuteFault Execution := do
  .say .info .program <|
    "Computing fib(" ++ toString c.run.n.toNat ++ ") with " ++ toString c.run.methods.length ++
      " method(s), " ++ toString c.run.runs.toNat ++ " run(s) each"
  let measurements ← measureMethods c clock 0 c.run.methods
  let report := Report.ofMeasurements c.run.n c.run.runs measurements
  unless report.agree do
    .say .warn .program ("Methods disagree on fib(" ++ toString c.run.n.toNat ++ ")")
  let rendered ←
    .ofExcept ((report.render c.output.format c.output.precision).mapError .render)
  return { report, output := rendered ++ "\n" }

end Unroll
