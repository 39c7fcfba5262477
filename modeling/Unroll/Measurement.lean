import Unroll.Double.Arithmetic
import Unroll.Double.Fixed
import Unroll.Fibonacci.Traced
import Unroll.Log
import Unroll.Method

/-!
# Measurements

`measure` runs a method several times and adds up how long the calls took. Every call has to give
the same value. For the stack it may look once more at the use of the stack, outside of the timed
calls.

How long a call takes is not up to the program: a `Stopwatch` says it.
-/

namespace Unroll

/-- The nanoseconds that each call takes, by the number of the run from one. -/
abbrev Stopwatch := Nat → Nat

/-- The value of a method and its timing over one or more runs. -/
structure Measurement where
  method : Method
  label : String
  value : UInt64
  runs : UInt32
  totalMs : Double
  meanMs : Double
  /-- The use of the stack, if it was asked for. -/
  stackStats : Option StackStats
  deriving DecidableEq, Repr

/-- Why there is no measurement. -/
inductive MeasureFault where
  | noRuns
  /-- A run gives another value than the runs before. -/
  | changed (label : String) (n result : UInt64) (run : Nat) (previous : UInt64)
  /-- No run gave a value. -/
  | noValue (label : String) (n : UInt64)
  /-- A sum does not fit its word. -/
  | overflow
  deriving DecidableEq, Repr

/-- A call in a message. -/
def callText (label : String) (n : UInt64) : String :=
  label ++ "(" ++ toString n.toNat ++ ")"

def MeasureFault.message : MeasureFault → String
  | noRuns => "runs must be at least 1"
  | changed label n result run previous =>
    callText label n ++ " returned " ++ toString result.toNat ++ " on run " ++ toString run ++
      " but " ++ toString previous.toNat ++ " before"
  | noValue label n => "no runs were made for " ++ callText label n
  | overflow => "attempt to add with overflow"

namespace Measurement

/-- Nanoseconds in milliseconds. -/
def milliseconds (nanoseconds : Nat) : Double :=
  .ofRatio false nanoseconds 1000000

/-- Milliseconds in a log line. -/
def millisecondsText (ms : Double) : String :=
  ms.fixed 3 ++ "ms"

/-- What is known after some runs. -/
structure Tally where
  value : Option UInt64
  totalMs : Double
  deriving DecidableEq, Repr

def Tally.start : Tally :=
  { value := none, totalMs := .zero false }

def ofChecked {α : Type} (x : Checked α) : Logged MeasureFault α :=
  .ofExcept (x.mapError fun _ => .overflow)

/-- One more run. -/
def timeRun (stopwatch : Stopwatch) (method : Method) (n : UInt64) (runs : UInt32)
    (tally : Tally) (run : Nat) : Logged MeasureFault Tally := do
  let result ← ofChecked (method.compute n)
  let elapsed := milliseconds (stopwatch run)
  .say .debug .timing <|
    callText method.label n ++ " run " ++ toString run ++ "/" ++ toString runs.toNat ++ ": " ++
      millisecondsText elapsed
  let totalMs := tally.totalMs.add elapsed
  match tally.value with
  | none => return { value := some result, totalMs }
  | some previous =>
    if previous = result then return { value := some previous, totalMs }
    else .fail (.changed method.label n result run previous)

/-- The use of the stack in one more call. -/
def traceStack (n : UInt64) : Logged MeasureFault StackStats := do
  let result ← ofChecked (fibTraced n)
  let stats := result.stats
  .say .debug .unrolling <|
    "Unrolled " ++ callText Method.stack.label n ++ ": " ++ toString stats.pops.toNat ++
      " pops, " ++ toString stats.pushes.toNat ++ " pushes, peak depth " ++
      toString stats.peakDepth
  return stats

end Measurement

/-- Runs a method and times the calls. -/
def measure (stopwatch : Stopwatch) (method : Method) (n : UInt64) (runs : UInt32) (trace : Bool) :
    Logged MeasureFault Measurement :=
  if runs = 0 then
    .fail .noRuns
  else do
    let tally ← (List.range' 1 runs.toNat).foldlM
      (Measurement.timeRun stopwatch method n runs) Measurement.Tally.start
    match tally.value with
    | none => .fail (.noValue method.label n)
    | some value =>
      let stackStats ←
        if method = .stack && trace then some <$> Measurement.traceStack n else pure none
      return {
        method
        label := method.label
        value
        runs
        totalMs := tally.totalMs
        meanMs := tally.totalMs.divNat runs.toNat
        stackStats }

end Unroll
