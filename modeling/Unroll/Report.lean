import Unroll.Config
import Unroll.Json
import Unroll.Measurement

/-!
# Reports

The measurements for one index, whether they agree on the value, and the report as a text and as
JSON.
-/

namespace Unroll

structure Report where
  n : UInt64
  runs : UInt32
  measurements : List Measurement
  /-- Whether all measurements have the same value. -/
  agree : Bool
  deriving DecidableEq, Repr

/-- A number cannot be written with so many places. -/
inductive RenderFault where
  | tooManyPlaces
  deriving DecidableEq, Repr

/-- Whether every measurement has the value of the one before it. -/
def neighboursAgree : List Measurement → Bool
  | a :: b :: rest => a.value == b.value && neighboursAgree (b :: rest)
  | _ => true

/-- The largest number of places with which a number can be written. -/
def maxPlaces : Nat := 65535

namespace Report

def ofMeasurements (n : UInt64) (runs : UInt32) (measurements : List Measurement) : Report :=
  { n, runs, measurements, agree := neighboursAgree measurements }

/-! ## Text -/

/-- The value that was computed, as in `fib(30) = 832040`. -/
def valueLine (n : UInt64) (m : Measurement) : String :=
  callText m.label n ++ " = " ++ toString m.value.toNat

/-- The time of a call, the mean of several if there were more. -/
def timeLine (precision : Nat) (m : Measurement) : String :=
  "Time: " ++ m.meanMs.fixed precision ++ "ms" ++
    if 1 < m.runs then " (mean of " ++ toString m.runs.toNat ++ " runs)" else ""

/-- Two lines for each measurement. -/
def lines (r : Report) (precision : Nat) : List String :=
  r.measurements.flatMap fun m => [valueLine r.n m, timeLine precision m]

def text (r : Report) (precision : Nat) : String :=
  "\n".intercalate (r.lines precision)

/-! ## JSON -/

def statsJson (s : StackStats) : Json :=
  .obj [
    ("pops", .word s.pops),
    ("pushes", .word s.pushes),
    ("peak_depth", .nat s.peakDepth),
    ("slots", .nat s.slots)]

def measurementJson (m : Measurement) : Json :=
  .obj ([
    ("method", .str m.method.name),
    ("label", .str m.label),
    ("value", .word m.value),
    ("runs", .nat m.runs.toNat),
    ("total_ms", .float m.totalMs),
    ("mean_ms", .float m.meanMs)] ++
    match m.stackStats with
    | some s => [("stack_stats", statsJson s)]
    | none => [])

def toJson (r : Report) : Json :=
  .obj [
    ("n", .word r.n),
    ("runs", .nat r.runs.toNat),
    ("measurements", .arr (r.measurements.map measurementJson)),
    ("agree", .bool r.agree)]

/-- The report in a format. The precision is for texts. -/
def render (r : Report) (format : OutputFormat) (precision : UInt64) : Except RenderFault String :=
  match format with
  | .text =>
    if maxPlaces < precision.toNat && !r.measurements.isEmpty then .error .tooManyPlaces
    else .ok (r.text precision.toNat)
  | .json => .ok r.toJson.pretty

end Report

end Unroll
