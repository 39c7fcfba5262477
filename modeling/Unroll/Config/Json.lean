import Unroll.Config
import Unroll.Json.Decode

/-!
# Configurations as JSON

`Config.toJson` writes a configuration as an object of two sections. `Config.ofJson` reads one: a
section or field that is missing has its initial value, other names do not matter, and a section may
also be an array of its fields in order. The fields of an object are read in the order of their
names, which decides between two faults.
-/

namespace Unroll

open Json (Mismatch)

def Method.ofJson (v : Json) : Except Mismatch Method :=
  v.decodeName Method.all Method.name

def OutputFormat.ofJson (v : Json) : Except Mismatch OutputFormat :=
  v.decodeName OutputFormat.all OutputFormat.name

namespace RunConfig

def toJson (c : RunConfig) : Json :=
  .obj [
    ("n", .word c.n),
    ("methods", .arr (c.methods.map fun m => .str m.name)),
    ("runs", .nat c.runs.toNat)]

def decodeN (v : Json) : Except Mismatch UInt64 :=
  (v.decodeNat "u64" UInt64.size).map UInt64.ofNat

def decodeMethods (v : Json) : Except Mismatch (List Method) :=
  v.decodeList Method.ofJson

def decodeRuns (v : Json) : Except Mismatch UInt32 :=
  (v.decodeNat "u32" UInt32.size).map UInt32.ofNat

def ofJson (v : Json) : Except Mismatch RunConfig :=
  match v with
  | .obj _ => do
    let methods ← v.field "methods" initial.methods decodeMethods
    let n ← v.field "n" initial.n decodeN
    let runs ← v.field "runs" initial.runs decodeRuns
    return { n, methods, runs }
  | .arr items => do
    let n ← Json.item items 0 initial.n decodeN
    let methods ← Json.item items 1 initial.methods decodeMethods
    let runs ← Json.item items 2 initial.runs decodeRuns
    Json.checkLength items 3
    return { n, methods, runs }
  | _ => .error (.kind v "struct RunConfig")

end RunConfig

namespace OutputConfig

def toJson (c : OutputConfig) : Json :=
  .obj [("format", .str c.format.name), ("precision", .word c.precision)]

def decodePrecision (v : Json) : Except Mismatch UInt64 :=
  (v.decodeNat "usize" UInt64.size).map UInt64.ofNat

def ofJson (v : Json) : Except Mismatch OutputConfig :=
  match v with
  | .obj _ => do
    let format ← v.field "format" initial.format OutputFormat.ofJson
    let precision ← v.field "precision" initial.precision decodePrecision
    return { format, precision }
  | .arr items => do
    let format ← Json.item items 0 initial.format OutputFormat.ofJson
    let precision ← Json.item items 1 initial.precision decodePrecision
    Json.checkLength items 2
    return { format, precision }
  | _ => .error (.kind v "struct OutputConfig")

end OutputConfig

namespace Config

def toJson (c : Config) : Json :=
  .obj [("run", c.run.toJson), ("output", c.output.toJson)]

def ofJson (v : Json) : Except Mismatch Config :=
  match v with
  | .obj _ => do
    let output ← v.field "output" .initial OutputConfig.ofJson
    let run ← v.field "run" .initial RunConfig.ofJson
    return { run, output }
  | .arr items => do
    let run ← Json.item items 0 .initial RunConfig.ofJson
    let output ← Json.item items 1 .initial OutputConfig.ofJson
    Json.checkLength items 2
    return { run, output }
  | _ => .error (.kind v "struct Config")

end Config

end Unroll
