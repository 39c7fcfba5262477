import Unroll.CommandLine
import Unroll.Setting.Decode

/-!
# The fields of a configuration

A configuration is a value for each of its fields (`Config.ofFields`, `Config.get`). Everything that
is done to configurations is done field by field: a check (`Config.validate_eq_ok_iff`), a command
line (`CommandLine.get_apply`), and the reading of a tree of settings (`Config.ofSetting_eq_ok_iff`,
`Config.Section.reads_table`). What is proved for an arbitrary field holds of all of them, and only
the tables of this file know how many there are.
-/

namespace Unroll

open Setting (Fault lookup)

/-- What is found under a name does not depend on the order of entries with different names. -/
theorem find?_eq_of_perm {α : Type} {es es' : List (String × α)} (hperm : es.Perm es')
    (hnodup : (es.map Prod.fst).Nodup) (name : String) :
    es.find? (·.1 == name) = es'.find? (·.1 == name) := by
  induction hperm with
  | nil => rfl
  | cons e _ ih => rw [List.find?_cons, List.find?_cons, ih (List.nodup_cons.1 hnodup).2]
  | swap first second es =>
    have hne : second.1 ≠ first.1 := by
      rintro heq
      simp [heq] at hnodup
    by_cases hfirst : first.1 = name
    · have hsecond : second.1 ≠ name := hfirst ▸ hne
      simp [hfirst, hsecond]
    · simp [List.find?_cons, hfirst]
  | trans hperm _ ih₁ ih₂ =>
    exact (ih₁ hnodup).trans (ih₂ ((hperm.map Prod.fst).nodup_iff.1 hnodup))

namespace Config

inductive Section where
  | run
  | output
  deriving DecidableEq, Repr

inductive Field where
  | n
  | methods
  | runs
  | format
  | precision
  deriving DecidableEq, Repr

def Section.name : Section → String
  | run => "run"
  | output => "output"

namespace Field

/-- What a field holds. -/
abbrev Value : Field → Type
  | n => UInt64
  | methods => List Method
  | runs => UInt32
  | format => OutputFormat
  | precision => UInt64

/-- The section of a field. -/
def parent : Field → Section
  | n | methods | runs => .run
  | format | precision => .output

/-- The name of a field within its section. -/
def name : Field → String
  | n => "n"
  | methods => "methods"
  | runs => "runs"
  | format => "format"
  | precision => "precision"

/-- Reads the value of a field out of a setting. -/
def decode : (f : Field) → Setting → Except Fault f.Value
  | n => Setting.toWord "run.n"
  | methods => Setting.toMethods
  | runs => Setting.toHalfWord "run.runs"
  | format => Setting.toFormat
  | precision => Setting.toWord "output.precision"

/-- The values of a field that can be run. -/
def Valid : (f : Field) → f.Value → Prop
  | n, _ => True
  | methods, ms => ms ≠ []
  | runs, k => k ≠ 0
  | format, _ => True
  | precision, p => p ≤ maxPrecision

end Field

def get (c : Config) : (f : Field) → f.Value
  | .n => c.run.n
  | .methods => c.run.methods
  | .runs => c.run.runs
  | .format => c.output.format
  | .precision => c.output.precision

/-- The configuration with the given values. -/
def ofFields (value : (f : Field) → f.Value) : Config where
  run := { n := value .n, methods := value .methods, runs := value .runs }
  output := { format := value .format, precision := value .precision }

@[simp]
theorem get_ofFields (value : (f : Field) → f.Value) (f : Field) :
    (ofFields value).get f = value f := by
  cases f <;> rfl

theorem ext_get {c d : Config} (h : ∀ f, c.get f = d.get f) : c = d := by
  have hn : c.run.n = d.run.n := h .n
  have hmethods : c.run.methods = d.run.methods := h .methods
  have hruns : c.run.runs = d.run.runs := h .runs
  have hformat : c.output.format = d.output.format := h .format
  have hprecision : c.output.precision = d.output.precision := h .precision
  obtain ⟨⟨_, _, _⟩, ⟨_, _⟩⟩ := c
  obtain ⟨⟨_, _, _⟩, ⟨_, _⟩⟩ := d
  simp only at hn hmethods hruns hformat hprecision
  subst hn hmethods hruns hformat hprecision
  rfl

theorem ofFields_get (c : Config) : ofFields c.get = c := by
  apply ext_get
  intro f
  rw [get_ofFields]

theorem validate_eq_ok_iff {c : Config} : c.validate = .ok () ↔ ∀ f : Field, f.Valid (c.get f) := by
  unfold validate
  constructor
  · intro h f
    split at h
    · cases h
    · next hmethods =>
      split at h
      · cases h
      · next hruns =>
        split at h
        · cases h
        · next hprecision =>
          cases f with
          | n => trivial
          | methods => exact mt List.isEmpty_iff.2 hmethods
          | runs => exact hruns
          | format => trivial
          | precision => exact UInt64.not_lt.1 hprecision
  · intro h
    have hmethods : ¬ c.run.methods.isEmpty = true := mt List.isEmpty_iff.1 (h .methods)
    have hruns : ¬ c.run.runs = 0 := h .runs
    have hprecision : ¬ c.output.precision > maxPrecision := UInt64.not_lt.2 (h .precision)
    rw [if_neg hmethods, if_neg hruns, if_neg hprecision]

end Config

/-! ## Command lines -/

namespace CommandLine

/-- The value that a command line sets a field to. -/
def given? (line : CommandLine) : (f : Config.Field) → Option f.Value
  | .n => line.n
  | .methods => if line.methods.isEmpty then none else some line.methods
  | .runs => line.runs
  | .format => line.format
  | .precision => line.precision

theorem get_apply (line : CommandLine) (c : Config) (f : Config.Field) :
    (line.apply c).get f = (line.given? f).getD (c.get f) := by
  cases f with
  | methods =>
    show (if line.methods.isEmpty then c.run.methods else line.methods) = _
    rw [given?]
    split <;> rfl
  | _ => rfl

/-- Of several command lines the last one that sets a field counts. -/
theorem get_foldl_apply (lines : List CommandLine) (c : Config) (f : Config.Field) :
    (lines.foldl (fun c line => line.apply c) c).get f =
      (lines.reverse.findSome? (·.given? f)).getD (c.get f) := by
  induction lines generalizing c with
  | nil => rfl
  | cons line rest ih =>
    rw [List.foldl_cons, ih, get_apply, List.reverse_cons, List.findSome?_append]
    cases rest.reverse.findSome? (·.given? f) with
    | some v => rfl
    | none =>
      cases h : line.given? f <;> simp [h]

end CommandLine

/-! ## Reading settings -/

namespace Config

/-- The value of a field that may be missing. -/
def Field.read (f : Field) : Option Setting → Except Fault f.Value
  | some v => f.decode v
  | none => .ok (initial.get f)

/-- A section that may be missing has the values of a configuration. -/
def Section.Reads (v : Option Setting) (c : Config) : Section → Prop
  | run => v.elim (.ok .initial) RunConfig.ofSetting = .ok c.run
  | output => v.elim (.ok .initial) OutputConfig.ofSetting = .ok c.output

theorem bind_eq_ok_iff {ε α β : Type} {x : Except ε α} {f : α → Except ε β} {b : β} :
    (x >>= f) = .ok b ↔ ∃ a, x = .ok a ∧ f a = .ok b := by
  cases x with
  | error e =>
    constructor
    · intro h
      cases h
    · rintro ⟨a, h, -⟩
      cases h
  | ok a =>
    constructor
    · intro h
      exact ⟨a, rfl, h⟩
    · rintro ⟨a', h, hf⟩
      cases h
      exact hf

theorem mapError_eq_ok_iff {ε ε' α : Type} {x : Except ε α} {f : ε → ε'} {a : α} :
    x.mapError f = .ok a ↔ x = .ok a := by
  cases x with
  | error e =>
    constructor
    · intro h
      cases h
    · intro h
      cases h
  | ok b =>
    constructor
    · intro h
      rw [show b = a from Except.ok.inj h]
    · intro h
      rw [Except.ok.inj h]
      rfl

theorem ofSetting_eq_ok_iff {tree : Setting} {c : Config} :
    ofSetting tree = .ok c ↔ ∀ s : Section, s.Reads (lookup s.name tree.entries) c := by
  unfold ofSetting
  simp only [bind_eq_ok_iff]
  constructor
  · rintro ⟨r, hr, o, ho, h⟩ s
    cases h
    cases s with
    | run =>
      show (lookup "run" tree.entries).elim _ _ = _
      cases hfound : lookup "run" tree.entries <;> rw [hfound] at hr <;> exact hr
    | output =>
      show (lookup "output" tree.entries).elim _ _ = _
      cases hfound : lookup "output" tree.entries <;> rw [hfound] at ho <;> exact ho
  · intro h
    have hr : (lookup "run" tree.entries).elim _ _ = _ := h .run
    have ho : (lookup "output" tree.entries).elim _ _ = _ := h .output
    refine ⟨c.run, ?_, c.output, ?_, rfl⟩
    · cases hfound : lookup "run" tree.entries <;> rw [hfound] at hr <;> exact hr
    · cases hfound : lookup "output" tree.entries <;> rw [hfound] at ho <;> exact ho

/-- A field of a table is read like any other. -/
theorem field_table (f : Field) (origin : Option String) (entries : List (String × Setting))
    (position : Nat) (decode : String → Setting → Except Fault f.Value)
    (hdecode : decode (f.parent.name ++ "." ++ f.name) = f.decode) :
    (Setting.table origin entries).field f.parent.name f.name position (initial.get f) decode =
      f.read (lookup f.name entries) := by
  unfold Setting.field
  cases hfound : lookup f.name entries with
  | some v =>
    simp only [hfound, hdecode]
    rfl
  | none =>
    simp only [hfound]
    rfl

theorem Section.reads_table {s : Section} {origin : Option String}
    {entries : List (String × Setting)} {c : Config} :
    s.Reads (some (.table origin entries)) c ↔
      ∀ f : Field, f.parent = s → f.read (lookup f.name entries) = .ok (c.get f) := by
  cases s with
  | run =>
    have hn := field_table .n origin entries 0 Setting.toWord rfl
    have hmethods := field_table .methods origin entries 1 (fun _ => Setting.toMethods) rfl
    have hruns := field_table .runs origin entries 2 Setting.toHalfWord rfl
    constructor
    · intro h f hf
      simp only [Reads, Option.elim_some, RunConfig.ofSetting, bind_eq_ok_iff] at h
      obtain ⟨-, -, n, hn', methods, hmethods', runs, hruns', h⟩ := h
      obtain ⟨_, output⟩ := c
      cases h
      cases f with
      | n => exact hn.symm.trans hn'
      | methods => exact hmethods.symm.trans hmethods'
      | runs => exact hruns.symm.trans hruns'
      | format => cases hf
      | precision => cases hf
    · intro h
      simp only [Reads, Option.elim_some, RunConfig.ofSetting, bind_eq_ok_iff]
      exact ⟨(), rfl, _, hn.trans (h .n rfl), _, hmethods.trans (h .methods rfl), _,
        hruns.trans (h .runs rfl), rfl⟩
  | output =>
    have hformat := field_table .format origin entries 0 (fun _ => Setting.toFormat) rfl
    have hprecision := field_table .precision origin entries 1 Setting.toWord rfl
    constructor
    · intro h f hf
      simp only [Reads, Option.elim_some, OutputConfig.ofSetting, bind_eq_ok_iff] at h
      obtain ⟨-, -, format, hformat', precision, hprecision', h⟩ := h
      obtain ⟨run, _⟩ := c
      cases h
      cases f with
      | n => cases hf
      | methods => cases hf
      | runs => cases hf
      | format => exact hformat.symm.trans hformat'
      | precision => exact hprecision.symm.trans hprecision'
    · intro h
      simp only [Reads, Option.elim_some, OutputConfig.ofSetting, bind_eq_ok_iff]
      exact ⟨(), rfl, _, hformat.trans (h .format rfl), _, hprecision.trans (h .precision rfl), rfl⟩

end Config

end Unroll
