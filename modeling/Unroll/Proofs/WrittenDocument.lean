import Unroll.Proofs.Layering
import Unroll.Proofs.TomlText

/-!
# Writing a configuration and loading it

`Config.toToml` writes a section for each part of a configuration and a line for each field. The
text is read as a document that sets every field (`Config.parse?_toToml`), so loading it gives the
configuration back, or the reason for which it cannot be run (`Config.load_toToml`).
-/

namespace Unroll

open Config (Field Section)

namespace Config

/-! ## The text -/

/-- How a document shows the value of a field. -/
def Field.text : (f : Field) → f.Value → String
  | n, v => toString v.toNat
  | methods, ms => tomlNames (ms.map Method.name)
  | runs, v => toString v.toNat
  | format, v => "\"" ++ v.name ++ "\""
  | precision, v => toString v.toNat

/-- The values of a field that a document can hold. -/
def Field.Fits : (f : Field) → f.Value → Prop
  | n, v => v.toNat < SignedWord.bound
  | methods, _ => True
  | runs, _ => True
  | format, _ => True
  | precision, v => v.toNat < SignedWord.bound

theorem forall_fits_iff {c : Config} : (∀ f : Field, f.Fits (c.get f)) ↔
    c.run.n.toNat < SignedWord.bound ∧ c.output.precision.toNat < SignedWord.bound := by
  constructor
  · intro h
    exact ⟨h .n, h .precision⟩
  · rintro ⟨hn, hprecision⟩ f
    cases f with
    | n => exact hn
    | precision => exact hprecision
    | _ => trivial

/-- The line of a field. -/
def pair (c : Config) (f : Field) : Toml.Pair where
  name := f.name
  text := (f.text (c.get f)).toList
  value := f.toToml (c.get f)

/-- The sections with the lines of their fields. -/
def tables (c : Config) : List (String × List Toml.Pair) :=
  [Section.run, .output].map fun s => (s.name, s.fields.map c.pair)

theorem toToml_of_fits {c : Config} (h : ∀ f : Field, f.Fits (c.get f)) :
    c.toToml = .ok (String.ofList (Toml.documentLines c.tables)) := by
  obtain ⟨hn, hprecision⟩ := forall_fits_iff.1 h
  unfold toToml tomlInteger
  rw [if_pos hn, if_pos hprecision]
  show Except.ok _ = Except.ok _
  congr 1
  apply String.toList_injective
  simp [tables, Toml.documentLines, Toml.tableLines, Toml.Pair.line, pair, Section.fields,
    Section.name, Field.name, Field.text, get]

theorem toToml_of_not_fits {c : Config} (h : ¬ ∀ f : Field, f.Fits (c.get f)) :
    c.toToml = .error .outOfRange := by
  rw [forall_fits_iff] at h
  unfold toToml tomlInteger
  by_cases hn : c.run.n.toNat < SignedWord.bound
  · have hprecision : ¬ c.output.precision.toNat < SignedWord.bound := fun hp => h ⟨hn, hp⟩
    rw [if_pos hn, if_neg hprecision]
    rfl
  · rw [if_neg hn]
    rfl

/-! ## Reading the text -/

theorem Section.isBare_name (s : Section) : Toml.IsBare s.name := by
  cases s <;> decide

theorem Field.isBare_name (f : Field) : Toml.IsBare f.name := by
  cases f <;> decide

theorem Field.renders_text {f : Field} {v : f.Value} (h : f.Fits v) :
    Toml.Renders (f.text v).toList (f.toToml v) := by
  cases f with
  | n => exact Toml.renders_toString h
  | methods =>
    have hbare : ∀ name ∈ v.map Method.name, Toml.IsBare name := by
      intro name hname
      obtain ⟨m, -, rfl⟩ := List.mem_map.1 hname
      cases m <;> decide
    have hnames := Toml.renders_names hbare
    rw [List.map_map] at hnames
    exact hnames
  | runs => exact Toml.renders_toString (Nat.lt_trans v.toNat_lt_size (by decide))
  | format =>
    have hbare : Toml.IsBare v.name := by
      cases v <;> decide
    rw [text, String.toList_append, String.toList_append]
    exact Toml.renders_quoted hbare
  | precision => exact Toml.renders_toString h

theorem Field.resolve?_toToml (f : Field) (v : f.Value) :
    Toml.resolve? (f.toToml v) = some (f.toToml v) := by
  cases f with
  | methods =>
    have hitems : ∀ item ∈ v.map fun m => Toml.str m.name, Toml.resolve? item = some item := by
      intro item hitem
      obtain ⟨m, -, rfl⟩ := List.mem_map.1 hitem
      rfl
    rw [toToml, Toml.resolve?, Toml.resolveItems?_self hitems]
    rfl
  | _ => rfl

theorem isDocument_tables {c : Config} (h : ∀ f : Field, f.Fits (c.get f)) :
    Toml.IsDocument c.tables := by
  refine ⟨?_, ?_, ?_, ?_⟩
  · intro t ht
    obtain ⟨s, -, rfl⟩ := List.mem_map.1 ht
    exact s.isBare_name
  · show ([Section.run, .output].map Section.name).Nodup
    decide
  · intro t ht p hp
    obtain ⟨s, -, rfl⟩ := List.mem_map.1 ht
    obtain ⟨f, -, rfl⟩ := List.mem_map.1 hp
    exact ⟨f.isBare_name, Field.renders_text (h f), f.resolve?_toToml (c.get f)⟩
  · intro t ht
    obtain ⟨s, -, rfl⟩ := List.mem_map.1 ht
    rw [List.map_map]
    show (s.fields.map Field.name).Nodup
    cases s <;> decide

/-- The document of a configuration. -/
def toEntries (c : Config) : List (String × Toml) :=
  [Section.run, .output].map fun s =>
    (s.name, .table (s.fields.map fun f => (f.name, f.toToml (c.get f))))

/-- What is written is the document of the configuration. -/
theorem parse?_toToml {c : Config} {text : String} (h : c.toToml = .ok text) :
    Toml.parse? text = some c.toEntries := by
  have hfits : ∀ f : Field, f.Fits (c.get f) := by
    by_contra hnot
    rw [toToml_of_not_fits hnot] at h
    cases h
  rw [toToml_of_fits hfits] at h
  obtain rfl := Except.ok.inj h
  exact (isDocument_tables hfits).parse?

/-! ## Loading the text -/

theorem Section.parent_of_mem {s : Section} {f : Field} (h : f ∈ s.fields) : f.parent = s := by
  cases s <;> cases f <;> first | rfl | exact absurd h (by decide)

theorem setsFields_toEntries (c : Config) :
    Document.SetsFields c.toEntries fun f => some (c.get f) := by
  refine ⟨?_, ?_⟩
  · intro e he
    obtain ⟨s, -, rfl⟩ := List.mem_map.1 he
    refine ⟨s, _, rfl, ?_⟩
    intro x hx
    obtain ⟨f, hf, rfl⟩ := List.mem_map.1 hx
    exact ⟨f, c.get f, Section.parent_of_mem hf, rfl, rfl⟩
  · intro f v hv
    obtain rfl := Option.some.inj hv
    refine ⟨_, List.mem_map.2 ⟨f.parent, ?_, rfl⟩, List.mem_map.2 ⟨f, ?_, rfl⟩⟩
    · cases f <;> decide
    · cases f <;> decide

/-- A file with the text leaves a tree with the values of the configuration to the environment. -/
theorem layered_toToml {c : Config} {text : String} (h : c.toToml = .ok text) {host : Host}
    {path : Option String} (hholds : host.Holds path text) :
    ∃ (d : Document) (L : Leaves), host.document path = .ok (some d) ∧ L.Reads c.get ∧
      ∀ environment, layered (some d) environment =
        L.tree.overlay (Setting.ofVariables environment) := by
  obtain ⟨origin, hdocument⟩ := hholds.document (parse?_toToml h)
  have hfields : Document.SetsFields (Document.mk origin c.toEntries).entries
      fun f => some (c.get f) := c.setsFields_toEntries
  obtain ⟨L, hreads, hlayered⟩ := hfields.layered
  exact ⟨_, L, hdocument, hreads, hlayered⟩

theorem load_toToml {c : Config} {text : String} (h : c.toToml = .ok text) {host : Host}
    {path : Option String} (hholds : host.Holds path text)
    (hunset : ∀ x ∈ host.environment, Setting.variableKey? x.1 = none) :
    Config.load host path =
      match c.validate with
      | .ok () => .ok c
      | .error reason => .error (.invalid reason) := by
  obtain ⟨d, L, hdocument, hreads, hlayered⟩ := layered_toToml h hholds
  have hvariables : Setting.ofVariables host.environment = [] := by
    apply List.filterMap_eq_nil_iff.2
    intro x hx
    simp only [hunset x hx, Option.map_none]
  have htree : layered (some d) host.environment = .ok L.tree := by
    rw [hlayered, hvariables]
    rfl
  have hc := hreads.ofSetting_tree
  rw [ofFields_get] at hc
  unfold Config.load
  rw [hdocument]
  exact ofLayers_of_reads htree hc

/-- A configuration that comes back from a file is the same. -/
theorem eq_of_reload {c d : Config} (h : c.reload = .ok d) : d = c := by
  unfold reload at h
  obtain ⟨text, htext, hload⟩ := bind_eq_ok_iff.1 h
  have hback := load_toToml (mapError_eq_ok_iff.1 htext) (Host.holds_hostOfFile [] text) nofun
  obtain hback := hload.symm.trans hback
  split at hback
  · exact Except.ok.inj hback
  · cases hback

end Config

/-- **Loading inverts writing.** A configuration has no written form exactly if its index or its
precision is beyond the signed words. Whatever is written for it loads as the configuration itself,
wherever the file stands, or is refused for the reason for which the configuration cannot be run. -/
theorem load_inverts_toToml (c : Config) :
    (c.toToml = .error .outOfRange ↔
      SignedWord.bound ≤ c.run.n.toNat ∨ SignedWord.bound ≤ c.output.precision.toNat) ∧
    ((∃ text, c.toToml = .ok text) ↔
      c.run.n.toNat < SignedWord.bound ∧ c.output.precision.toNat < SignedWord.bound) ∧
    ∀ text, c.toToml = .ok text → ∀ (h : Host) (path : Option String), h.Holds path text →
      (∀ x ∈ h.environment, Setting.variableKey? x.1 = none) →
      Config.load h path =
        match c.validate with
        | .ok () => .ok c
        | .error reason => .error (.invalid reason) := by
  refine ⟨?_, ?_, ?_⟩
  · rw [← Nat.not_lt, ← Nat.not_lt, ← not_and_or, ← Config.forall_fits_iff]
    constructor
    · intro herror hfits
      rw [Config.toToml_of_fits hfits] at herror
      cases herror
    · exact Config.toToml_of_not_fits
  · rw [← Config.forall_fits_iff]
    constructor
    · rintro ⟨text, htext⟩
      by_contra hnot
      rw [Config.toToml_of_not_fits hnot] at htext
      cases htext
    · intro hfits
      exact ⟨_, Config.toToml_of_fits hfits⟩
  · intro text htext h path hholds hunset
    exact Config.load_toToml htext hholds hunset

/-- A list with repeats comes back as it is, and a configuration without methods is written and then
refused. -/
theorem load_inverts_toToml_stack_twice :
    let c : Config := ⟨⟨0x7FFFFFFFFFFFFFFF, [.stack, .naive, .stack], 3⟩, ⟨.json, 0⟩⟩
    let d : Config := ⟨⟨5, [], 0⟩, ⟨.text, 10⟩⟩
    (∃ text, c.toToml = .ok text ∧
      Config.load (Config.hostOfFile "c.toml" text) (some "c.toml") = .ok c) ∧
    ∃ text, d.toToml = .ok text ∧
      Config.load (Config.hostOfFile "c.toml" text) (some "c.toml") =
        .error (.invalid .noMethods) := by
  intro c d
  obtain ⟨-, hc, hload⟩ := load_inverts_toToml c
  obtain ⟨-, hd, hrefuse⟩ := load_inverts_toToml d
  obtain ⟨text, htext⟩ := hc.2 (by decide)
  obtain ⟨text', htext'⟩ := hd.2 (by decide)
  exact ⟨⟨text, htext, hload text htext _ _ (Host.holds_hostOfFile [] text) nofun⟩,
    text', htext', hrefuse text' htext' _ _ (Host.holds_hostOfFile [] text') nofun⟩

end Unroll
