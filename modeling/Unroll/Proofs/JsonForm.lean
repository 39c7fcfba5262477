import Unroll.Config.Json
import Unroll.Proofs.JsonText
import Unroll.Proofs.WrittenDocument

/-!
# Configurations out of JSON

A record is an object, whose members are found by name, or an array, whose items are found by their
place (`Json.part?`). Either way it is read field by field (`Config.Section.readsJson_of_parts`,
`Config.ofJson_of_parts`). So of an object with other members among its own, or an array of its
first members, only what stands under the names of fields counts (`Json.Presents.part?`).
-/

namespace Unroll

open Config (Field Section)
open Json (Mismatch)

/-! ## Records -/

/-- What is found under the name of a value in a list of named values. -/
theorem find?_named {α β : Type} [DecidableEq α] {nameOf : α → String} (valueOf : α → β)
    {xs : List α} {x : α} (hinj : ∀ y ∈ xs, nameOf y = nameOf x → y = x) :
    ((xs.map fun y => (nameOf y, valueOf y)).find? (·.1 == nameOf x)).map Prod.snd =
      if x ∈ xs then some (valueOf x) else none := by
  induction xs with
  | nil => rfl
  | cons y ys ih =>
    rw [List.forall_mem_cons] at hinj
    by_cases heq : y = x
    · simp [heq]
    · have hname : nameOf y ≠ nameOf x := fun hname => heq (hinj.1 hname)
      simpa [hname, Ne.symm heq] using ih hinj.2

namespace Json

/-- What a record has under one of the names of its fields. -/
def part? (names : List String) (name : String) : Json → Option Json
  | .arr items => items[names.idxOf name]?
  | v => v.get? name

theorem field_eq_elim {α : Type} (v : Json) (name : String) (initial : α)
    (decode : Json → Except Mismatch α) :
    v.field name initial decode = (v.get? name).elim (.ok initial) decode := by
  unfold field
  cases v.get? name <;> rfl

theorem item_eq_elim {α : Type} (items : List Json) (position : Nat) (initial : α)
    (decode : Json → Except Mismatch α) :
    item items position initial decode = items[position]?.elim (.ok initial) decode := by
  unfold item
  cases items[position]? <;> rfl

/-- A value that may be a record of so many fields. -/
def IsRecord (fields : Nat) : Json → Prop
  | .obj _ => True
  | .arr items => items.length ≤ fields
  | _ => False

/-- The record of some of the fields: an object of these members in any order, among others that
have the name of no field, or an array of their values if they are the first fields. -/
inductive Presents (names : List String) (present : List (String × Json)) : Json → Prop
  | object {members : List (String × Json)}
      (h : (members.filter fun m => decide (m.1 ∈ names)).Perm present) :
      Presents names present (.obj members)
  | array (h : present.map Prod.fst <+: names) :
      Presents names present (.arr (present.map Prod.snd))

namespace Presents

variable {names : List String} {present : List (String × Json)} {v : Json}

theorem isRecord (h : Presents names present v) : v.IsRecord names.length := by
  cases h with
  | object => trivial
  | array h =>
    have hle := h.length_le
    simpa [IsRecord] using hle

/-- Members of other names are not seen. -/
theorem get?_obj {members : List (String × Json)} {name : String} (hname : name ∈ names)
    (h : (members.filter fun m => decide (m.1 ∈ names)).Perm present)
    (hnodup : (present.map Prod.fst).Nodup) :
    (Json.obj members).get? name = (present.find? (·.1 == name)).map Prod.snd := by
  have hknown : ∀ es : List (String × Json), es.find? (·.1 == name) =
      (es.filter fun m => decide (m.1 ∈ names)).find? (·.1 == name) := by
    intro es
    rw [List.find?_filter]
    congr 1
    funext m
    by_cases hm : m.1 = name <;> simp [hm, hname]
  have hperm : (members.reverse.filter fun m => decide (m.1 ∈ names)).Perm present := by
    rw [List.filter_reverse]
    exact (List.reverse_perm _).trans h
  rw [get?, hknown, ← find?_eq_of_perm hperm.symm hnodup]

/-- The place of a name is the place of its value. -/
theorem getElem?_values (present : List (String × Json)) (rest : List String) (name : String) :
    (present.map Prod.snd)[(present.map Prod.fst ++ rest).idxOf name]? =
      (present.find? (·.1 == name)).map Prod.snd := by
  induction present with
  | nil => rfl
  | cons e es ih =>
    by_cases heq : e.1 = name
    · simp [heq]
    · simpa [List.idxOf_cons, heq] using ih

theorem part? (h : Presents names present v) (hnodup : (present.map Prod.fst).Nodup)
    {name : String} (hname : name ∈ names) :
    v.part? names name = (present.find? (·.1 == name)).map Prod.snd := by
  cases h with
  | object h => exact get?_obj hname h hnodup
  | array h =>
    obtain ⟨rest, rfl⟩ := h
    exact getElem?_values present rest name

end Presents

end Json

/-! ## Fields and sections -/

namespace Config

namespace Field

def toJson : (f : Field) → f.Value → Json
  | n, v => .word v
  | methods, ms => .arr (ms.map fun m => .str m.name)
  | runs, v => .nat v.toNat
  | format, v => .str v.name
  | precision, v => .word v

def ofJson : (f : Field) → Json → Except Mismatch f.Value
  | n => RunConfig.decodeN
  | methods => RunConfig.decodeMethods
  | runs => RunConfig.decodeRuns
  | format => OutputFormat.ofJson
  | precision => OutputConfig.decodePrecision

/-- The value of a field that may be missing. -/
def readJson (f : Field) (v : Option Json) : Except Mismatch f.Value :=
  v.elim (.ok (initial.get f)) f.ofJson

theorem decodeNat_int {bound : Nat} (expected : String) {value : Nat} (h : value < bound) :
    Json.decodeNat expected bound (.int value) = .ok value := by
  simp [Json.decodeNat, h]

theorem ofJson_toJson (f : Field) (v : f.Value) : f.ofJson (f.toJson v) = .ok v := by
  cases f with
  | n =>
    show (Json.decodeNat "u64" UInt64.size (.int v.toNat)).map UInt64.ofNat = _
    rw [decodeNat_int _ v.toNat_lt_size, Except.map, UInt64.ofNat_toNat]
  | methods =>
    have hname : ∀ m ∈ v, Method.ofJson (.str m.name) = .ok m := by
      intro m _
      cases m <;> rfl
    show (v.map fun m => Json.str m.name).mapM Method.ofJson = _
    rw [mapM_eq_ok hname, List.map_id']
  | runs =>
    show (Json.decodeNat "u32" UInt32.size (.int v.toNat)).map UInt32.ofNat = _
    rw [decodeNat_int _ v.toNat_lt_size, Except.map, UInt32.ofNat_toNat]
  | format => cases v <;> rfl
  | precision =>
    show (Json.decodeNat "usize" UInt64.size (.int v.toNat)).map UInt64.ofNat = _
    rw [decodeNat_int _ v.toNat_lt_size, Except.map, UInt64.ofNat_toNat]

end Field

namespace Section

def all : List Section :=
  [run, output]

/-- The names of the fields of a section. -/
def fieldNames (s : Section) : List String :=
  s.fields.map Field.name

theorem mem_all (s : Section) : s ∈ all := by
  cases s <;> decide

theorem nodup_fieldNames (s : Section) : s.fieldNames.Nodup := by
  cases s <;> decide

/-- A section that may be missing has the values of a configuration. -/
def ReadsJson (v : Option Json) (c : Config) : Section → Prop
  | run => v.elim (.ok .initial) RunConfig.ofJson = .ok c.run
  | output => v.elim (.ok .initial) OutputConfig.ofJson = .ok c.output

theorem readsJson_none {s : Section} {c : Config}
    (h : ∀ f, f.parent = s → c.get f = initial.get f) : s.ReadsJson none c := by
  obtain ⟨⟨n, methods, runs⟩, ⟨format, precision⟩⟩ := c
  cases s with
  | run =>
    obtain rfl : n = _ := h .n rfl
    obtain rfl : methods = _ := h .methods rfl
    obtain rfl : runs = _ := h .runs rfl
    rfl
  | output =>
    obtain rfl : format = _ := h .format rfl
    obtain rfl : precision = _ := h .precision rfl
    rfl

/-- Objects and arrays are read field by field. -/
theorem readsJson_of_parts {s : Section} {v : Json} {c : Config}
    (hrecord : v.IsRecord s.fields.length)
    (h : ∀ f ∈ s.fields, f.readJson (v.part? s.fieldNames f.name) = .ok (c.get f)) :
    s.ReadsJson (some v) c := by
  cases v with
  | obj members =>
    have hfield : ∀ f ∈ s.fields,
        (Json.obj members).field f.name (initial.get f) f.ofJson = .ok (c.get f) := by
      intro f hf
      rw [Json.field_eq_elim]
      exact h f hf
    cases s with
    | run =>
      have hn := hfield .n (by decide)
      have hmethods := hfield .methods (by decide)
      have hruns := hfield .runs (by decide)
      simp only [ReadsJson, Option.elim_some, RunConfig.ofJson, bind_eq_ok_iff]
      exact ⟨_, hmethods, _, hn, _, hruns, rfl⟩
    | output =>
      have hformat := hfield .format (by decide)
      have hprecision := hfield .precision (by decide)
      simp only [ReadsJson, Option.elim_some, OutputConfig.ofJson, bind_eq_ok_iff]
      exact ⟨_, hformat, _, hprecision, rfl⟩
  | arr items =>
    have hitem : ∀ f ∈ s.fields,
        Json.item items (s.fieldNames.idxOf f.name) (initial.get f) f.ofJson = .ok (c.get f) := by
      intro f hf
      rw [Json.item_eq_elim]
      exact h f hf
    have hlength : Json.checkLength items s.fields.length = .ok () := if_pos hrecord
    cases s with
    | run =>
      have hn := hitem .n (by decide)
      have hmethods := hitem .methods (by decide)
      have hruns := hitem .runs (by decide)
      simp only [ReadsJson, Option.elim_some, RunConfig.ofJson, bind_eq_ok_iff]
      exact ⟨_, hn, _, hmethods, _, hruns, (), hlength, rfl⟩
    | output =>
      have hformat := hitem .format (by decide)
      have hprecision := hitem .precision (by decide)
      simp only [ReadsJson, Option.elim_some, OutputConfig.ofJson, bind_eq_ok_iff]
      exact ⟨_, hformat, _, hprecision, (), hlength, rfl⟩
  | _ => exact hrecord.elim

end Section

theorem ofJson_of_parts {v : Json} {c : Config} (hrecord : v.IsRecord Section.all.length)
    (h : ∀ s : Section, s.ReadsJson (v.part? (Section.all.map Section.name) s.name) c) :
    ofJson v = .ok c := by
  have hrun := h .run
  have houtput := h .output
  cases v with
  | obj members =>
    simp only [ofJson, bind_eq_ok_iff, Json.field_eq_elim]
    exact ⟨_, houtput, _, hrun, rfl⟩
  | arr items =>
    have hlength : Json.checkLength items 2 = .ok () := if_pos hrecord
    simp only [ofJson, bind_eq_ok_iff, Json.item_eq_elim]
    exact ⟨_, hrun, _, houtput, (), hlength, rfl⟩
  | _ => exact hrecord.elim

/-! ## Some of the sections and fields -/

/-- The members of a section of a configuration that stand for the given fields. -/
def members (c : Config) (kept : List Field) : List (String × Json) :=
  kept.map fun f => (f.name, f.toJson (c.get f))

/-- The object of a configuration with only some of its sections and fields. -/
def pruned (c : Config) (sections : List Section) (kept : Section → List Field) : Json :=
  .obj (sections.map fun s => (s.name, .obj (c.members (kept s))))

/-- A value shows the given sections and fields of a configuration, and nothing else of it. The
configuration and each of the sections may be an object, with other members, or an array. -/
def ShownBy (c : Config) (sections : List Section) (kept : Section → List Field) (v : Json) :
    Prop :=
  ∃ part : Section → Json,
    (∀ s ∈ sections, Json.Presents s.fieldNames (c.members (kept s)) (part s)) ∧
      Json.Presents (Section.all.map Section.name) (sections.map fun s => (s.name, part s)) v

/-- The fields that are shown have their values, and the others the initial ones. -/
def overInitial (c : Config) (sections : List Section) (kept : Section → List Field) : Config :=
  ofFields fun f =>
    if f.parent ∈ sections ∧ f ∈ kept f.parent then c.get f else initial.get f

theorem get_overInitial (c : Config) (sections : List Section) (kept : Section → List Field)
    (f : Field) : (c.overInitial sections kept).get f =
      if f.parent ∈ sections ∧ f ∈ kept f.parent then c.get f else initial.get f :=
  get_ofFields _ f

section Shown

variable {c : Config} {sections : List Section} {kept : Section → List Field} {v : Json}

theorem Field.readsBack_toJson (f : Field) (x : f.Value) :
    (f.toJson x).ReadsBack (f.toJson x) := by
  cases f with
  | n => exact .nat x.toNat_lt_size
  | methods => exact .arr_self (List.forall_mem_map.2 fun _ _ => .str _)
  | runs => exact .nat (Nat.lt_trans x.toNat_lt_size (by decide))
  | format => exact .str _
  | precision => exact .nat x.toNat_lt_size

theorem pruned_all (c : Config) : c.pruned Section.all Section.fields = c.toJson :=
  rfl

theorem shownBy_pruned (hsections : sections.Sublist Section.all)
    (hkept : ∀ s, (kept s).Sublist s.fields) :
    c.ShownBy sections kept (c.pruned sections kept) := by
  refine ⟨fun s => .obj (c.members (kept s)), ?_, .object ?_⟩
  · intro s _
    apply Json.Presents.object
    rw [List.filter_eq_self.2]
    intro m hm
    obtain ⟨f, hf, rfl⟩ := List.mem_map.1 hm
    exact decide_eq_true (List.mem_map_of_mem ((hkept s).subset hf))
  · rw [List.filter_eq_self.2]
    intro m hm
    obtain ⟨s, hs, rfl⟩ := List.mem_map.1 hm
    exact decide_eq_true (List.mem_map_of_mem (hsections.subset hs))

/-- A section that is shown has the values of its fields that are shown. -/
theorem readsJson_of_presents {s : Section} (hs : s ∈ sections) (hkept : (kept s).Sublist s.fields)
    (h : Json.Presents s.fieldNames (c.members (kept s)) v) :
    s.ReadsJson (some v) (c.overInitial sections kept) := by
  apply Section.readsJson_of_parts
  · simpa [Section.fieldNames] using h.isRecord
  · intro f hf
    have hparent : f.parent = s := Section.parent_of_mem hf
    have hnodup : ((c.members (kept s)).map Prod.fst).Nodup := by
      rw [members, List.map_map]
      exact (hkept.map Field.name).nodup s.nodup_fieldNames
    have hinj : ∀ g ∈ kept s, g.name = f.name → g = f := fun g hg =>
      Field.eq_of_name ((Section.parent_of_mem (hkept.subset hg)).trans hparent.symm)
    have hfound := find?_named (fun f => f.toJson (c.get f)) hinj
    rw [h.part? hnodup (List.mem_map_of_mem hf), members, hfound, get_overInitial]
    subst hparent
    by_cases hmem : f ∈ kept f.parent
    · simp [hs, hmem, Field.readJson, Field.ofJson_toJson]
    · simp [hmem, Field.readJson]

theorem readsJson_of_notMem {s : Section} (hs : s ∉ sections) :
    s.ReadsJson none (c.overInitial sections kept) := by
  apply Section.readsJson_none
  rintro f rfl
  rw [get_overInitial, if_neg]
  rintro ⟨hmem, -⟩
  exact hs hmem

theorem ShownBy.ofJson (h : c.ShownBy sections kept v) (hsections : sections.Sublist Section.all)
    (hkept : ∀ s, (kept s).Sublist s.fields) :
    Config.ofJson v = .ok (c.overInitial sections kept) := by
  obtain ⟨part, hpart, hv⟩ := h
  apply ofJson_of_parts
  · simpa using hv.isRecord
  · intro s
    have hall : (Section.all.map Section.name).Nodup := by decide
    have hnodup : ((sections.map fun s => (s.name, part s)).map Prod.fst).Nodup := by
      rw [List.map_map]
      exact (hsections.map Section.name).nodup hall
    have hinj : ∀ t ∈ sections, t.name = s.name → t = s := fun _ _ => Section.eq_of_name
    rw [hv.part? hnodup (List.mem_map_of_mem s.mem_all), find?_named part hinj]
    by_cases hs : s ∈ sections
    · rw [if_pos hs]
      exact readsJson_of_presents hs (hkept s) (hpart s hs)
    · rw [if_neg hs]
      exact readsJson_of_notMem hs

theorem ofJson_toJson (c : Config) : Config.ofJson c.toJson = .ok c := by
  have hshown : c.ShownBy Section.all Section.fields c.toJson :=
    shownBy_pruned (List.Sublist.refl _) fun _ => List.Sublist.refl _
  have hsame : c.overInitial Section.all Section.fields = c := by
    apply ext_get
    intro f
    have hf : f ∈ f.parent.fields := by cases f <;> decide
    rw [get_overInitial, if_pos ⟨f.parent.mem_all, hf⟩]
  rw [hshown.ofJson (List.Sublist.refl _) fun _ => List.Sublist.refl _, hsame]

theorem readsBack_toJson (c : Config) : c.toJson.ReadsBack c.toJson := by
  rw [← pruned_all]
  apply Json.ReadsBack.obj_self
  rw [List.forall_mem_map]
  intro s _
  apply Json.ReadsBack.obj_self
  rw [members, List.forall_mem_map]
  intro f _
  exact f.readsBack_toJson (c.get f)

end Shown

end Config

/-- **A record keeps the fields that it shows.** Of a value that shows some of the sections and
fields of a configuration, each record of it as an object among other members or as an array of its
first fields, what is read is what the object of just these members reads as: the fields that are
shown have their values and all others the initial ones. The object of the whole configuration
gives the configuration back, and so do its texts on one line and on several. -/
theorem json_keeps_shown_fields {c : Config} {sections : List Section}
    {kept : Section → List Field} {v : Json} (hsections : sections.Sublist Section.all)
    (hkept : ∀ s, (kept s).Sublist s.fields) (hv : c.ShownBy sections kept v) :
    (∃ d, Config.ofJson v = .ok d ∧ Config.ofJson (c.pruned sections kept) = .ok d ∧
      (∀ f : Field, f.parent ∈ sections → f ∈ kept f.parent → d.get f = c.get f) ∧
      ∀ f : Field, ¬ (f.parent ∈ sections ∧ f ∈ kept f.parent) →
        d.get f = Config.initial.get f) ∧
    Config.ofJson c.toJson = .ok c ∧
    Json.parse? c.toJson.compact = some c.toJson ∧ Json.parse? c.toJson.pretty = some c.toJson := by
  refine ⟨⟨c.overInitial sections kept, hv.ofJson hsections hkept, ?_, ?_, ?_⟩, ?_, ?_⟩
  · exact (Config.shownBy_pruned hsections hkept).ofJson hsections hkept
  · intro f hparent hf
    rw [Config.get_overInitial, if_pos ⟨hparent, hf⟩]
  · intro f hf
    rw [Config.get_overInitial, if_neg hf]
  · exact c.ofJson_toJson
  · exact c.readsBack_toJson.parse?

/-- The run as an object in another order, with a name that is none of a field and without the
index, and the output as an array of its first field. The configuration is one that cannot be
run. -/
theorem json_keeps_shown_fields_mixed :
    Config.ofJson (.arr [
        .obj [("N", .null), ("runs", .int 4294967295), ("methods", .arr []), ("N", .int 3)],
        .arr [.str "json"]]) =
      .ok ⟨⟨30, [], 4294967295⟩, ⟨.json, 2⟩⟩ := by
  let c : Config := ⟨⟨18446744073709551615, [], 4294967295⟩, ⟨.json, 18446744073709551615⟩⟩
  let kept : Section → List Field
    | .run => [.methods, .runs]
    | .output => [.format]
  let part : Section → Json
    | .run => .obj [("N", .null), ("runs", .int 4294967295), ("methods", .arr []), ("N", .int 3)]
    | .output => .arr [.str "json"]
  have hkept : ∀ s, (kept s).Sublist s.fields := by
    intro s
    cases s <;> decide
  have hpart : ∀ s ∈ Section.all, Json.Presents s.fieldNames (c.members (kept s)) (part s) := by
    intro s _
    cases s with
    | run => exact .object (.swap _ _ _)
    | output => exact .array (by decide)
  have hv : c.ShownBy Section.all kept (.arr [part .run, part .output]) :=
    ⟨part, hpart, .array (by decide)⟩
  obtain ⟨⟨d, hd, -, hshown, hother⟩, -⟩ :=
    json_keeps_shown_fields (List.Sublist.refl _) hkept hv
  obtain rfl : d = ⟨⟨30, [], 4294967295⟩, ⟨.json, 2⟩⟩ := by
    apply Config.ext_get
    intro f
    cases f with
    | n => exact hother .n (by decide)
    | methods => exact hshown .methods (by decide) (by decide)
    | runs => exact hshown .runs (by decide) (by decide)
    | format => exact hshown .format (by decide) (by decide)
    | precision => exact hother .precision (by decide)
  exact hd

end Unroll
