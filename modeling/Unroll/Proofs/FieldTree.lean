import Mathlib.Logic.Function.Basic
import Unroll.Config.Load
import Unroll.Proofs.Fields
import Unroll.Proofs.Names

/-!
# The tree that holds the fields

Loading starts from a tree with one leaf for each field (`Leaves.tree`). To set a field, by the
table of its section or by its key, is to exchange its leaf and to keep the shape and the other
leaves (`Leaves.write_section`, `Leaves.write_field`). A layer that sets fields only thus leaves a
tree of the same shape, in which a field has the value of the layer if it is set and its old one if
not (`Leaves.Reads.setAll`). The order in which the layer sets the fields does not matter for this.
-/

namespace Unroll

open Setting (Step Fault put merge write lookup assign)
open Config (Field Section)

/-! ## Fields as settings -/

/-- Settings that replace what they are laid over. -/
def Setting.IsLeaf : Setting → Prop
  | .scalar .. => True
  | .table .. => False
  | .array .. => True

theorem Setting.put_leaf {v : Setting} (hv : v.IsLeaf) (name : String)
    (es : List (String × Setting)) : put name v es = assign (Text.lower name) v es := by
  cases v with
  | scalar => rw [put]
  | table => exact hv.elim
  | array => rw [put]

theorem Setting.overlay_cons (tree : Setting) (key : String) (v : Setting)
    (rest : List (String × Setting)) :
    tree.overlay ((key, v) :: rest) =
      write v (KeyPath.ofKey key) tree >>= fun next => next.overlay rest :=
  rfl

namespace Config

def Section.fields : Section → List Field
  | run => [.n, .methods, .runs]
  | output => [.format, .precision]

@[simp]
theorem Section.lower_name (s : Section) : Text.lower s.name = s.name := by
  cases s <;> decide

namespace Field

@[simp]
theorem lower_name (f : Field) : Text.lower f.name = f.name := by
  cases f <;> decide

/-- The key of a field in a source that has no sections. -/
def key (f : Field) : String :=
  f.parent.name ++ "." ++ f.name

theorem ofKey_key (f : Field) :
    Setting.KeyPath.ofKey f.key = [.name f.parent.name, .name f.name] := by
  cases f <;> decide

/-- The value of a field in a document. -/
def toToml : (f : Field) → f.Value → Toml
  | n, v => .int v.toNat
  | methods, ms => .arr (ms.map fun m => .str m.name)
  | runs, v => .int v.toNat
  | format, v => .str v.name
  | precision, v => .int v.toNat

theorem isLeaf_ofToml (f : Field) (origin : Option String) (v : f.Value) :
    (Setting.ofToml origin (f.toToml v)).IsLeaf := by
  cases f <;> trivial

end Field

end Config

namespace Setting

theorem toWord_int (key : String) (origin : Option String) (v : UInt64) :
    (scalar origin (.int v.toNat)).toWord key = .ok v := by
  rw [toWord, if_pos (Int.natCast_nonneg _), Int.toNat_natCast, UInt64.ofNat_toNat]

theorem toHalfWord_int (key : String) (origin : Option String) (v : UInt32) :
    (scalar origin (.int v.toNat)).toHalfWord key = .ok v := by
  have hlt : v.toNat < UInt32.size := v.toNat_lt_size
  have hword : (UInt64.ofNat v.toNat).toNat = v.toNat :=
    UInt64.toNat_ofNat_of_lt' (Nat.lt_trans hlt (by decide))
  rw [toHalfWord, toWord, if_pos (Int.natCast_nonneg _), Int.toNat_natCast]
  show (if (UInt64.ofNat v.toNat).toNat < UInt32.size then _ else _) = _
  rw [hword, if_pos hlt, UInt32.ofNat_toNat]
  rfl

theorem toMethod_recased (origin : Option String) {text : String} {m : Method}
    (h : Text.Recased text m.name) : (scalar origin (.text text)).toMethod = .ok m := by
  rw [toMethod, toNamed]
  simp only [h.lower m.isLower_name]
  cases m <;> rfl

theorem toFormat_name (origin : Option String) (v : OutputFormat) :
    (scalar origin (.text v.name)).toFormat = .ok v := by
  cases v <;> rfl

/-- Methods are read in order and with repeats, from their names in any case. -/
theorem toMethods_recased (origin origin' : Option String) {names : List (String × Method)}
    (h : ∀ p ∈ names, Text.Recased p.1 p.2.name) :
    (array origin (names.map fun p => scalar origin' (.text p.1))).toMethods =
      .ok (names.map Prod.snd) := by
  rw [toMethods]
  apply mapM_eq_ok
  intro p hp
  exact toMethod_recased origin' (h p hp)

theorem toMethods_names (origin origin' : Option String) (ms : List Method) :
    (array origin (ms.map fun m => scalar origin' (.text m.name))).toMethods = .ok ms := by
  have hread := toMethods_recased origin origin' (Method.recased_names ms)
  rw [List.map_map, List.map_map] at hread
  exact hread.trans (by simp [Function.comp_def])

theorem ofItems_map {α : Type} (origin : Option String) (f : α → Toml) (xs : List α) :
    ofItems origin (xs.map f) = xs.map fun x => ofToml origin (f x) := by
  induction xs with
  | nil => rw [List.map_nil, ofItems, List.map_nil]
  | cons x xs ih => rw [List.map_cons, ofItems, ih, List.map_cons]

end Setting

/-- A field comes back from a document. -/
theorem Config.Field.decode_ofToml (f : Field) (origin : Option String) (v : f.Value) :
    f.decode (Setting.ofToml origin (f.toToml v)) = .ok v := by
  cases f with
  | n =>
    rw [toToml, Setting.ofToml]
    exact Setting.toWord_int "run.n" origin v
  | methods =>
    rw [toToml, Setting.ofToml, Setting.ofItems_map]
    simp only [Setting.ofToml]
    exact Setting.toMethods_names origin origin v
  | runs =>
    rw [toToml, Setting.ofToml]
    exact Setting.toHalfWord_int "run.runs" origin v
  | format =>
    rw [toToml, Setting.ofToml]
    exact Setting.toFormat_name origin v
  | precision =>
    rw [toToml, Setting.ofToml]
    exact Setting.toWord_int "output.precision" origin v

/-! ## Trees with a leaf for each field -/

/-- A setting for each field. -/
abbrev Leaves : Type :=
  Field → Setting

namespace Leaves

def sectionTree (L : Leaves) (s : Section) : Setting :=
  .table none (s.fields.map fun f => (f.name, L f))

def tree (L : Leaves) : Setting :=
  .table none ([Section.run, .output].map fun s => (s.name, L.sectionTree s))

/-- The leaves of a configuration that was written to a document. -/
def ofConfig (origin : Option String) (c : Config) : Leaves :=
  fun f => Setting.ofToml origin (f.toToml (c.get f))

theorem overlay_initial :
    Setting.emptyTable.overlay (Setting.ofConfig .initial) = .ok (ofConfig none .initial).tree := by
  rfl

/-- The values of the leaves. -/
def Reads (L : Leaves) (value : (f : Field) → f.Value) : Prop :=
  ∀ f : Field, (L f).IsLeaf ∧ f.decode (L f) = .ok (value f)

theorem reads_ofConfig (origin : Option String) (c : Config) : (ofConfig origin c).Reads c.get :=
  fun f => ⟨f.isLeaf_ofToml origin (c.get f), f.decode_ofToml origin (c.get f)⟩

theorem lookup_tree (L : Leaves) (s : Section) :
    lookup s.name L.tree.entries = some (L.sectionTree s) := by
  cases s <;> rfl

theorem lookup_sectionTree (L : Leaves) (f : Field) :
    lookup f.name (L.sectionTree f.parent).entries = some (L f) := by
  cases f <;> rfl

theorem Reads.sectionTree {L : Leaves} {value : (f : Field) → f.Value} (h : L.Reads value)
    (s : Section) : s.Reads (some (L.sectionTree s)) (.ofFields value) := by
  apply Config.Section.reads_table.2
  rintro f rfl
  have hleaf := L.lookup_sectionTree f
  rw [Leaves.sectionTree, Setting.entries] at hleaf
  rw [hleaf, Config.get_ofFields]
  exact (h f).2

theorem Reads.ofSetting_tree {L : Leaves} {value : (f : Field) → f.Value} (h : L.Reads value) :
    Config.ofSetting L.tree = .ok (.ofFields value) := by
  rw [Config.ofSetting_eq_ok_iff]
  intro s
  rw [lookup_tree]
  exact h.sectionTree s

/-! ## Exchanging leaves -/

/-- Exchanges leaves one after another. -/
def setAll (L : Leaves) (layer : List (Field × Setting)) : Leaves :=
  layer.foldl (fun L p => Function.update L p.1 p.2) L

@[simp]
theorem setAll_nil (L : Leaves) : L.setAll [] = L :=
  rfl

theorem setAll_cons (L : Leaves) (p : Field × Setting) (layer : List (Field × Setting)) :
    L.setAll (p :: layer) = setAll (Function.update L p.1 p.2) layer :=
  rfl

theorem setAll_append (L : Leaves) (first second : List (Field × Setting)) :
    L.setAll (first ++ second) = (L.setAll first).setAll second :=
  List.foldl_append

theorem setAll_of_notMem {L : Leaves} {layer : List (Field × Setting)} {f : Field}
    (h : f ∉ layer.map Prod.fst) : L.setAll layer f = L f := by
  induction layer generalizing L with
  | nil => rfl
  | cons p layer ih =>
    rw [List.map_cons, List.mem_cons, not_or] at h
    rw [setAll_cons, ih h.2, Function.update_of_ne h.1]

/-- A leaf that was exchanged is one of those that were given for it. -/
theorem setAll_mem {L : Leaves} {layer : List (Field × Setting)} {f : Field}
    (h : f ∈ layer.map Prod.fst) : (f, L.setAll layer f) ∈ layer := by
  induction layer generalizing L with
  | nil => cases h
  | cons p layer ih =>
    rw [setAll_cons]
    by_cases hrest : f ∈ layer.map Prod.fst
    · exact List.mem_cons_of_mem p (ih hrest)
    · have hp : f = p.1 := by
        rw [List.map_cons, List.mem_cons] at h
        exact h.resolve_right hrest
      subst hp
      rw [setAll_of_notMem hrest, Function.update_self]
      exact List.mem_cons_self

/-- The leaves of a layer that sets exactly the chosen values. -/
structure SetsTo (layer : List (Field × Setting)) (chosen : (f : Field) → Option f.Value) :
    Prop where
  known : ∀ p ∈ layer, p.2.IsLeaf ∧ ∃ v, chosen p.1 = some v ∧ p.1.decode p.2 = .ok v
  complete : ∀ f v, chosen f = some v → f ∈ layer.map Prod.fst

/-- After a layer each field has the value that the layer sets it to, or else its old one. -/
theorem Reads.setAll {L : Leaves} {value : (f : Field) → f.Value}
    {chosen : (f : Field) → Option f.Value} {layer : List (Field × Setting)} (h : L.Reads value)
    (hlayer : SetsTo layer chosen) : (L.setAll layer).Reads fun f => (chosen f).getD (value f) := by
  intro f
  show (L.setAll layer f).IsLeaf ∧ f.decode (L.setAll layer f) = .ok ((chosen f).getD (value f))
  by_cases hf : f ∈ layer.map Prod.fst
  · obtain ⟨hleaf, v, hchosen, hdecode⟩ := hlayer.known _ (setAll_mem (L := L) hf)
    rw [show chosen f = some v from hchosen]
    exact ⟨hleaf, hdecode⟩
  · have hnone : chosen f = none := by
      cases hchosen : chosen f with
      | none => rfl
      | some v => exact absurd (hlayer.complete f v hchosen) hf
    rw [setAll_of_notMem hf, hnone, Option.getD_none]
    exact h f

theorem put_sectionTree (L : Leaves) (f : Field) {v : Setting} (hv : v.IsLeaf) :
    Setting.table (L.sectionTree f.parent).tableOrigin
        (put f.name v (L.sectionTree f.parent).entries) =
      sectionTree (Function.update L f v) f.parent := by
  rw [Setting.put_leaf hv, Field.lower_name]
  cases f <;> rfl

theorem merge_section (L : Leaves) {s : Section} {layer : List (Field × Setting)}
    (h : ∀ p ∈ layer, p.1.parent = s ∧ p.2.IsLeaf) :
    merge (layer.map fun p => (p.1.name, p.2)) (L.sectionTree s) =
      (L.setAll layer).sectionTree s := by
  induction layer generalizing L with
  | nil => rw [List.map_nil, merge, setAll_nil]
  | cons p layer ih =>
    obtain ⟨rfl, hleaf⟩ := h p List.mem_cons_self
    rw [List.map_cons, merge, put_sectionTree L p.1 hleaf,
      ih _ fun q hq => h q (List.mem_cons_of_mem p hq), setAll_cons]

/-- A section in the place of the old one, if the other section is the same. -/
theorem assign_sectionTree {L L' : Leaves} {s : Section} (h : ∀ f, f.parent ≠ s → L' f = L f) :
    Setting.table L.tree.tableOrigin (assign s.name (L'.sectionTree s) L.tree.entries) =
      L'.tree := by
  cases s with
  | run =>
    have hother : L'.sectionTree .output = L.sectionTree .output := by
      unfold sectionTree Section.fields
      simp only [List.map_cons, List.map_nil, h .format nofun, h .precision nofun]
    unfold tree
    simp only [List.map_cons, hother]
    rfl
  | output =>
    have hother : L'.sectionTree .run = L.sectionTree .run := by
      unfold sectionTree Section.fields
      simp only [List.map_cons, List.map_nil, h .n nofun, h .methods nofun, h .runs nofun]
    unfold tree
    simp only [List.map_cons, hother]
    rfl

theorem write_section (L : Leaves) {s : Section} (origin : Option String)
    {layer : List (Field × Setting)} (h : ∀ p ∈ layer, p.1.parent = s ∧ p.2.IsLeaf) :
    write (.table origin (layer.map fun p => (p.1.name, p.2))) [.name s.name] L.tree =
      .ok (L.setAll layer).tree := by
  rw [write, put]
  simp only [Section.lower_name, lookup_tree, Option.getD_some, L.merge_section h]
  congr 1
  apply assign_sectionTree
  intro f hf
  apply setAll_of_notMem
  intro hmem
  obtain ⟨p, hp, rfl⟩ := List.mem_map.1 hmem
  exact hf (h p hp).1

theorem write_field (L : Leaves) (f : Field) {v : Setting} (hv : v.IsLeaf) :
    write v [.name f.parent.name, .name f.name] L.tree = .ok (tree (Function.update L f v)) := by
  simp only [write, Section.lower_name, lookup_tree, Option.getD_some, put_sectionTree L f hv]
  show Except.ok (Setting.table L.tree.tableOrigin
    (assign f.parent.name (sectionTree (Function.update L f v) f.parent) L.tree.entries)) = _
  congr 1
  apply assign_sectionTree
  intro g hg
  apply Function.update_of_ne
  rintro rfl
  exact hg rfl

theorem overlay_fields (L : Leaves) {layer : List (Field × Setting)}
    (h : ∀ p ∈ layer, p.2.IsLeaf) :
    L.tree.overlay (layer.map fun p => (p.1.key, p.2)) = .ok (L.setAll layer).tree := by
  induction layer generalizing L with
  | nil => rfl
  | cons p layer ih =>
    rw [List.map_cons, Setting.overlay_cons, Field.ofKey_key,
      write_field L p.1 (h p List.mem_cons_self)]
    exact ih _ fun q hq => h q (List.mem_cons_of_mem p hq)

end Leaves

end Unroll
