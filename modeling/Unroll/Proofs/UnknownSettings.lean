import Mathlib.Data.List.TakeWhile
import Unroll.Proofs.ListingOrder
import Unroll.Proofs.Places

/-!
# Settings that no field has

A setting may lead past the sections, or to a name in a section that no field has
(`Config.IsForeign`). It is parsed, guessed at and merged like any other, but what stands at the
places of the fields does not change. Two trees with the same at these places, whose sections are
tables, make up the same configuration (`Setting.SameFields.ofSetting`), and they stay so when the
same settings are laid over both (`Setting.SameFields.overlay`).
-/

namespace Unroll

open Config (Field Section)

namespace Setting

/-! ## Sections that stay tables -/

/-- A table stands at the place. -/
def IsTable (found : Option Setting) : Prop :=
  ∃ origin es, found = some (.table origin es)

theorem isTable_withEntry (name : String) (inner target : Setting) :
    IsTable (some (withEntry name inner target)) :=
  ⟨_, _, rfl⟩

theorem IsTable.laidOver {v : Setting} {found : Option Setting} (hv : IsTable (some v))
    (h : IsTable found) : IsTable (some (laidOver v found)) := by
  obtain ⟨origin, es, hes⟩ := hv
  obtain ⟨origin', es', rfl⟩ := h
  obtain rfl := Option.some.inj hes
  rw [Setting.laidOver, Option.getD_some]
  induction es generalizing es' with
  | nil => exact ⟨origin', es', by rw [merge]⟩
  | cons e es ih =>
    rw [merge]
    exact ih _ rfl

theorem exists_lay_names (v : Setting) (names : List String) (found : Option Setting) :
    ∃ target, lay v (names.map .name) found = .ok target := by
  induction names generalizing found with
  | nil => exact ⟨_, rfl⟩
  | cons name names ih =>
    obtain ⟨inner, hinner⟩ := ih (child (Text.lower name) found)
    rw [List.map_cons, lay_name, hinner]
    exact ⟨_, rfl⟩

/-- The steps have no index, and if they lead to a section then the value is a table. -/
def KeepsSections (steps : List Step) (v : Setting) : Prop :=
  ∃ name names, steps = List.map .name (name :: names) ∧
    (names = [] → ∀ s : Section, Text.lower name = s.name → IsTable (some v))

variable {steps : List Step} {v : Setting}

theorem KeepsSections.exists_lay (h : KeepsSections steps v) (target : Setting) :
    ∃ target', lay v steps (some target) = .ok target' := by
  obtain ⟨name, names, rfl, -⟩ := h
  exact exists_lay_names v (name :: names) _

theorem KeepsSections.isTable (h : KeepsSections steps v) {a a' : Setting}
    (ha : lay v steps (some a) = .ok a') {s : Section}
    (hs : IsTable (child s.name (some a))) : IsTable (child s.name (some a')) := by
  obtain ⟨name, names, rfl, hv⟩ := h
  obtain ⟨inner, hinner, hchild⟩ := reach_lay_name ha s.name []
  rw [reach_cons, reach_nil, reach_nil, reach_cons, reach_nil] at hchild
  rw [hchild]
  split
  · next hname =>
    cases names with
    | nil =>
      obtain rfl := Except.ok.inj hinner
      rw [hname]
      exact (hv rfl s hname).laidOver hs
    | cons next names =>
      rw [List.map_cons, lay_name] at hinner
      obtain ⟨below, -, hinner⟩ := Config.bind_eq_ok_iff.1 hinner
      obtain rfl := Except.ok.inj hinner
      exact isTable_withEntry _ _ _
  · exact hs

/-! ## Trees with the same fields -/

/-- Both trees have tables for sections and the same at the places of the fields. -/
structure SameFields (a b : Setting) : Prop where
  left : ∀ s : Section, IsTable (child s.name (some a))
  right : ∀ s : Section, IsTable (child s.name (some b))
  same : ∀ f : Field, reach f.path (some a) = reach f.path (some b)

namespace SameFields

variable {a b a' b' : Setting}

theorem symm (h : SameFields a b) : SameFields b a :=
  ⟨h.right, h.left, fun f => (h.same f).symm⟩

theorem ofSetting {c : Config} (h : SameFields a b) (ha : Config.ofSetting a = .ok c) :
    Config.ofSetting b = .ok c := by
  rw [Config.ofSetting_eq_ok_iff] at ha ⊢
  intro s
  obtain ⟨origin, es, hes⟩ := h.left s
  obtain ⟨origin', es', hes'⟩ := h.right s
  have hreads : s.Reads (child s.name (some a)) c := ha s
  rw [hes, Section.reads_table] at hreads
  change s.Reads (child s.name (some b)) c
  rw [hes', Section.reads_table]
  rintro f rfl
  have hsame := h.same f
  simp only [Field.path, reach_cons, reach_nil, hes, hes'] at hsame
  change lookup f.name es = lookup f.name es' at hsame
  rw [← hsame]
  exact hreads f rfl

/-- The same setting is laid over both trees. -/
theorem lay (h : SameFields a b) (hkeeps : KeepsSections steps v)
    (ha : lay v steps (some a) = .ok a') (hb : Setting.lay v steps (some b) = .ok b') :
    SameFields a' b' :=
  ⟨fun s => hkeeps.isTable ha (h.left s), fun s => hkeeps.isTable hb (h.right s),
    fun f => reach_lay_congr (h.same f) ha hb⟩

/-- A setting that leads to no field is laid over one of the trees. -/
theorem lay_spared (h : SameFields a b) (hkeeps : KeepsSections steps v)
    (hspares : ∀ f : Field, Spares f.path steps v)
    (hb : Setting.lay v steps (some b) = .ok b') : SameFields a b' :=
  ⟨h.left, fun s => hkeeps.isTable hb (h.right s),
    fun f => (h.same f).trans (reach_lay_of_spares (hspares f) hb).symm⟩

theorem overlay (h : SameFields a b) {layer : List (String × Setting)}
    (hlayer : ∀ x ∈ layer, KeepsSections (KeyPath.ofKey x.1) x.2) :
    ∃ a' b', a.overlay layer = .ok a' ∧ b.overlay layer = .ok b' ∧ SameFields a' b' := by
  induction layer generalizing a b with
  | nil => exact ⟨a, b, rfl, rfl, h⟩
  | cons x layer ih =>
    obtain ⟨hx, hlayer⟩ := List.forall_mem_cons.1 hlayer
    obtain ⟨first, hfirst⟩ := hx.exists_lay a
    obtain ⟨second, hsecond⟩ := hx.exists_lay b
    rw [overlay_cons, overlay_cons, write_ofKey, write_ofKey, hfirst, hsecond]
    exact ih (h.lay hx hfirst hsecond) hlayer

/-- Two layers that differ in the middle, where they leave the same fields. -/
theorem overlay_middle (middle middle' : List (String × Setting))
    {before after : List (String × Setting)}
    (hbefore : ∀ x ∈ before, KeepsSections (KeyPath.ofKey x.1) x.2)
    (hafter : ∀ x ∈ after, KeepsSections (KeyPath.ofKey x.1) x.2)
    (hmiddle : ∀ {t : Setting}, SameFields t t →
      ∃ a b, t.overlay middle = .ok a ∧ t.overlay middle' = .ok b ∧ SameFields a b)
    (h : SameFields a a) :
    ∃ a' b', a.overlay (before ++ (middle ++ after)) = .ok a' ∧
      a.overlay (before ++ (middle' ++ after)) = .ok b' ∧ SameFields a' b' := by
  obtain ⟨t, _, ht, ht', hsame⟩ := h.overlay hbefore
  obtain rfl := Except.ok.inj (ht.symm.trans ht')
  obtain ⟨first, second, hfirst, hsecond, hmiddle⟩ := hmiddle hsame
  simp only [overlay_append, ht, ok_bind, hfirst, hsecond]
  exact hmiddle.overlay hafter

theorem overlay_added {before after : List (String × Setting)} {x : String × Setting}
    (hlayer : ∀ y ∈ before ++ after, KeepsSections (KeyPath.ofKey y.1) y.2)
    (hx : KeepsSections (KeyPath.ofKey x.1) x.2)
    (hspares : ∀ f : Field, Spares f.path (KeyPath.ofKey x.1) x.2) (h : SameFields a a) :
    ∃ a' b', a.overlay (before ++ after) = .ok a' ∧ a.overlay (before ++ x :: after) = .ok b' ∧
      SameFields a' b' := by
  obtain ⟨hbefore, hafter⟩ := List.forall_mem_append.1 hlayer
  apply overlay_middle [] [x] hbefore hafter _ h
  intro t ht
  obtain ⟨t', ht'⟩ := hx.exists_lay t
  refine ⟨t, t', rfl, ?_, ht.lay_spared hx hspares ht'⟩
  rw [overlay_cons, write_ofKey, ht']
  rfl

end SameFields

end Setting

open Setting (SameFields KeepsSections Step)

/-! ## Names that lead to no field -/

/-- The names lead past the sections, or to a name in a section that no field has. -/
inductive Config.IsForeign : List String → Prop
  | outside {name : String} {names : List String}
      (h : ∀ s : Section, Text.lower name ≠ s.name) : IsForeign (name :: names)
  | within {name other : String} {names : List String}
      (h : ∀ f : Field, Text.lower name = f.parent.name → Text.lower other ≠ f.name) :
      IsForeign (name :: other :: names)

namespace Config.IsForeign

variable {names : List String}

theorem spares (h : IsForeign names) (v : Setting) (f : Field) :
    Setting.Spares f.path (names.map Step.name) v := by
  cases h with
  | outside h => exact .inl (h f.parent)
  | @within name other names h =>
    by_cases hname : Text.lower name = f.parent.name
    · exact .inr (.inl (h f hname))
    · exact .inl hname

theorem keepsSections (h : IsForeign names) (v : Setting) :
    KeepsSections (names.map Step.name) v := by
  cases h with
  | outside h => exact ⟨_, _, rfl, fun _ s hs => absurd hs (h s)⟩
  | within => exact ⟨_, _, rfl, nofun⟩

end Config.IsForeign

/-! ## Documents -/

/-- A key that is a single name. -/
def Setting.KeyPath.IsName (key : String) : Prop :=
  key.toList ≠ [] ∧ ∀ c ∈ key.toList, isNameChar c

theorem Setting.KeyPath.IsName.ofKey_eq {key : String} (h : IsName key) :
    ofKey key = [.name key] := by
  have htake : key.toList.takeWhile isNameChar = key.toList :=
    List.takeWhile_eq_self_iff.2 h.2
  have hdrop : key.toList.dropWhile isNameChar = [] := List.dropWhile_eq_nil_iff.2 h.2
  have hname : readName? key.toList = some (.name key, []) := by
    unfold readName?
    rw [htake, hdrop]
    split
    · next hnil => exact absurd hnil h.1
    · rw [String.ofList_toList]
  simp [ofKey, parse?, hname, readSteps?]

namespace Document

/-- Every key at the top of a document is a name, and its sections are tables. -/
structure HasSections (d : Document) : Prop where
  isName : ∀ e ∈ d.entries, Setting.KeyPath.IsName e.1
  isTable : ∀ e ∈ d.entries, ∀ s : Section, Text.lower e.1 = s.name → ∃ es, e.2 = .table es

/-- A value in as many tables as there are names, one in the other. -/
def nested (v : Toml) : List String → Toml
  | [] => v
  | name :: names => .table [(name, nested v names)]

/-- A value is added to the entries of a table at the place that the names lead to: as a new entry,
or in the table of an entry that is there. -/
inductive Adds (v : Toml) :
    List String → List (String × Toml) → List (String × Toml) → Prop
  | new {name : String} {names : List String} {before after : List (String × Toml)} :
      Adds v (name :: names) (before ++ after) (before ++ (name, nested v names) :: after)
  | inside {name : String} {names : List String} {before after es es' : List (String × Toml)}
      (h : Adds v names es es') :
      Adds v (name :: names) (before ++ (name, .table es) :: after)
        (before ++ (name, .table es') :: after)

/-- A new entry at the top of a document, with all that is below it. -/
theorem spares_nested {name : String} {names : List String}
    (h : Config.IsForeign (name :: names)) (origin : Option String) (v : Toml) (f : Field) :
    Setting.Spares f.path [.name name] (Setting.ofToml origin (nested v names)) := by
  cases h with
  | outside h => exact .inl (h f.parent)
  | @within _ other names h =>
    by_cases hname : Text.lower name = f.parent.name
    · right
      simp only [nested, Setting.ofToml, Setting.ofEntries, Setting.Spares,
        List.forall_mem_singleton]
      exact .inl (h f hname)
    · exact .inl hname

theorem keepsSections_nested {name : String} {names : List String}
    (h : Config.IsForeign (name :: names)) (origin : Option String) (v : Toml) :
    KeepsSections [.name name] (Setting.ofToml origin (nested v names)) := by
  refine ⟨name, [], rfl, ?_⟩
  intro _ s hs
  cases h with
  | outside h => exact absurd hs (h s)
  | within =>
    rw [nested, Setting.ofToml]
    exact ⟨_, _, rfl⟩

theorem HasSections.keepsSections {d : Document} (h : d.HasSections) {e : String × Toml}
    (he : e ∈ d.entries) :
    KeepsSections (Setting.KeyPath.ofKey e.1) (Setting.ofToml d.origin e.2) := by
  refine ⟨e.1, [], (h.isName e he).ofKey_eq, ?_⟩
  intro _ s hs
  obtain ⟨es, hes⟩ := h.isTable e he s hs
  rw [hes, Setting.ofToml]
  exact ⟨_, _, rfl⟩

/-- What is added under one name is not seen at another. -/
theorem Adds.child_laidOver {v : Toml} {name other : String} {names : List String}
    {es es' : List (String × Toml)} (h : Adds v (name :: names) es es')
    (hne : Text.lower name ≠ other) (origin : Option String) (found : Option Setting) :
    Setting.child other
        (some (Setting.laidOver (.table origin (Setting.ofEntries origin es)) found)) =
      Setting.child other
        (some (Setting.laidOver (.table origin (Setting.ofEntries origin es')) found)) := by
  rw [Setting.child_laidOver_table, Setting.child_laidOver_table]
  cases h <;>
    simp [Setting.ofEntries_append, Setting.ofEntries, Setting.layEntry, hne]

/-- The two forms of a section table, without and with what is added, leave the same fields. -/
theorem Adds.sameFields {v : Toml} {name : String} {names : List String}
    {es es' : List (String × Toml)} {t a b : Setting} {origin : Option String}
    (h : Adds v names es es') (hforeign : Config.IsForeign (name :: names)) (ht : SameFields t t)
    (ha : Setting.lay (Setting.ofToml origin (.table es)) [.name name] (some t) = .ok a)
    (hb : Setting.lay (Setting.ofToml origin (.table es')) [.name name] (some t) = .ok b) :
    SameFields a b := by
  have hkeeps : ∀ es, KeepsSections [.name name] (Setting.ofToml origin (.table es)) := by
    intro es
    rw [Setting.ofToml]
    exact ⟨name, [], rfl, fun _ _ _ => ⟨_, _, rfl⟩⟩
  refine ⟨fun s => (hkeeps es).isTable ha (ht.left s), fun s => (hkeeps es').isTable hb (ht.left s),
    ?_⟩
  intro f
  obtain ⟨inner, hinner, ha'⟩ := Setting.reach_lay_name ha f.parent.name [f.name]
  obtain ⟨inner', hinner', hb'⟩ := Setting.reach_lay_name hb f.parent.name [f.name]
  rw [Config.Field.path, ha', hb']
  split
  · next hname =>
    obtain rfl := Except.ok.inj hinner
    obtain rfl := Except.ok.inj hinner'
    rw [Setting.ofToml, Setting.ofToml]
    cases hforeign with
    | outside houtside => exact absurd hname (houtside f.parent)
    | within hwithin => exact h.child_laidOver (hwithin f hname) origin _
  · rfl

/-- A document to which a setting is added that no field has leaves the same fields. -/
theorem Adds.exists_overlay {d : Document} {entries : List (String × Toml)} {v : Toml}
    {names : List String} {t : Setting} (h : Adds v names d.entries entries)
    (hforeign : Config.IsForeign names) (hname : ∀ name ∈ names.head?, Setting.KeyPath.IsName name)
    (hd : d.HasSections) (ht : SameFields t t) :
    ∃ a b, t.overlay d.settings = .ok a ∧
      t.overlay (Document.settings { d with entries }) = .ok b ∧ SameFields a b := by
  have hkeeps : ∀ e ∈ d.entries,
      KeepsSections (Setting.KeyPath.ofKey e.1) (Setting.ofToml d.origin e.2) :=
    fun e he => hd.keepsSections he
  obtain ⟨origin, entries₀⟩ := d
  unfold settings
  simp only at h hkeeps ⊢
  cases h with
  | @new name names before after =>
    have hkey := (hname name rfl).ofKey_eq
    rw [Setting.ofEntries_append, Setting.ofEntries_append, Setting.ofEntries]
    apply SameFields.overlay_added _ _ _ ht
    · rw [← Setting.ofEntries_append]
      exact Setting.forall_mem_ofEntries hkeeps
    · rw [hkey]
      exact keepsSections_nested hforeign origin v
    · rw [hkey]
      exact spares_nested hforeign origin v
  | @inside name names before after es es' hinside =>
    have hkey := (hname name rfl).ofKey_eq
    obtain ⟨hbefore, hafter⟩ := List.forall_mem_append.1 hkeeps
    have hmiddle : ∀ {t : Setting}, SameFields t t →
        ∃ a b, t.overlay (Setting.ofEntries origin [(name, .table es)]) = .ok a ∧
          t.overlay (Setting.ofEntries origin [(name, .table es')]) = .ok b ∧ SameFields a b := by
      intro t ht
      obtain ⟨a, ha⟩ :=
        Setting.exists_lay_names (Setting.ofToml origin (.table es)) [name] (some t)
      obtain ⟨b, hb⟩ :=
        Setting.exists_lay_names (Setting.ofToml origin (.table es')) [name] (some t)
      refine ⟨a, b, ?_, ?_, hinside.sameFields hforeign ht ha hb⟩
      · rw [Setting.ofEntries, Setting.ofEntries, Setting.overlay_cons, Setting.write_ofKey, hkey]
        exact (congrArg (· >>= _) ha).trans rfl
      · rw [Setting.ofEntries, Setting.ofEntries, Setting.overlay_cons, Setting.write_ofKey, hkey]
        exact (congrArg (· >>= _) hb).trans rfl
    have hsame := SameFields.overlay_middle _ _ (Setting.forall_mem_ofEntries hbefore)
      (Setting.forall_mem_ofEntries fun e he => hafter e (List.mem_cons_of_mem _ he)) hmiddle ht
    simpa only [Setting.ofEntries_append, Setting.ofEntries, List.singleton_append] using hsame

end Document

/-! ## Variables -/

namespace Setting

/-- No key of a variable has an index or is a section itself. -/
def LeavesSections (environment : List (String × String)) : Prop :=
  ∀ key ∈ keys environment, '[' ∉ key.toList ∧ ∀ s : Section, key ≠ s.name

theorem LeavesSections.keepsSections {environment : List (String × String)}
    (h : LeavesSections environment) :
    ∀ x ∈ ofVariables environment, KeepsSections (KeyPath.ofKey x.1) x.2 := by
  intro x hx
  obtain ⟨y, hy, hxy⟩ := List.mem_filterMap.1 hx
  obtain ⟨key, hkey, rfl⟩ := Option.map_eq_some_iff.1 hxy
  obtain ⟨hindex, hsection⟩ := h key (List.mem_filterMap.2 ⟨y, hy, hkey⟩)
  obtain ⟨name, names, hsteps, hchars⟩ := KeyPath.ofKey_names hindex
  refine ⟨name, names, hsteps, ?_⟩
  rintro rfl s hs
  -- a key that is one name is this name, and it is in lower case already
  have hname : key = name := by
    rw [← String.toList_inj, hchars]
    exact List.append_nil _
  have hlower : Text.lower key = key :=
    Text.lower_of_isFolded fun c => isFolded_of_variableKey? hkey
  rw [← hname, hlower] at hs
  exact absurd hs (hsection s)

theorem ofVariables_insert {name : String} {key : String} (hkey : variableKey? name = some key)
    (before after : List (String × String)) (text : String) :
    ofVariables (before ++ (name, text) :: after) =
      ofVariables before ++ (key, ofVariable key text) :: ofVariables after := by
  have hcons : ofVariables ((name, text) :: after) =
      (key, ofVariable key text) :: ofVariables after :=
    List.filterMap_cons_some (by simp only [hkey, Option.map_some])
  rw [ofVariables_append, hcons]

theorem ofVariables_insert_none {name : String} (hkey : variableKey? name = none)
    (before after : List (String × String)) (text : String) :
    ofVariables (before ++ (name, text) :: after) = ofVariables (before ++ after) := by
  have hcons : ofVariables ((name, text) :: after) = ofVariables after :=
    List.filterMap_cons_none (by simp only [hkey, Option.map_none])
  rw [ofVariables_append, ofVariables_append, hcons]

theorem variableKey?_eq_none {name : String}
    (h : ¬ variableStart <+: (Text.lower name).toList) : variableKey? name = none := by
  simp only [variableKey?, List.isPrefixOf_iff_prefix, if_neg h]

end Setting

theorem Host.valueOf?_insert {h : Host} {before after : List (String × String)}
    {name other : String} (hsplit : h.environment = before ++ after) (hne : name ≠ other)
    (text : String) :
    valueOf? { h with environment := before ++ (name, text) :: after } other =
      h.valueOf? other := by
  simp [valueOf?, hsplit, List.find?_append, hne]

/-! ## Loading -/

theorem sameFields_initial :
    SameFields (Leaves.ofConfig none .initial).tree (Leaves.ofConfig none .initial).tree := by
  have htable : ∀ s : Section, Setting.IsTable
      (Setting.child s.name (some (Leaves.ofConfig none .initial).tree)) :=
    fun s => ⟨_, _, Leaves.lookup_tree _ s⟩
  exact ⟨htable, htable, fun _ => rfl⟩

theorem exists_overlay_document {document : Option Document}
    (h : ∀ d ∈ document, d.HasSections) :
    ∃ t, (Leaves.ofConfig none .initial).tree.overlay (document.elim [] Document.settings) =
      .ok t ∧ SameFields t t := by
  have hkeeps : ∀ x ∈ document.elim [] Document.settings,
      KeepsSections (Setting.KeyPath.ofKey x.1) x.2 := by
    cases document with
    | none => nofun
    | some d => exact Setting.forall_mem_ofEntries fun e he => (h d rfl).keepsSections he
  obtain ⟨t, t', ht, ht', hsame⟩ := sameFields_initial.overlay hkeeps
  obtain rfl := Except.ok.inj (ht.symm.trans ht')
  exact ⟨t, ht, hsame⟩

section

variable {h h' : Host} {path path' : Option String}

theorem load_of_sameFields {document document' : Option Document} {a b : Setting} {c : Config}
    (hdocument : h.document path = .ok document) (hdocument' : h'.document path' = .ok document')
    (ha : layered document h.environment = .ok a) (hb : layered document' h'.environment = .ok b)
    (hsame : SameFields a b) (hload : Config.load h path = .ok c) :
    Config.load h' path' = .ok c := by
  obtain ⟨_, tree, hfound, htree, hc, hvalid⟩ := Config.load_eq_ok_iff.1 hload
  obtain rfl := Except.ok.inj (hdocument.symm.trans hfound)
  obtain rfl := Except.ok.inj (ha.symm.trans htree)
  exact Config.load_eq_ok_iff.2 ⟨document', b, hdocument', hb, hsame.ofSetting hc, hvalid⟩

theorem load_iff_of_sameFields {document document' : Option Document} {a b : Setting}
    (hdocument : h.document path = .ok document) (hdocument' : h'.document path' = .ok document')
    (ha : layered document h.environment = .ok a) (hb : layered document' h'.environment = .ok b)
    (hsame : SameFields a b) (c : Config) :
    Config.load h path = .ok c ↔ Config.load h' path' = .ok c :=
  ⟨load_of_sameFields hdocument hdocument' ha hb hsame,
    load_of_sameFields hdocument' hdocument hb ha hsame.symm⟩

/-- An entry that no field has is added to the document. -/
theorem load_iff_of_adds {d : Document} {entries : List (String × Toml)} {names : List String}
    {v : Toml} (hdocument : h.document path = .ok (some d))
    (hdocument' : h'.document path' = .ok (some { d with entries }))
    (henvironment : h'.environment = h.environment) (hd : d.HasSections)
    (hleaves : Setting.LeavesSections h.environment)
    (hadds : Document.Adds v names d.entries entries) (hforeign : Config.IsForeign names)
    (hname : ∀ name ∈ names.head?, Setting.KeyPath.IsName name) (c : Config) :
    Config.load h path = .ok c ↔ Config.load h' path' = .ok c := by
  obtain ⟨below, below', hbelow, hbelow', hsame⟩ :=
    hadds.exists_overlay hforeign hname hd sameFields_initial
  obtain ⟨a, b, ha, hb, hsame⟩ := hsame.overlay hleaves.keepsSections
  apply load_iff_of_sameFields hdocument hdocument' _ _ hsame
  · exact layered_eq_ok_iff.2 ⟨below, hbelow, ha⟩
  · rw [henvironment]
    exact layered_eq_ok_iff.2 ⟨below', hbelow', hb⟩

/-- A variable whose key no field has is added to the environment. -/
theorem load_iff_of_variable {before after : List (String × String)} {name key : String}
    (hsplit : h.environment = before ++ after) (hkey : Setting.variableKey? name = some key)
    (hindex : '[' ∉ key.toList) (hforeign : Config.IsForeign (Setting.KeyPath.names key))
    (hd : ∀ d, h.document path = .ok (some d) → d.HasSections)
    (hleaves : Setting.LeavesSections h.environment) (text : String) (c : Config) :
    Config.load h path = .ok c ↔
      Config.load { h with environment := before ++ (name, text) :: after } path = .ok c := by
  have hsame : Host.document { h with environment := before ++ (name, text) :: after } path =
      h.document path := by
    apply Host.document_eq_of_valueOf?
    · apply Host.valueOf?_insert hsplit
      rintro rfl
      cases hkey
    · apply Host.valueOf?_insert hsplit
      rintro rfl
      cases hkey
  cases hdocument : h.document path with
  | error e => simp [Config.load_eq_ok_iff, hsame, hdocument]
  | ok document =>
    have hsections : ∀ d ∈ document, d.HasSections := by
      rintro d rfl
      exact hd d hdocument
    obtain ⟨below, hbelow, hfields⟩ := exists_overlay_document hsections
    have hkeeps := hleaves.keepsSections
    rw [hsplit, Setting.ofVariables_append] at hkeeps
    have hsteps := Setting.KeyPath.map_names hindex
    obtain ⟨a, b, ha, hb, hfields⟩ := hfields.overlay_added hkeeps
      (x := (key, Setting.ofVariable key text)) (hsteps ▸ hforeign.keepsSections _)
      fun f => hsteps ▸ hforeign.spares _ f
    apply load_iff_of_sameFields hdocument (hsame.trans hdocument) _ _ hfields
    · rw [hsplit]
      exact layered_eq_ok_iff.2 ⟨below, hbelow, (Setting.ofVariables_append _ _).symm ▸ ha⟩
    · apply layered_eq_ok_iff.2 ⟨below, hbelow, _⟩
      rw [Setting.ofVariables_insert hkey]
      exact hb

end

end Unroll
