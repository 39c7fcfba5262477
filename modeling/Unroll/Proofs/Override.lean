import Unroll.Proofs.Reprint

/-!
# One field over the rest

What a source writes at one place does not depend on what stands at others (`Setting.lay_name`). So
two trees that differ at one place only still do when both have been written to anywhere else
(`Setting.Differs.lay`): a field keeps the value that a layer gave it until a later key leads to its
place, above it or below it. If the rest of a configuration can be read without the field, then it
can be read with it (`Config.exists_ofSetting_of_differs`).
-/

namespace Unroll

open Config (Field Section)

namespace Setting

/-! ## Writing at a place -/

/-- What stands at a name below a place. -/
def child (name : String) (found : Option Setting) : Option Setting :=
  lookup name (found.getD unset).entries

/-- A value laid over what stands at its place. -/
def laidOver : Setting → Option Setting → Setting
  | .table _ es, found => merge es (found.getD emptyTable)
  | v, _ => v

theorem put_eq (name : String) (v : Setting) (es : List (String × Setting)) :
    put name v es = assign (Text.lower name) (laidOver v (lookup (Text.lower name) es)) es := by
  cases v with
  | table => rw [put, laidOver]
  | scalar =>
    rw [put, laidOver]
    intro _ _ heq
    cases heq
  | array =>
    rw [put, laidOver]
    intro _ _ heq
    cases heq

theorem laidOver_leaf {v : Setting} (hv : v.IsLeaf) (found : Option Setting) :
    laidOver v found = v := by
  cases v with
  | table => exact hv.elim
  | _ => rfl

theorem merge_append (es es' : List (String × Setting)) (target : Setting) :
    merge (es ++ es') target = merge es' (merge es target) := by
  induction es generalizing target with
  | nil => rw [List.nil_append, merge]
  | cons e es ih => rw [List.cons_append, merge, ih, merge]

/-- A value laid over the place that the steps lead to. -/
def lay (v : Setting) : List Step → Option Setting → Except IndexFault Setting
  | [], found => .ok (laidOver v found)
  | step :: steps, found => write v (step :: steps) (found.getD unset)

/-- A setting with the entry of a name exchanged. -/
def withEntry (name : String) (inner target : Setting) : Setting :=
  .table target.tableOrigin (assign name inner target.entries)

theorem child_withEntry (name : String) (inner target : Setting) :
    child name (some (withEntry name inner target)) = some inner :=
  lookup_assign name inner target.entries

theorem child_withEntry_of_ne {name other : String} (h : other ≠ name) (inner : Setting)
    (found : Option Setting) :
    child other (some (withEntry name inner (found.getD unset))) = child other found :=
  lookup_assign_of_ne h inner (found.getD unset).entries

/-- Only a table has something at a name. -/
theorem exists_table_of_child {name : String} {found : Option Setting} {v : Setting}
    (h : child name found = some v) : ∃ origin es, found = some (.table origin es) := by
  cases found with
  | none => cases h
  | some w =>
    cases w with
    | table origin es => exact ⟨origin, es, rfl⟩
    | _ => cases h

theorem child_getD_emptyTable (name : String) (found : Option Setting) :
    child name (some (found.getD emptyTable)) = child name found := by
  cases found <;> rfl

/-- Only what stands at the name of a step decides what is written below it. -/
theorem lay_name (v : Setting) (name : String) (steps : List Step) (found : Option Setting) :
    lay v (.name name :: steps) found =
      lay v steps (child (Text.lower name) found) >>= fun inner =>
        .ok (withEntry (Text.lower name) inner (found.getD unset)) := by
  cases steps with
  | nil =>
    rw [lay, lay, write, put_eq]
    rfl
  | cons step steps =>
    rw [lay, write]
    · rfl
    · exact List.cons_ne_nil _ _

theorem KeyPath.ofKey_eq_cons (key : String) : ∃ step steps, ofKey key = step :: steps := by
  unfold ofKey
  cases hparse : parse? key with
  | none => exact ⟨_, [], rfl⟩
  | some steps =>
    obtain ⟨⟨first, rest⟩, -, hsteps⟩ := Option.bind_eq_some_iff.1 hparse
    obtain ⟨others, -, hsteps⟩ := Option.bind_eq_some_iff.1 hsteps
    exact ⟨first, others, (Option.some.inj hsteps).symm⟩

theorem write_ofKey (v : Setting) (key : String) (tree : Setting) :
    write v (KeyPath.ofKey key) tree = lay v (KeyPath.ofKey key) (some tree) := by
  obtain ⟨step, steps, hkey⟩ := KeyPath.ofKey_eq_cons key
  rw [hkey]
  rfl

/-! ## Trees that differ at one place -/

/-- The second setting is the first one with a value at the place that the names lead to. -/
def Differs (v : Setting) : List String → Option Setting → Option Setting → Prop
  | [], _, b => b = some v
  | name :: names, a, b =>
    (∀ other, other ≠ name → child other b = child other a) ∧
      Differs v names (child name a) (child name b)

/-- A value that is laid over the place of the steps leaves the place of the names alone. -/
def Spares : List String → List Step → Setting → Prop
  | name :: names, .name other :: steps, w => Text.lower other ≠ name ∨ Spares names steps w
  | name :: names, [], .table _ es => ∀ e ∈ es, Text.lower e.1 ≠ name ∨ Spares names [] e.2
  | _, _, _ => False

variable {v w : Setting} {names : List String} {steps : List Step} {a b : Option Setting}

theorem Differs.withEntry {name other : String} (h : Differs v (name :: names) a b)
    (hne : other ≠ name) (inner : Setting) :
    Differs v (name :: names) (some (withEntry other inner (a.getD unset)))
      (some (withEntry other inner (b.getD unset))) := by
  refine ⟨?_, ?_⟩
  · intro third hthird
    by_cases heq : third = other
    · subst heq
      rw [child_withEntry, child_withEntry]
    · rw [child_withEntry_of_ne heq, child_withEntry_of_ne heq]
      exact h.1 third hthird
  · rw [child_withEntry_of_ne hne.symm, child_withEntry_of_ne hne.symm]
    exact h.2

theorem Differs.withEntry_below {name : String} (h : Differs v (name :: names) a b)
    {first second : Setting} (hinner : Differs v names (some first) (some second)) :
    Differs v (name :: names) (some (Setting.withEntry name first (a.getD unset)))
      (some (Setting.withEntry name second (b.getD unset))) := by
  refine ⟨?_, ?_⟩
  · intro other hother
    rw [child_withEntry_of_ne hother, child_withEntry_of_ne hother]
    exact h.1 other hother
  · rw [child_withEntry, child_withEntry]
    exact hinner

theorem Differs.getD_emptyTable {name : String} (h : Differs v (name :: names) a b) :
    Differs v (name :: names) (some (a.getD emptyTable)) (some (b.getD emptyTable)) := by
  refine ⟨?_, ?_⟩
  · intro other hother
    rw [child_getD_emptyTable, child_getD_emptyTable]
    exact h.1 other hother
  · rw [child_getD_emptyTable, child_getD_emptyTable]
    exact h.2

/-- Entries are laid over both settings one after another. What happens below the name that the
settings differ at is the induction hypothesis of `Differs.lay`. -/
theorem Differs.merge {name : String} {es : List (String × Setting)} {first second : Setting}
    (ih : ∀ {w : Setting} {a b : Option Setting}, Differs v names a b → Spares names [] w →
      Differs v names (some (laidOver w a)) (some (laidOver w b)))
    (h : Differs v (name :: names) (some first) (some second))
    (hspares : ∀ e ∈ es, Text.lower e.1 ≠ name ∨ Spares names [] e.2) :
    Differs v (name :: names) (some (merge es first)) (some (Setting.merge es second)) := by
  induction es generalizing first second with
  | nil => simpa only [Setting.merge] using h
  | cons e es ihes =>
    rw [List.forall_mem_cons] at hspares
    rw [Setting.merge, Setting.merge, put_eq, put_eq]
    apply ihes _ hspares.2
    by_cases hname : Text.lower e.1 = name
    · rw [hname]
      exact h.withEntry_below (ih h.2 (hspares.1.resolve_left (not_not.2 hname)))
    · have hsame := h.1 _ hname
      rw [show lookup (Text.lower e.1) second.entries = _ from hsame]
      exact h.withEntry hname _

/-- Settings that differ at one place are written to alike at every other one. -/
theorem Differs.lay {a' : Setting} (h : Differs v names a b) (hspares : Spares names steps w)
    (ha : lay w steps a = .ok a') :
    ∃ b', Setting.lay w steps b = .ok b' ∧ Differs v names (some a') (some b') := by
  induction names generalizing steps w a b a' with
  | nil => cases steps <;> exact hspares.elim
  | cons name names ih =>
    match steps, w, hspares with
    | .name other :: steps, w, hspares =>
      -- the step leads elsewhere, where the settings are the same, or on towards the place
      rw [lay_name] at ha ⊢
      obtain ⟨inner, hinner, ha⟩ := Config.bind_eq_ok_iff.1 ha
      obtain rfl := Except.ok.inj ha
      by_cases hname : Text.lower other = name
      · rw [hname] at hinner ⊢
        obtain ⟨second, hsecond, hbelow⟩ := ih h.2 (hspares.resolve_left (not_not.2 hname)) hinner
        exact ⟨_, by rw [hsecond]; rfl, h.withEntry_below hbelow⟩
      · rw [h.1 _ hname, hinner]
        exact ⟨_, rfl, h.withEntry hname inner⟩
    | [], .table _ es, hspares =>
      obtain rfl := Except.ok.inj ha
      refine ⟨_, rfl, Differs.merge ?_ h.getD_emptyTable hspares⟩
      intro w a b h hspares
      obtain ⟨_, heq, hbelow⟩ := ih h hspares rfl
      obtain rfl := Except.ok.inj heq
      exact hbelow

/-- A layer that leaves the place alone keeps the difference. -/
theorem Differs.overlay {first second last : Setting} {layer : List (String × Setting)}
    (h : Differs v names (some first) (some second))
    (hspares : ∀ x ∈ layer, Spares names (KeyPath.ofKey x.1) x.2)
    (hfirst : first.overlay layer = .ok last) :
    ∃ last', second.overlay layer = .ok last' ∧ Differs v names (some last) (some last') := by
  induction layer generalizing first second with
  | nil =>
    obtain rfl := Except.ok.inj hfirst
    exact ⟨second, rfl, h⟩
  | cons x layer ih =>
    rw [List.forall_mem_cons] at hspares
    rw [overlay_cons, write_ofKey] at hfirst ⊢
    obtain ⟨next, hnext, hfirst⟩ := Config.bind_eq_ok_iff.1 hfirst
    obtain ⟨next', hnext', hdiffers⟩ := h.lay hspares.1 hnext
    rw [hnext', ok_bind]
    exact ih hdiffers hspares.2 hfirst

/-! ## Setting one place -/

/-- A leaf is all that stands at its place, and the rest stays as it is. -/
theorem differs_lay (hv : v.IsLeaf) (path : List String) (found : Option Setting) :
    ∃ b, Setting.lay v (path.map .name) found = .ok b ∧
      Differs v (path.map Text.lower) found (some b) := by
  induction path generalizing found with
  | nil => exact ⟨v, by rw [List.map_nil, Setting.lay, laidOver_leaf hv], rfl⟩
  | cons name path ih =>
    obtain ⟨inner, hinner, hbelow⟩ := ih (child (Text.lower name) found)
    rw [List.map_cons, lay_name, hinner]
    refine ⟨_, rfl, ?_, ?_⟩
    · intro other hother
      exact child_withEntry_of_ne hother inner found
    · rw [child_withEntry]
      exact hbelow

/-- A leaf among the entries of a table is what stands at its name, if none of the entries after it
has this name too. -/
theorem differs_merge (hv : v.IsLeaf) {name : String} (es : List (String × Setting))
    {es' : List (String × Setting)} (hes' : ∀ e ∈ es', Text.lower e.1 ≠ Text.lower name)
    (target : Setting) :
    Differs v [Text.lower name] (some (merge (es ++ es') target))
      (some (merge (es ++ (name, v) :: es') target)) := by
  rw [merge_append, merge_append, merge, put_eq, laidOver_leaf hv]
  refine Differs.merge (fun _ hspares => hspares.elim) ⟨?_, ?_⟩ fun e he => .inl (hes' e he)
  · intro other hother
    exact child_withEntry_of_ne hother v (some (merge es target))
  · exact child_withEntry _ v (merge es target)

theorem differs_lay_table (hv : v.IsLeaf) {name : String} (es : List (String × Setting))
    {es' : List (String × Setting)} (hes' : ∀ e ∈ es', Text.lower e.1 ≠ Text.lower name)
    (origin : Option String) (parent : String) (found : Option Setting) :
    ∃ first second, Setting.lay (.table origin (es ++ es')) [.name parent] found = .ok first ∧
      Setting.lay (.table origin (es ++ (name, v) :: es')) [.name parent] found = .ok second ∧
      Differs v [Text.lower parent, Text.lower name] (some first) (some second) := by
  rw [lay_name, lay_name, Setting.lay, Setting.lay]
  refine ⟨_, _, rfl, rfl, ?_, ?_⟩
  · intro other hother
    rw [child_withEntry_of_ne hother, child_withEntry_of_ne hother]
  · rw [child_withEntry, child_withEntry]
    exact differs_merge hv es hes' _

end Setting

/-! ## Reading the field and the rest -/

namespace Config

/-- The steps to a field. -/
def Field.path (f : Field) : List String :=
  [f.parent.name, f.name]

theorem Field.valid_initial (f : Field) : f.Valid (initial.get f) :=
  validate_eq_ok_iff.1 rfl f

/-- A section has the values of its fields, whatever the rest of the configuration is. -/
theorem Section.Reads.congr {s : Section} {v : Option Setting} {c d : Config} (h : s.Reads v c)
    (hget : ∀ f : Field, f.parent = s → d.get f = c.get f) : s.Reads v d := by
  cases s with
  | run =>
    have hrun : d.run = c.run := by
      have hn : d.run.n = c.run.n := hget .n rfl
      have hmethods : d.run.methods = c.run.methods := hget .methods rfl
      have hruns : d.run.runs = c.run.runs := hget .runs rfl
      obtain ⟨⟨_, _, _⟩, _⟩ := c
      obtain ⟨⟨_, _, _⟩, _⟩ := d
      simp_all
    rw [Reads, hrun]
    exact h
  | output =>
    have houtput : d.output = c.output := by
      have hformat : d.output.format = c.output.format := hget .format rfl
      have hprecision : d.output.precision = c.output.precision := hget .precision rfl
      obtain ⟨_, ⟨_, _⟩⟩ := c
      obtain ⟨_, ⟨_, _⟩⟩ := d
      simp_all
    rw [Reads, houtput]
    exact h

/-- The configurations differ in one field at most, and in fields of its section that have their
initial values. -/
def KeepsBut (f : Field) (c d : Config) : Prop :=
  ∀ g, g ≠ f → d.get g = c.get g ∨ g.parent = f.parent ∧ d.get g = initial.get g

/-- What the fields of a section are without the one that is laid over them. A section that is no
table has none of them by name. -/
theorem exists_reads_child {s : Section} {found : Option Setting} {c : Config}
    (h : s.Reads found c) :
    ∃ base : Config,
      (∀ g : Field, g.parent = s → g.read (Setting.child g.name found) = .ok (base.get g)) ∧
      (∀ g : Field, g.parent ≠ s → base.get g = c.get g) ∧
      ∀ g : Field, base.get g = c.get g ∨ base.get g = initial.get g := by
  by_cases htable : ∃ origin es, found = some (.table origin es)
  · obtain ⟨origin, es, rfl⟩ := htable
    exact ⟨c, Section.reads_table.1 h, fun _ _ => rfl, fun _ => .inl rfl⟩
  · have hchild : ∀ name, Setting.child name found = none := by
      intro name
      cases hfound : Setting.child name found with
      | none => rfl
      | some v => exact absurd (Setting.exists_table_of_child hfound) htable
    refine ⟨ofFields fun g => if g.parent = s then initial.get g else c.get g, ?_, ?_, ?_⟩
    · intro g hg
      rw [hchild, get_ofFields, if_pos hg]
      rfl
    · intro g hg
      rw [get_ofFields, if_neg hg]
    · intro g
      rw [get_ofFields]
      split
      · exact .inr rfl
      · exact .inl rfl

theorem exists_ofSetting_of_differs {f : Field} {v : Setting} {x : f.Value} {a b : Setting}
    {c : Config} (h : Setting.Differs v f.path (some a) (some b)) (hv : f.decode v = .ok x)
    (ha : ofSetting a = .ok c) :
    ∃ d, ofSetting b = .ok d ∧ d.get f = x ∧ KeepsBut f c d := by
  rw [ofSetting_eq_ok_iff] at ha
  obtain ⟨helsewhere, hothers, hfield⟩ := h
  obtain ⟨base, hbase, hkept, hvalues⟩ := exists_reads_child (ha f.parent)
  obtain ⟨origin, es, hsection⟩ := Setting.exists_table_of_child hfield
  rw [hsection] at hothers hfield
  let d : Config := ofFields (Function.update base.get f x)
  have hself : d.get f = x := by
    rw [get_ofFields, Function.update_self]
  have hother : ∀ g, g ≠ f → d.get g = base.get g := by
    intro g hg
    rw [get_ofFields, Function.update_of_ne hg]
  refine ⟨d, ofSetting_eq_ok_iff.2 ?_, hself, ?_⟩
  · intro s
    by_cases hs : s = f.parent
    · subst hs
      show Section.Reads (Setting.child f.parent.name (some b)) d f.parent
      rw [hsection, Section.reads_table]
      intro g hg
      show g.read (Setting.child g.name (some (.table origin es))) = _
      by_cases heq : g = f
      · subst heq
        rw [hfield, hself]
        exact hv
      · have hname : g.name ≠ f.name := fun hname => heq (Field.eq_of_name hg hname)
        rw [hothers _ hname, hother g heq]
        exact hbase g hg
    · have hname : s.name ≠ f.parent.name := fun hname => hs (Section.eq_of_name hname)
      show Section.Reads (Setting.child s.name (some b)) d s
      rw [helsewhere _ hname]
      apply (ha s).congr
      rintro g rfl
      rw [hother g fun heq => hs (heq ▸ rfl), hkept g hs]
  · intro g hg
    rw [hother g hg]
    by_cases hparent : g.parent = f.parent
    · exact (hvalues g).imp_right fun hinitial => ⟨hparent, hinitial⟩
    · exact .inl (hkept g hparent)

end Config

/-! ## Layers with the field and without it -/

theorem Setting.overlay_append (tree : Setting) (first second : List (String × Setting)) :
    tree.overlay (first ++ second) = tree.overlay first >>= fun next => next.overlay second :=
  List.foldlM_append

theorem Setting.ofEntries_append (origin : Option String) (first second : List (String × Toml)) :
    ofEntries origin (first ++ second) = ofEntries origin first ++ ofEntries origin second := by
  rw [ofEntries_eq_map, ofEntries_eq_map, ofEntries_eq_map, List.map_append]

theorem Setting.forall_mem_ofEntries {P : String × Setting → Prop} {origin : Option String}
    {es : List (String × Toml)} (h : ∀ e ∈ es, P (e.1, ofToml origin e.2)) :
    ∀ e ∈ ofEntries origin es, P e := by
  rw [ofEntries_eq_map]
  exact List.forall_mem_map.2 h

theorem Setting.ofVariables_append (first second : List (String × String)) :
    ofVariables (first ++ second) = ofVariables first ++ ofVariables second :=
  List.filterMap_append

namespace Config

variable {f : Field}

theorem Field.map_path (f : Field) : f.path.map Text.lower = f.path := by
  simp [path]

theorem Field.ofKey_eq_path (f : Field) : Setting.KeyPath.ofKey f.key = f.path.map .name :=
  f.ofKey_key

theorem Field.ofVariables_variableName (f : Field) (text : String)
    (rest : List (String × String)) :
    Setting.ofVariables ((f.variableName, text) :: rest) =
      (f.key, Setting.ofVariable f.key text) :: Setting.ofVariables rest := by
  unfold Setting.ofVariables
  rw [List.filterMap_cons_some]
  simp only [Setting.variableKey?_variableName, Option.map_some]

/-- A variable that does not lead to the place of a field, above it or below it. -/
def Field.SparedBy (f : Field) (x : String × String) : Prop :=
  ∀ key, Setting.variableKey? x.1 = some key →
    Setting.Spares f.path (Setting.KeyPath.ofKey key) (Setting.ofVariable key x.2)

/-- An environment is the rest of its variables and the one of a field, which no variable after it
takes back. -/
inductive Field.InVariables (f : Field) (text : String) :
    List (String × String) → List (String × String) → Prop
  | mk {before after : List (String × String)} (hafter : ∀ x ∈ after, f.SparedBy x) :
      InVariables f text (before ++ after) (before ++ (f.variableName, text) :: after)

/-- A document is the rest of its entries and the one of a field in its section, which no entry
after it takes back. -/
inductive Field.InDocument (f : Field) (value : Toml) : Document → Document → Prop
  | mk {origin : Option String} {before after es es' : List (String × Toml)}
      (hes' : ∀ e ∈ es', Text.lower e.1 ≠ f.name)
      (hafter : ∀ e ∈ after,
        Setting.Spares f.path (Setting.KeyPath.ofKey e.1) (Setting.ofToml origin e.2)) :
      InDocument f value ⟨origin, before ++ (f.parent.name, .table (es ++ es')) :: after⟩
        ⟨origin, before ++ (f.parent.name, .table (es ++ (f.name, value) :: es')) :: after⟩

theorem Field.spares_ofVariables {environment : List (String × String)}
    (h : ∀ x ∈ environment, f.SparedBy x) :
    ∀ x ∈ Setting.ofVariables environment,
      Setting.Spares f.path (Setting.KeyPath.ofKey x.1) x.2 := by
  intro x hx
  obtain ⟨named, hmem, hx⟩ := List.mem_filterMap.1 hx
  obtain ⟨key, hkey, rfl⟩ := Option.map_eq_some_iff.1 hx
  exact h named hmem key hkey

/-- The variable of a field sets it, and nothing else. -/
theorem exists_layered_variable {document : Option Document}
    {rest environment : List (String × String)} {tree : Setting} {text : String}
    (hin : f.InVariables text rest environment) (h : layered document rest = .ok tree) :
    ∃ tree', layered document environment = .ok tree' ∧
      Setting.Differs (Setting.ofVariable f.key text) f.path (some tree) (some tree') := by
  obtain ⟨hafter⟩ := hin
  obtain ⟨below, hbelow, hoverlay⟩ := layered_eq_ok_iff.1 h
  rw [Setting.ofVariables_append, Setting.overlay_append] at hoverlay
  obtain ⟨first, hfirst, hrest⟩ := bind_eq_ok_iff.1 hoverlay
  obtain ⟨second, hsecond, hdiffers⟩ :=
    Setting.differs_lay (Setting.isLeaf_ofVariable f.key text) f.path (some first)
  rw [f.map_path] at hdiffers
  obtain ⟨tree', htree', hends⟩ := hdiffers.overlay (Field.spares_ofVariables hafter) hrest
  refine ⟨tree', layered_eq_ok_iff.2 ⟨below, hbelow, ?_⟩, hends⟩
  rw [Setting.ofVariables_append, Setting.overlay_append, hfirst, ok_bind,
    f.ofVariables_variableName, Setting.overlay_cons, Setting.write_ofKey, f.ofKey_eq_path, hsecond]
  exact htree'

/-- An entry of its section in a document sets a field, and nothing else. -/
theorem exists_layered_entry {rest d : Document} {environment : List (String × String)}
    {tree : Setting} {value : Toml} (hin : f.InDocument value rest d)
    (hvalue : (Setting.ofToml d.origin value).IsLeaf)
    (henvironment : ∀ x ∈ environment, f.SparedBy x)
    (h : layered (some rest) environment = .ok tree) :
    ∃ tree', layered (some d) environment = .ok tree' ∧
      Setting.Differs (Setting.ofToml d.origin value) f.path (some tree) (some tree') := by
  obtain @⟨origin, before, after, es, es', hes', hafter⟩ := hin
  obtain ⟨below, hbelow, hoverlay⟩ := layered_eq_ok_iff.1 h
  simp only [Option.elim_some, Document.settings, Setting.ofEntries_append] at hbelow
  rw [Setting.overlay_append] at hbelow
  obtain ⟨base, hbase, hbelow⟩ := bind_eq_ok_iff.1 hbelow
  rw [Setting.ofEntries, Setting.overlay_cons, Setting.ofToml, Setting.ofEntries_append] at hbelow
  obtain ⟨first, hfirst, hbelow⟩ := bind_eq_ok_iff.1 hbelow
  rw [Setting.write_ofKey, Section.ofKey_name] at hfirst
  have hrest : ∀ e ∈ Setting.ofEntries origin es', Text.lower e.1 ≠ Text.lower f.name := by
    rw [f.lower_name]
    exact Setting.forall_mem_ofEntries hes'
  have hlater : ∀ e ∈ Setting.ofEntries origin after,
      Setting.Spares f.path (Setting.KeyPath.ofKey e.1) e.2 :=
    Setting.forall_mem_ofEntries hafter
  obtain ⟨_, second, hfirst', hsecond, hdiffers⟩ :=
    Setting.differs_lay_table hvalue (Setting.ofEntries origin es) hrest origin f.parent.name
      (some base)
  obtain rfl := Except.ok.inj (hfirst'.symm.trans hfirst)
  rw [Section.lower_name, f.lower_name] at hdiffers
  obtain ⟨below', hbelow', hdiffers⟩ := hdiffers.overlay hlater hbelow
  obtain ⟨tree', htree', hends⟩ :=
    hdiffers.overlay (Field.spares_ofVariables henvironment) hoverlay
  refine ⟨tree', layered_eq_ok_iff.2 ⟨below', ?_, htree'⟩, hends⟩
  simp only [Option.elim_some, Document.settings, Setting.ofEntries_append]
  rw [Setting.overlay_append, hbase, ok_bind, Setting.ofEntries, Setting.overlay_cons,
    Setting.write_ofKey, Section.ofKey_name, Setting.ofToml, Setting.ofEntries_append,
    Setting.ofEntries, hsecond]
  exact hbelow'

/-! ## Loading -/

/-- The layers can be read, and all fields but one can be run. -/
def ReadsBut (f : Field) (document : Option Document) (environment : List (String × String))
    (c : Config) : Prop :=
  ∃ tree, layered document environment = .ok tree ∧ ofSetting tree = .ok c ∧
    ∀ g, g ≠ f → g.Valid (c.get g)

theorem ReadsBut.of_ofLayers {document : Option Document} {environment : List (String × String)}
    {c : Config} (h : ofLayers document environment = .ok c) :
    ReadsBut f document environment c := by
  unfold ofLayers at h
  simp only [bind_eq_ok_iff, mapError_eq_ok_iff] at h
  obtain ⟨tree, htree, d, hd, ⟨⟩, hvalid, ⟨⟩⟩ := h
  exact ⟨tree, htree, hd, fun g _ => validate_eq_ok_iff.1 hvalid g⟩

/-- With nothing set, every field has its initial value. -/
theorem ReadsBut.initial : ReadsBut f none [] Config.initial := by
  have hread := (Leaves.reads_ofConfig none Config.initial).ofSetting_tree
  rw [ofFields_get] at hread
  exact ⟨_, layered_eq_ok_iff.2 ⟨_, rfl, rfl⟩, hread, fun g _ => g.valid_initial⟩

theorem exists_load_of_differs {h : Host} {path : Option String} {document : Option Document}
    {v a b : Setting} {x : f.Value} {c : Config} (hdocument : h.document path = .ok document)
    (hlayered : layered document h.environment = .ok b)
    (hdiffers : Setting.Differs v f.path (some a) (some b)) (hv : f.decode v = .ok x)
    (hx : f.Valid x) (ha : ofSetting a = .ok c) (hc : ∀ g, g ≠ f → g.Valid (c.get g)) :
    ∃ d, Config.load h path = .ok d ∧ d.get f = x ∧ KeepsBut f c d := by
  obtain ⟨d, hd, hself, hkeeps⟩ := exists_ofSetting_of_differs hdiffers hv ha
  refine ⟨d, load_eq_ok_iff.2 ⟨document, b, hdocument, hlayered, hd, ?_⟩, hself, hkeeps⟩
  rw [validate_eq_ok_iff]
  intro g
  by_cases hg : g = f
  · subst hg
    rw [hself]
    exact hx
  · rcases hkeeps g hg with hkept | ⟨-, hinitial⟩
    · rw [hkept]
      exact hc g hg
    · rw [hinitial]
      exact g.valid_initial

/-- A variable gives its field the value that it spells, over any file and any other variables. -/
theorem exists_load_variable {h : Host} {path : Option String} {document : Option Document}
    {rest : List (String × String)} {text : String} {x : f.Value} {c : Config}
    (hdocument : h.document path = .ok document) (hin : f.InVariables text rest h.environment)
    (hrest : ReadsBut f document rest c)
    (hx : f.decode (Setting.ofVariable f.key text) = .ok x) (hvalid : f.Valid x) :
    ∃ d, Config.load h path = .ok d ∧ d.get f = x ∧ KeepsBut f c d := by
  obtain ⟨tree, htree, hread, hc⟩ := hrest
  obtain ⟨tree', htree', hdiffers⟩ := exists_layered_variable hin htree
  exact exists_load_of_differs hdocument htree' hdiffers hx hvalid hread hc

/-- An entry of a document gives its field the value that it has, if no variable sets the field. -/
theorem exists_load_entry {h : Host} {path : Option String} {rest d : Document} {value : Toml}
    {x : f.Value} {c : Config} (hdocument : h.document path = .ok (some d))
    (hin : f.InDocument value rest d) (henvironment : ∀ y ∈ h.environment, f.SparedBy y)
    (hrest : ReadsBut f (some rest) h.environment c)
    (hleaf : (Setting.ofToml d.origin value).IsLeaf)
    (hx : f.decode (Setting.ofToml d.origin value) = .ok x) (hvalid : f.Valid x) :
    ∃ e, Config.load h path = .ok e ∧ e.get f = x ∧ KeepsBut f c e := by
  obtain ⟨tree, htree, hread, hc⟩ := hrest
  obtain ⟨tree', htree', hdiffers⟩ := exists_layered_entry hin hleaf henvironment htree
  exact exists_load_of_differs hdocument htree' hdiffers hx hvalid hread hc

end Config

end Unroll
