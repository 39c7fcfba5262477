import Mathlib.Tactic.Choose
import Unroll.Program
import Unroll.Proofs.WrittenDocument

/-!
# Printing a configuration again

A configuration that was printed is loaded under the environment and the command line that it comes
from. The variables are then written to two trees: to the one that the first document left, of
which nothing is known, and to the one that the printed document leaves. At every place the second
tree either still has what was printed, or the variables have made the two alike (`Follows`); where
they made a table they may have added names to one that the first document had
(`FieldFollows.tables`). So if the first tree can be read, the second one can
(`Follows.exists_ofSetting`), and each of its fields has the value that the first tree has or the
one that was printed.
-/

namespace Unroll

open Config (Field Section)

/-! ## Writing below names -/

namespace Setting

theorem lookup_cons (name : String) (e : String × Setting) (es : List (String × Setting)) :
    lookup name (e :: es) = if e.1 = name then some e.2 else lookup name es := by
  unfold lookup
  by_cases h : e.1 = name
  · rw [if_pos h, List.find?_cons_of_pos (by simpa using h)]
    rfl
  · rw [if_neg h, List.find?_cons_of_neg (by simpa using h)]

theorem lookup_assign (name : String) (v : Setting) (es : List (String × Setting)) :
    lookup name (assign name v es) = some v := by
  induction es with
  | nil => rw [assign, lookup_cons, if_pos rfl]
  | cons e es ih =>
    rw [assign]
    split
    · rw [lookup_cons, if_pos rfl]
    · next h => rw [lookup_cons, if_neg h, ih]

theorem lookup_assign_of_ne {name other : String} (h : other ≠ name) (v : Setting)
    (es : List (String × Setting)) : lookup other (assign name v es) = lookup other es := by
  induction es with
  | nil => rw [assign, lookup_cons, if_neg (Ne.symm h)]
  | cons e es ih =>
    rw [assign]
    split
    · next hname => rw [lookup_cons, lookup_cons, if_neg (Ne.symm h), if_neg (hname ▸ Ne.symm h)]
    · rw [lookup_cons, lookup_cons, ih]

theorem assign_ne_nil (name : String) (v : Setting) (es : List (String × Setting)) :
    assign name v es ≠ [] := by
  cases es with
  | nil => exact List.cons_ne_nil _ _
  | cons e es =>
    rw [assign]
    split <;> exact List.cons_ne_nil _ _

theorem mem_names_assign {name other : String} {v : Setting} {es : List (String × Setting)} :
    other ∈ (assign name v es).map Prod.fst ↔ other = name ∨ other ∈ es.map Prod.fst := by
  induction es with
  | nil => simp [assign]
  | cons e es ih =>
    rw [assign]
    split
    · next h => simp [h]
    · rw [List.map_cons, List.mem_cons, ih, List.map_cons, List.mem_cons]
      exact or_left_comm

theorem nodup_names_assign {name : String} {v : Setting} {es : List (String × Setting)}
    (h : (es.map Prod.fst).Nodup) : ((assign name v es).map Prod.fst).Nodup := by
  induction es with
  | nil => simp [assign]
  | cons e es ih =>
    rw [List.map_cons, List.nodup_cons] at h
    rw [assign]
    split
    · next heq =>
      rw [List.map_cons, List.nodup_cons, ← heq]
      exact h
    · next hne =>
      rw [List.map_cons, List.nodup_cons, mem_names_assign, not_or]
      exact ⟨⟨hne, h.1⟩, ih h.2⟩

/-- Lays a leaf over the place that the names lead to. -/
def place (v : Setting) : List String → Setting → Setting
  | [], _ => v
  | name :: names, target =>
    let inner := place v names ((lookup (Text.lower name) target.entries).getD unset)
    .table target.tableOrigin (assign (Text.lower name) inner target.entries)

theorem write_names {v : Setting} (hv : v.IsLeaf) (names : List String) (target : Setting) :
    write v (names.map .name) target = .ok (place v names target) := by
  induction names generalizing target with
  | nil => rfl
  | cons name names ih =>
    cases names with
    | nil =>
      rw [List.map_cons, List.map_nil, write, put_leaf hv]
      rfl
    | cons next names =>
      rw [List.map_cons, List.map_cons, write, ← List.map_cons, ih]
      · rfl
      · exact List.cons_ne_nil _ _

namespace KeyPath

/-- The characters of names with a point before each. -/
def pointedChars (names : List String) : List Char :=
  names.flatMap fun name => '.' :: name.toList

theorem readName?_eq_some {cs rest : List Char} {step : Step}
    (h : readName? cs = some (step, rest)) :
    ∃ name : String, step = .name name ∧ cs = name.toList ++ rest := by
  unfold readName? at h
  split at h
  · cases h
  · obtain ⟨rfl, rfl⟩ := Prod.mk.inj (Option.some.inj h)
    exact ⟨_, rfl, by rw [String.toList_ofList, List.takeWhile_append_dropWhile]⟩

theorem readSteps?_names {fuel : Nat} {cs : List Char} {steps : List Step} (hcs : '[' ∉ cs)
    (h : readSteps? fuel cs = some steps) :
    ∃ names : List String, steps = names.map .name ∧ cs = pointedChars names := by
  induction fuel generalizing cs steps with
  | zero =>
    cases cs with
    | nil =>
      rw [readSteps?] at h
      exact ⟨[], (Option.some.inj h).symm, rfl⟩
    | cons c cs =>
      rw [readSteps?] at h
      · cases h
      · exact List.cons_ne_nil _ _
  | succ fuel ih =>
    unfold readSteps? at h
    split at h
    · exact ⟨[], (Option.some.inj h).symm, rfl⟩
    · next => cases ‹_ = 0›
    · next fuel' rest heq =>
      cases heq
      obtain ⟨⟨step, rest'⟩, hname, h⟩ := Option.bind_eq_some_iff.1 h
      obtain ⟨others, hothers, h⟩ := Option.bind_eq_some_iff.1 h
      obtain ⟨name, rfl, hfirst⟩ := readName?_eq_some hname
      have hrest : '[' ∉ rest' := fun hmem =>
        hcs (List.mem_cons_of_mem _ (hfirst ▸ List.mem_append_right _ hmem))
      obtain ⟨names, rfl, hnames⟩ := ih hrest hothers
      exact ⟨name :: names, (Option.some.inj h).symm, by rw [hfirst, hnames]; rfl⟩
    · exact absurd List.mem_cons_self hcs
    · cases h

theorem ofKey_names {key : String} (h : '[' ∉ key.toList) :
    ∃ name names, ofKey key = List.map .name (name :: names) ∧
      key.toList = name.toList ++ pointedChars names := by
  unfold ofKey
  cases hparse : parse? key with
  | none => exact ⟨key, [], rfl, (List.append_nil _).symm⟩
  | some steps =>
    obtain ⟨⟨first, rest⟩, hfirst, hsteps⟩ := Option.bind_eq_some_iff.1 hparse
    obtain ⟨others, hothers, hsteps⟩ := Option.bind_eq_some_iff.1 hsteps
    obtain ⟨name, rfl, hkey⟩ := readName?_eq_some hfirst
    have hrest : '[' ∉ rest := fun hmem => h (hkey ▸ List.mem_append_right _ hmem)
    obtain ⟨names, rfl, hnames⟩ := readSteps?_names hrest hothers
    exact ⟨name, names, (Option.some.inj hsteps).symm, hnames ▸ hkey⟩

end KeyPath

end Setting

/-! ## Two trees under the same variables -/

open Setting (lookup assign place unset)

/-- A field of the first tree, the same field of the second one, and the leaf that was printed for
it. -/
inductive FieldFollows (printed : Setting) : Option Setting → Option Setting → Prop
  /-- The second tree still has what was printed. -/
  | kept (first : Option Setting) : FieldFollows printed first (some printed)
  | same (found : Option Setting) : FieldFollows printed found found
  /-- Names of variables made up the second table, and the first one got them too. -/
  | tables {origin origin' : Option String} {es es' : List (String × Setting)}
      (hne : es' ≠ []) (hnodup : (es'.map Prod.fst).Nodup)
      (hsub : ∀ name ∈ es'.map Prod.fst, name ∈ es.map Prod.fst) :
      FieldFollows printed (some (.table origin es)) (some (.table origin' es'))

theorem FieldFollows.place {printed : Setting} {a b : Option Setting} (hprinted : printed.IsLeaf)
    (h : FieldFollows printed a b) (v : Setting) (names : List String) :
    FieldFollows printed (some (place v names (a.getD unset)))
      (some (place v names (b.getD unset))) := by
  cases names with
  | nil => exact .same _
  | cons name names =>
    cases h with
    | kept first =>
      -- what was printed is no table, so the second table has the new name alone
      have hentries : printed.entries = [] := by
        cases printed with
        | table => exact hprinted.elim
        | _ => rfl
      apply tables
      · exact Setting.assign_ne_nil _ _ _
      · rw [Option.getD_some, hentries]
        exact List.nodup_cons.2 ⟨List.not_mem_nil, List.nodup_nil⟩
      · intro other hother
        rw [Option.getD_some, hentries] at hother
        exact Setting.mem_names_assign.2 (.inl (List.mem_singleton.1 hother))
    | same => exact .same _
    | tables hne hnodup hsub =>
      apply tables
      · exact Setting.assign_ne_nil _ _ _
      · exact Setting.nodup_names_assign hnodup
      · intro other hother
        rcases Setting.mem_names_assign.1 hother with rfl | hother
        · exact Setting.mem_names_assign.2 (.inl rfl)
        · exact Setting.mem_names_assign.2 (.inr (hsub other hother))

/-- A section of the two trees. -/
inductive SectionFollows (L : Leaves) (s : Section) : Option Setting → Option Setting → Prop
  | kept (first : Option Setting) : SectionFollows L s first (some (L.sectionTree s))
  | same (found : Option Setting) : SectionFollows L s found found
  | tables {origin origin' : Option String} {es es' : List (String × Setting)}
      (h : ∀ f : Field, f.parent = s →
        FieldFollows (L f) (lookup f.name es) (lookup f.name es')) :
      SectionFollows L s (some (.table origin es)) (some (.table origin' es'))

/-- Below a name the entries of two tables change alike. -/
theorem SectionFollows.place {L : Leaves} (hL : ∀ f, (L f).IsLeaf) {s : Section}
    {a b : Option Setting} (h : SectionFollows L s a b) (v : Setting) (names : List String) :
    SectionFollows L s (some (place v names (a.getD unset)))
      (some (place v names (b.getD unset))) := by
  cases names with
  | nil => exact .same _
  | cons name names =>
    -- a section that was printed has a leaf for each field, so its fields follow too
    have hfields : (∀ f : Field, f.parent = s → FieldFollows (L f)
        (lookup f.name (a.getD unset).entries) (lookup f.name (b.getD unset).entries)) ∨ a = b := by
      cases h with
      | kept first =>
        left
        rintro f rfl
        rw [Option.getD_some, L.lookup_sectionTree f]
        exact .kept _
      | same => exact .inr rfl
      | tables h => exact .inl h
    rcases hfields with hfields | rfl
    · apply tables
      intro f hf
      by_cases hname : f.name = Text.lower name
      · have hfollows := (hfields f hf).place (hL f) v names
        rw [hname] at hfollows ⊢
        rw [Setting.lookup_assign, Setting.lookup_assign]
        exact hfollows
      · rw [Setting.lookup_assign_of_ne hname, Setting.lookup_assign_of_ne hname]
        exact hfields f hf
    · exact .same _

/-- The second tree follows the first one, section by section. -/
def Follows (L : Leaves) (a b : Setting) : Prop :=
  ∀ s : Section, SectionFollows L s (lookup s.name a.entries) (lookup s.name b.entries)

namespace Follows

variable {L : Leaves} {a b : Setting}

theorem start (L : Leaves) (a : Setting) : Follows L a L.tree := by
  intro s
  rw [L.lookup_tree s]
  exact .kept _

theorem place (hL : ∀ f, (L f).IsLeaf) (h : Follows L a b) (v : Setting) (name : String)
    (names : List String) :
    Follows L (place v (name :: names) a) (place v (name :: names) b) := by
  intro s
  show SectionFollows L s (lookup s.name (assign ..)) (lookup s.name (assign ..))
  by_cases hname : s.name = Text.lower name
  · have hfollows := (h s).place hL v names
    rw [hname] at hfollows ⊢
    rw [Setting.lookup_assign, Setting.lookup_assign]
    exact hfollows
  · rw [Setting.lookup_assign_of_ne hname, Setting.lookup_assign_of_ne hname]
    exact h s

/-- Variables can be written to any tree, and the second tree goes on following the first one. -/
theorem overlay (hL : ∀ f, (L f).IsLeaf) (h : Follows L a b) {layer : List (String × Setting)}
    (hlayer : ∀ x ∈ layer, '[' ∉ x.1.toList ∧ x.2.IsLeaf) :
    ∃ a' b', a.overlay layer = .ok a' ∧ b.overlay layer = .ok b' ∧ Follows L a' b' := by
  induction layer generalizing a b with
  | nil => exact ⟨a, b, rfl, rfl, h⟩
  | cons x layer ih =>
    obtain ⟨key, v⟩ := x
    obtain ⟨hkey, hv⟩ := hlayer (key, v) List.mem_cons_self
    obtain ⟨name, names, hsteps, -⟩ := Setting.KeyPath.ofKey_names hkey
    rw [Setting.overlay_cons, Setting.overlay_cons, hsteps, Setting.write_names hv,
      Setting.write_names hv]
    exact ih (h.place hL v name names) fun x hx => hlayer x (List.mem_cons_of_mem _ hx)

end Follows

/-! ## Reading the second tree -/

/-- Only a format is ever read out of a table, and only by the one name that the table has. -/
theorem Config.Field.decode_table {f : Field} {origin origin' : Option String}
    {es es' : List (String × Setting)} {x : f.Value} (h : f.decode (.table origin es) = .ok x)
    (hne : es' ≠ []) (hnodup : (es'.map Prod.fst).Nodup)
    (hsub : ∀ name ∈ es'.map Prod.fst, name ∈ es.map Prod.fst) :
    f.decode (.table origin' es') = .ok x := by
  cases f with
  | format =>
    have hone : ∃ e, es = [e] := by
      match es, h with
      | [e], _ => exact ⟨e, rfl⟩
    obtain ⟨⟨name, v⟩, rfl⟩ := hone
    obtain ⟨⟨name', v'⟩, rest, rfl⟩ := List.exists_cons_of_ne_nil hne
    obtain rfl : name' = name := List.mem_singleton.1 (hsub name' List.mem_cons_self)
    have hrest : rest = [] := by
      cases rest with
      | nil => rfl
      | cons e rest =>
        have hsecond := hsub e.1 (List.mem_cons_of_mem _ List.mem_cons_self)
        rw [List.map_cons, List.nodup_cons] at hnodup
        exact absurd (List.mem_singleton.1 hsecond ▸ List.mem_cons_self) hnodup.1
    subst hrest
    exact h
  | _ => cases h

theorem FieldFollows.exists_read {f : Field} {printed : Setting} {a b : Option Setting}
    {x y : f.Value} (h : FieldFollows printed a b) (hprinted : f.decode printed = .ok y)
    (ha : f.read a = .ok x) : ∃ z, f.read b = .ok z ∧ (z = x ∨ z = y) := by
  cases h with
  | kept => exact ⟨y, hprinted, .inr rfl⟩
  | same => exact ⟨x, ha, .inl rfl⟩
  | tables hne hnodup hsub => exact ⟨x, Config.Field.decode_table ha hne hnodup hsub, .inl rfl⟩

theorem SectionFollows.exists_reads {L : Leaves} {s : Section} {a b : Option Setting}
    {c e : Config} (h : SectionFollows L s a b) (hL : L.Reads e.get) (ha : s.Reads a c) :
    ∃ d : Config, s.Reads b d ∧
      ∀ f : Field, f.parent = s → d.get f = c.get f ∨ d.get f = e.get f := by
  cases h with
  | kept =>
    have hsection := hL.sectionTree s
    rw [Config.ofFields_get] at hsection
    exact ⟨e, hsection, fun f _ => .inr rfl⟩
  | same => exact ⟨c, ha, fun f _ => .inl rfl⟩
  | @tables origin origin' es es' hfields =>
    have hread : ∀ f : Field, ∃ z : f.Value, f.parent = s →
        f.read (lookup f.name es') = .ok z ∧ (z = c.get f ∨ z = e.get f) := by
      intro f
      by_cases hf : f.parent = s
      · obtain ⟨z, hz⟩ :=
          (hfields f hf).exists_read (hL f).2 (Section.reads_table.1 ha f hf)
        exact ⟨z, fun _ => hz⟩
      · exact ⟨c.get f, fun h => absurd h hf⟩
    choose value hvalue using hread
    refine ⟨.ofFields value, Section.reads_table.2 ?_, ?_⟩
    · intro f hf
      rw [Config.get_ofFields]
      exact (hvalue f hf).1
    · intro f hf
      rw [Config.get_ofFields]
      exact (hvalue f hf).2

/-- If the first tree can be read then so can the second one, and each field has the value of the
first tree or the one that was printed. -/
theorem Follows.exists_ofSetting {L : Leaves} {a b : Setting} {c e : Config} (h : Follows L a b)
    (hL : L.Reads e.get) (ha : Config.ofSetting a = .ok c) :
    ∃ d, Config.ofSetting b = .ok d ∧ ∀ f, d.get f = c.get f ∨ d.get f = e.get f := by
  have hsections : ∀ s, ∃ d : Config, s.Reads (lookup s.name b.entries) d ∧
      ∀ f : Field, f.parent = s → d.get f = c.get f ∨ d.get f = e.get f :=
    fun s => (h s).exists_reads hL (Config.ofSetting_eq_ok_iff.1 ha s)
  choose part hpart hvalues using hsections
  refine ⟨⟨(part .run).run, (part .output).output⟩, Config.ofSetting_eq_ok_iff.2 ?_, ?_⟩
  · intro s
    cases s with
    | run => exact hpart .run
    | output => exact hpart .output
  · intro f
    have hf := hvalues f.parent f rfl
    cases f <;> exact hf

/-! ## Printing again -/

theorem Config.load_eq_ok_iff {h : Host} {path : Option String} {c : Config} :
    Config.load h path = .ok c ↔ ∃ document tree, h.document path = .ok document ∧
      layered document h.environment = .ok tree ∧ Config.ofSetting tree = .ok c ∧
      c.validate = .ok () := by
  unfold Config.load Config.ofLayers
  simp only [bind_eq_ok_iff, mapError_eq_ok_iff]
  constructor
  · rintro ⟨document, hdocument, tree, htree, d, hd, ⟨⟩, hvalid, ⟨⟩⟩
    exact ⟨document, tree, hdocument, htree, hd, hvalid⟩
  · rintro ⟨document, tree, hdocument, htree, hc, hvalid⟩
    exact ⟨document, hdocument, tree, htree, c, hc, (), hvalid, rfl⟩

theorem effectiveConfig_eq_ok_iff {h : Host} {line : CommandLine} {e : Config} :
    effectiveConfig h line = .ok e ↔ ∃ c, Config.load h line.configPath = .ok c ∧
      line.apply c = e ∧ e.validate = .ok () := by
  unfold effectiveConfig
  simp only [Config.bind_eq_ok_iff, Config.mapError_eq_ok_iff]
  constructor
  · rintro ⟨c, hc, ⟨⟩, hvalid, ⟨⟩⟩
    exact ⟨c, hc, rfl, hvalid⟩
  · rintro ⟨c, hc, rfl, hvalid⟩
    exact ⟨c, hc, (), hvalid, rfl⟩

theorem eq_ok_of_toOption {ε α : Type} {x : Except ε α} {a : α} (h : x.toOption = some a) :
    x = .ok a := by
  cases x with
  | error => cases h
  | ok b => rw [Option.some.inj h]

theorem layered_eq_ok_iff {document : Option Document} {environment : List (String × String)}
    {tree : Setting} :
    layered document environment = .ok tree ↔ ∃ below : Setting,
      (Leaves.ofConfig none .initial).tree.overlay (document.elim [] Document.settings) =
        .ok below ∧
      below.overlay (Setting.ofVariables environment) = .ok tree := by
  unfold layered
  rw [Leaves.overlay_initial, ok_bind]
  cases document with
  | none => exact Config.bind_eq_ok_iff
  | some d => exact Config.bind_eq_ok_iff

/-- Whatever was printed, loading it under the variables of an earlier run gives each field the value
of that run or the one that was printed. -/
theorem Config.exists_load_printed {h h' : Host} {path path' : Option String} {c e : Config}
    {text : String}
    (hkeys : ∀ x ∈ h.environment, ∀ key, Setting.variableKey? x.1 = some key → '[' ∉ key.toList)
    (hload : Config.load h path = .ok c) (htext : e.toToml = .ok text)
    (hvalid : e.validate = .ok ()) (henvironment : h'.environment = h.environment)
    (hholds : h'.Holds path' text) :
    ∃ d, Config.load h' path' = .ok d ∧ ∀ f, d.get f = c.get f ∨ d.get f = e.get f := by
  obtain ⟨document, tree, -, htree, hread, hcvalid⟩ := Config.load_eq_ok_iff.1 hload
  obtain ⟨below, -, hbelow⟩ := layered_eq_ok_iff.1 htree
  obtain ⟨printed, L, hprinted, hL, hlayered⟩ := Config.layered_toToml htext hholds
  have hvariables : ∀ x ∈ Setting.ofVariables h.environment, '[' ∉ x.1.toList ∧ x.2.IsLeaf := by
    intro x hx
    obtain ⟨named, hmem, hx⟩ := List.mem_filterMap.1 hx
    obtain ⟨key, hkey, rfl⟩ := Option.map_eq_some_iff.1 hx
    exact ⟨hkeys named hmem key hkey, Setting.isLeaf_ofVariable _ _⟩
  obtain ⟨first, second, hfirst, hsecond, hfollows⟩ :=
    (Follows.start L below).overlay (fun f => (hL f).1) hvariables
  obtain rfl := Except.ok.inj (hfirst.symm.trans hbelow)
  obtain ⟨d, hd, hvalues⟩ := hfollows.exists_ofSetting hL hread
  have hdvalid : d.validate = .ok () := by
    rw [Config.validate_eq_ok_iff] at hcvalid hvalid ⊢
    intro f
    rcases hvalues f with hf | hf
    · rw [hf]
      exact hcvalid f
    · rw [hf]
      exact hvalid f
  refine ⟨d, Config.load_eq_ok_iff.2 ⟨_, second, hprinted, ?_, hd, hdvalid⟩, hvalues⟩
  rw [henvironment, hlayered]
  exact hsecond

/-- A command line does not tell values that were below it from values that it left. -/
theorem CommandLine.apply_eq_of_get {line : CommandLine} {c d : Config}
    (h : ∀ f, d.get f = c.get f ∨ d.get f = (line.apply c).get f) : line.apply d = line.apply c := by
  apply Config.ext_get
  intro f
  have hf := h f
  rw [get_apply, get_apply]
  rw [get_apply] at hf
  cases hgiven : line.given? f with
  | some v => rfl
  | none =>
    rw [hgiven] at hf
    exact hf.elim id id

theorem outcome_perform_print {h : Host} {line : CommandLine} {e : Config} {text : String}
    (heffective : effectiveConfig h line = .ok e) (hprint : line.printConfig = true)
    (htext : e.toToml = .ok text) (clock : Clock) : (perform h clock line).outcome = .ok text := by
  unfold perform
  simp only [Logged.outcome_bind, Logged.outcome_ofExcept, heffective, hprint, if_true]
  show e.toToml.mapError _ = .ok text
  rw [htext]
  rfl

/-- **A printed configuration is a fixed point.** If a command line and the variables lead to a
configuration, then its text, put in the place of the configuration file, leads to the same
configuration under the same variables and command line, and is printed again. This holds of any
first file, or none, and of variables of any shape that name no index. -/
theorem print_is_fixed_point {h h' : Host} {line : CommandLine} {path : Option String} {e : Config}
    {text : String}
    (hkeys : ∀ x ∈ h.environment, ∀ key, Setting.variableKey? x.1 = some key → '[' ∉ key.toList)
    (heffective : effectiveConfig h line = .ok e) (htext : e.toToml = .ok text)
    (henvironment : h'.environment = h.environment) (hholds : h'.Holds path text) :
    effectiveConfig h' { line with configPath := path } = .ok e ∧
      ∀ clock, (perform h' clock { line with configPath := path, printConfig := true }).outcome =
        .ok text := by
  obtain ⟨c, hload, rfl, hvalid⟩ := effectiveConfig_eq_ok_iff.1 heffective
  obtain ⟨d, hd, hvalues⟩ :=
    Config.exists_load_printed hkeys hload htext hvalid henvironment hholds
  have hagain : effectiveConfig h' { line with configPath := path } = .ok (line.apply c) :=
    effectiveConfig_eq_ok_iff.2 ⟨d, hd, CommandLine.apply_eq_of_get hvalues, hvalid⟩
  refine ⟨hagain, ?_⟩
  -- the flag that asks for printing does not count for the configuration
  have hprinting : effectiveConfig h' { line with configPath := path, printConfig := true } =
      .ok (line.apply c) := hagain
  intro clock
  exact outcome_perform_print hprinting rfl htext clock

/-- A format that a variable gives as a table, runs that another one gives as a truth value, an
index from the command line, and methods from the first file. -/
theorem print_is_fixed_point_mixed :
    let environment := [("FIBSTACK_OUTPUT__FORMAT__JSON", "1"), ("FIBSTACK_RUN__RUNS", "true")]
    let line : CommandLine := { n := some 9, configPath := some "c.toml" }
    let e : Config := ⟨⟨9, [.stack], 1⟩, ⟨.json, 2⟩⟩
    ∃ text, e.toToml = .ok text ∧
      effectiveConfig { Config.hostOfFile "c.toml" text with environment } line = .ok e := by
  intro environment line e
  let h : Host := { Config.hostOfFile "c.toml" "run.methods = ['stack']" with environment }
  have hfirst : effectiveConfig h line = .ok e := eq_ok_of_toOption (by decide +kernel)
  have hkeys : ∀ x ∈ h.environment, ∀ key, Setting.variableKey? x.1 = some key →
      '[' ∉ key.toList := by
    have hall : ∀ x ∈ environment, ∀ key ∈ (Setting.variableKey? x.1).toList, '[' ∉ key.toList := by
      decide +kernel
    intro x hx key hkey
    exact hall x hx key (Option.mem_toList.2 hkey)
  have hrange : e.run.n.toNat < SignedWord.bound ∧ e.output.precision.toNat < SignedWord.bound := by
    decide
  obtain ⟨text, htext⟩ : ∃ text, e.toToml = .ok text :=
    ⟨_, Config.toToml_of_fits (Config.forall_fits_iff.2 hrange)⟩
  have hholds := Host.holds_hostOfFile environment text
  have hsame : ({ Config.hostOfFile "c.toml" text with environment } : Host).environment =
      h.environment := rfl
  obtain ⟨hagain, -⟩ := print_is_fixed_point hkeys hfirst htext hsame hholds
  exact ⟨text, htext, hagain⟩

end Unroll
