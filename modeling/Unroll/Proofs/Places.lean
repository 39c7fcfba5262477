import Unroll.Proofs.Override

/-!
# What stands at a place

What a tree has at a place after a write depends on the write and on what stood at this place, and
on nothing else in the tree (`Setting.reach_lay_congr`). A write that leads elsewhere leaves the
place as it was (`Setting.reach_lay_of_spares`). Tables are merged name by name, so both come down
to the entries of one name (`Setting.child_merge`).
-/

namespace Unroll

open Config (Field Section)

namespace Setting

/-- What stands at the place that the names lead to. -/
def reach : List String → Option Setting → Option Setting
  | [], found => found
  | name :: names, found => reach names (child name found)

@[simp]
theorem reach_nil (found : Option Setting) : reach [] found = found :=
  rfl

@[simp]
theorem reach_cons (name : String) (names : List String) (found : Option Setting) :
    reach (name :: names) found = reach names (child name found) :=
  rfl

theorem Differs.reach_eq {v : Setting} {names : List String} {a b : Option Setting}
    (h : Differs v names a b) : reach names b = some v := by
  induction names generalizing a b with
  | nil => exact h
  | cons name names ih => exact ih h.2

/-! ## The entries of one name -/

/-- A value that is laid over what stands at a name, if it is meant for this name. -/
def layEntry (name : String) (found : Option Setting) (e : String × Setting) : Option Setting :=
  if Text.lower e.1 = name then some (laidOver e.2 found) else found

theorem child_withEntry_getD (name other : String) (inner : Setting) (found : Option Setting) :
    child name (some (withEntry other inner (found.getD unset))) =
      if other = name then some inner else child name found := by
  split
  · next heq => rw [heq, child_withEntry]
  · next hne => rw [child_withEntry_of_ne (Ne.symm hne)]

/-- What stands at a name after a merge is what the entries of this name make of it. -/
theorem child_merge (name : String) (es : List (String × Setting)) (target : Setting) :
    child name (some (merge es target)) =
      es.foldl (layEntry name) (child name (some target)) := by
  induction es generalizing target with
  | nil => rw [merge, List.foldl_nil]
  | cons e es ih =>
    have hentry := child_withEntry_getD name (Text.lower e.1)
      (laidOver e.2 (lookup (Text.lower e.1) target.entries)) (some target)
    rw [merge, put_eq, ih, List.foldl_cons, layEntry]
    congr 1
    refine hentry.trans ?_
    split
    · next heq =>
      rw [heq]
      rfl
    · rfl

theorem child_laidOver_table (name : String) (origin : Option String) (es : List (String × Setting))
    (found : Option Setting) :
    child name (some (laidOver (.table origin es) found)) =
      es.foldl (layEntry name) (child name found) := by
  rw [laidOver, child_merge, child_getD_emptyTable]

/-! ## Writes -/

variable {v w a' b' : Setting} {names : List String} {steps : List Step} {a b : Option Setting}

theorem reach_laidOver_congr (w : Setting) (h : reach names a = reach names b) :
    reach names (some (laidOver w a)) = reach names (some (laidOver w b)) := by
  induction names generalizing w a b with
  | nil =>
    obtain rfl : a = b := h
    rfl
  | cons name names ih =>
    cases w with
    | table origin es =>
      rw [reach_cons, reach_cons] at h ⊢
      rw [child_laidOver_table, child_laidOver_table]
      generalize child name a = first, child name b = second at h ⊢
      -- each entry of the name is laid over both, and the others over neither
      induction es generalizing first second with
      | nil => exact h
      | cons e es ihes =>
        apply ihes
        unfold layEntry
        split
        · exact ih e.2 h
        · exact h
    | _ => rfl

theorem reach_laidOver_of_spares (h : Spares names [] w) (found : Option Setting) :
    reach names (some (laidOver w found)) = reach names found := by
  induction names generalizing w found with
  | nil => exact h.elim
  | cons name names ih =>
    cases w with
    | table origin es =>
      rw [reach_cons, reach_cons, child_laidOver_table]
      generalize child name found = first
      rw [Spares] at h
      induction es generalizing first with
      | nil => rfl
      | cons e es ihes =>
        obtain ⟨hentry, hes⟩ := List.forall_mem_cons.1 h
        rw [List.foldl_cons, ihes hes, layEntry]
        split
        · next hname => exact ih (hentry.resolve_left (not_not.2 hname)) first
        · rfl
    | _ => exact h.elim

/-- An index makes an array of its place, which has nothing at any name. -/
theorem child_of_lay_index {index : Int} (h : lay w (.index index :: steps) a = .ok a')
    (name : String) : child name (some a') = none := by
  rw [lay, write] at h
  obtain ⟨i, -, h⟩ := Config.bind_eq_ok_iff.1 h
  obtain ⟨inner, -, h⟩ := Config.bind_eq_ok_iff.1 h
  obtain rfl := Except.ok.inj h
  rfl

theorem reach_lay_name {other : String} (h : lay w (.name other :: steps) a = .ok a')
    (name : String) (names : List String) :
    ∃ inner, lay w steps (child (Text.lower other) a) = .ok inner ∧
      reach (name :: names) (some a') =
        if Text.lower other = name then reach names (some inner) else reach (name :: names) a := by
  rw [lay_name] at h
  obtain ⟨inner, hinner, h⟩ := Config.bind_eq_ok_iff.1 h
  obtain rfl := Except.ok.inj h
  refine ⟨inner, hinner, ?_⟩
  rw [reach_cons, child_withEntry_getD]
  split <;> rfl

/-- What stands at a place after a write depends on what stood there alone. -/
theorem reach_lay_congr (h : reach names a = reach names b) (ha : lay w steps a = .ok a')
    (hb : lay w steps b = .ok b') : reach names (some a') = reach names (some b') := by
  induction steps generalizing names a b a' b' with
  | nil =>
    obtain rfl := Except.ok.inj ha
    obtain rfl := Except.ok.inj hb
    exact reach_laidOver_congr w h
  | cons step steps ih =>
    cases names with
    | nil =>
      obtain rfl : a = b := h
      rw [Except.ok.inj (ha.symm.trans hb)]
    | cons name names =>
      cases step with
      | name other =>
        obtain ⟨inner, hinner, ha'⟩ := reach_lay_name ha name names
        obtain ⟨inner', hinner', hb'⟩ := reach_lay_name hb name names
        rw [ha', hb']
        split
        · next hname =>
          rw [hname] at hinner hinner'
          exact ih h hinner hinner'
        · exact h
      | index index =>
        rw [reach_cons, reach_cons, child_of_lay_index ha, child_of_lay_index hb]

/-- A write that leads elsewhere leaves a place as it was. -/
theorem reach_lay_of_spares (hspares : Spares names steps w) (ha : lay w steps a = .ok a') :
    reach names (some a') = reach names a := by
  induction steps generalizing names a a' with
  | nil =>
    obtain rfl := Except.ok.inj ha
    exact reach_laidOver_of_spares hspares a
  | cons step steps ih =>
    match names, step, hspares with
    | name :: names, .name other, hspares =>
      obtain ⟨inner, hinner, ha'⟩ := reach_lay_name ha name names
      rw [ha']
      split
      · next hname =>
        rw [hname] at hinner
        exact ih (hspares.resolve_left (not_not.2 hname)) hinner
      · rfl

theorem reach_overlay_of_spares {tree last : Setting} {layer : List (String × Setting)}
    (hspares : ∀ x ∈ layer, Spares names (KeyPath.ofKey x.1) x.2)
    (h : tree.overlay layer = .ok last) : reach names (some last) = reach names (some tree) := by
  induction layer generalizing tree with
  | nil => rw [Except.ok.inj h]
  | cons x layer ih =>
    rw [List.forall_mem_cons] at hspares
    rw [overlay_cons, write_ofKey] at h
    obtain ⟨next, hnext, h⟩ := Config.bind_eq_ok_iff.1 h
    rw [ih hspares.2 h, reach_lay_of_spares hspares.1 hnext]

end Setting

/-! ## The place of a field -/

namespace Config

variable {f : Field}

/-- A field is read from what stands at its place. -/
theorem decode_of_reach {tree v : Setting} {c : Config} (h : ofSetting tree = .ok c)
    (hv : Setting.reach f.path (some tree) = some v) : f.decode v = .ok (c.get f) := by
  obtain ⟨origin, es, hsection⟩ := Setting.exists_table_of_child hv
  have hreads := ofSetting_eq_ok_iff.1 h f.parent
  change Section.Reads (Setting.child f.parent.name (some tree)) c f.parent at hreads
  change Setting.child f.name (Setting.child f.parent.name (some tree)) = some v at hv
  rw [hsection] at hreads hv
  have hread := Section.reads_table.1 hreads f rfl
  rwa [show Setting.lookup f.name es = some v from hv] at hread

/-- The variable of a field stands at its place in the end. -/
theorem reach_layered_variable {document : Option Document}
    {rest environment : List (String × String)} {tree : Setting} {text : String}
    (hin : f.InVariables text rest environment) (h : layered document environment = .ok tree) :
    Setting.reach f.path (some tree) = some (Setting.ofVariable f.key text) := by
  obtain ⟨hafter⟩ := hin
  obtain ⟨below, -, hoverlay⟩ := layered_eq_ok_iff.1 h
  rw [Setting.ofVariables_append, Setting.overlay_append] at hoverlay
  obtain ⟨first, -, hoverlay⟩ := bind_eq_ok_iff.1 hoverlay
  rw [f.ofVariables_variableName, Setting.overlay_cons, Setting.write_ofKey,
    f.ofKey_eq_path] at hoverlay
  obtain ⟨second, hsecond, hoverlay⟩ := bind_eq_ok_iff.1 hoverlay
  obtain ⟨_, hsecond', hdiffers⟩ :=
    Setting.differs_lay (Setting.isLeaf_ofVariable f.key text) f.path (some first)
  obtain rfl := Except.ok.inj (hsecond'.symm.trans hsecond)
  rw [f.map_path] at hdiffers
  rw [Setting.reach_overlay_of_spares (Field.spares_ofVariables hafter) hoverlay,
    hdiffers.reach_eq]

/-- The entry of a field in a document stands at its place if no variable leads there. -/
theorem reach_layered_entry {rest d : Document} {environment : List (String × String)}
    {tree : Setting} {value : Toml} (hin : f.InDocument value rest d)
    (hvalue : (Setting.ofToml d.origin value).IsLeaf)
    (henvironment : ∀ x ∈ environment, f.SparedBy x)
    (h : layered (some d) environment = .ok tree) :
    Setting.reach f.path (some tree) = some (Setting.ofToml d.origin value) := by
  obtain @⟨origin, before, after, es, es', hes', hafter⟩ := hin
  obtain ⟨below, hbelow, hoverlay⟩ := layered_eq_ok_iff.1 h
  rw [Setting.reach_overlay_of_spares (Field.spares_ofVariables henvironment) hoverlay]
  simp only [Option.elim_some, Document.settings, Setting.ofEntries_append] at hbelow
  rw [Setting.overlay_append] at hbelow
  obtain ⟨base, -, hbelow⟩ := bind_eq_ok_iff.1 hbelow
  rw [Setting.ofEntries, Setting.overlay_cons, Setting.write_ofKey, Section.ofKey_name,
    Setting.ofToml, Setting.ofEntries_append, Setting.ofEntries] at hbelow
  obtain ⟨second, hsecond, hbelow⟩ := bind_eq_ok_iff.1 hbelow
  have hrest : ∀ e ∈ Setting.ofEntries origin es', Text.lower e.1 ≠ Text.lower f.name := by
    rw [f.lower_name]
    exact Setting.forall_mem_ofEntries hes'
  obtain ⟨_, _, -, hsecond', hdiffers⟩ :=
    Setting.differs_lay_table hvalue (Setting.ofEntries origin es) hrest origin f.parent.name
      (some base)
  obtain rfl := Except.ok.inj (hsecond'.symm.trans hsecond)
  rw [Section.lower_name, f.lower_name] at hdiffers
  rw [Setting.reach_overlay_of_spares (Setting.forall_mem_ofEntries hafter) hbelow]
  exact hdiffers.reach_eq

/-- Nothing is loaded if a field cannot be read from what stands at its place. -/
theorem exists_load_error {h : Host} {path : Option String} {v : Setting}
    (hplace : ∀ {document : Option Document} {tree : Setting}, h.document path = .ok document →
      layered document h.environment = .ok tree → Setting.reach f.path (some tree) = some v)
    (hv : ∀ x, f.decode v ≠ .ok x) : ∃ e, Config.load h path = .error e := by
  cases hload : Config.load h path with
  | error e => exact ⟨e, rfl⟩
  | ok c =>
    obtain ⟨document, tree, hdocument, htree, hc, -⟩ := load_eq_ok_iff.1 hload
    exact absurd (decode_of_reach hc (hplace hdocument htree)) (hv _)

end Config

end Unroll
