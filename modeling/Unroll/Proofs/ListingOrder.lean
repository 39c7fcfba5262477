import Unroll.Proofs.FoldedText
import Unroll.Proofs.Override

/-!
# The order of the variables

Variables are written into the tree one after another, in the order in which the machine lists them.
Writes at two places of which neither lies at or below the other commute, but for the order of the
entries of tables (`Setting.Alike`, `Setting.place_comm`), and this order is not read
(`Setting.Alike.ofSetting`). So every permutation of such writes makes up the same configuration
(`Setting.Alike.foldl_perm`). Keys that are not paths count as places of their own: a key is spelled
by its path (`Setting.KeyPath.ofKey_inj`), and in lower case it already has the name that it gets in
the tree (`Setting.KeyPath.map_lower_names`).
-/

namespace Unroll

open Config (Field Section)

namespace Setting

/-! ## Places that differ in the order of entries -/

/-- The same stands at both places, but for the order of the entries of tables. -/
inductive Alike : Option Setting → Option Setting → Prop
  | same (found : Option Setting) : Alike found found
  | tables {origin : Option String} {es es' : List (String × Setting)}
      (hnames : (es.map Prod.fst).Perm (es'.map Prod.fst))
      (h : ∀ name, Alike (lookup name es) (lookup name es')) :
      Alike (some (.table origin es)) (some (.table origin es'))

/-- What assigning an entry does to the names of a table. -/
def addName (name : String) (names : List String) : List String :=
  if name ∈ names then names else names ++ [name]

theorem map_fst_assign (name : String) (v : Setting) (es : List (String × Setting)) :
    (assign name v es).map Prod.fst = addName name (es.map Prod.fst) := by
  unfold addName
  induction es with
  | nil => simp [assign]
  | cons e es ih =>
    rw [assign]
    by_cases heq : e.1 = name
    · simp [heq]
    · simp only [heq, if_false, List.map_cons, ih, List.mem_cons, Ne.symm heq, false_or]
      split <;> simp

theorem addName_perm {names names' : List String} (h : names.Perm names') (name : String) :
    (addName name names).Perm (addName name names') := by
  simp only [addName, h.mem_iff]
  split
  · exact h
  · exact h.append_right _

theorem addName_comm (first second : String) (names : List String) :
    (addName first (addName second names)).Perm (addName second (addName first names)) := by
  unfold addName
  by_cases heq : first = second
  · rw [heq]
  · by_cases hfirst : first ∈ names
    · by_cases hsecond : second ∈ names <;> simp [hfirst, hsecond]
    · by_cases hsecond : second ∈ names
      · simp [hfirst, hsecond]
      · have hswap : (names ++ [second, first]).Perm (names ++ [first, second]) :=
          (List.Perm.swap first second []).append_left names
        simpa [hfirst, hsecond, heq, Ne.symm heq] using hswap

namespace Alike

variable {a b c : Option Setting}

theorem trans (h₁ : Alike a b) (h₂ : Alike b c) : Alike a c := by
  induction h₁ generalizing c with
  | same => exact h₂
  | tables hnames h ih =>
    cases h₂ with
    | same => exact .tables hnames h
    | tables hnames' h' => exact .tables (hnames.trans hnames') fun name => ih name (h' name)

theorem child (h : Alike a b) (name : String) : Alike (child name a) (child name b) := by
  cases h with
  | same => exact .same _
  | tables _ h => exact h name

theorem names_perm (h : Alike a b) :
    ((a.getD unset).entries.map Prod.fst).Perm ((b.getD unset).entries.map Prod.fst) := by
  cases h with
  | same => exact .refl _
  | tables hnames => exact hnames

theorem tableOrigin_eq (h : Alike a b) :
    (a.getD unset).tableOrigin = (b.getD unset).tableOrigin := by
  cases h <;> rfl

theorem withEntry (h : Alike a b) (name : String) {inner inner' : Setting}
    (hinner : Alike (some inner) (some inner')) :
    Alike (some (withEntry name inner (a.getD unset)))
      (some (Setting.withEntry name inner' (b.getD unset))) := by
  unfold Setting.withEntry
  rw [h.tableOrigin_eq]
  apply tables
  · rw [map_fst_assign, map_fst_assign]
    exact addName_perm h.names_perm name
  · intro other
    by_cases hother : other = name
    · rw [hother, lookup_assign, lookup_assign]
      exact hinner
    · rw [lookup_assign_of_ne hother, lookup_assign_of_ne hother]
      exact h.child other

theorem place (h : Alike a b) (v : Setting) (names : List String) :
    Alike (some (place v names (a.getD unset))) (some (Setting.place v names (b.getD unset))) := by
  induction names generalizing a b with
  | nil => exact .same _
  | cons name names ih => exact h.withEntry _ (ih (h.child _))

end Alike

/-! ## Writes at different places -/

theorem place_cons (v : Setting) (name : String) (names : List String) (target : Setting) :
    place v (name :: names) target = withEntry (Text.lower name)
      (place v names ((child (Text.lower name) (some target)).getD unset)) target :=
  rfl

theorem place_comm {v w : Setting} {p q : List String}
    (hpq : ¬ p.map Text.lower <+: q.map Text.lower)
    (hqp : ¬ q.map Text.lower <+: p.map Text.lower) (target : Setting) :
    Alike (some (place v p (place w q target))) (some (place w q (place v p target))) := by
  induction p generalizing q target with
  | nil => exact absurd List.nil_prefix hpq
  | cons first p ih =>
    cases q with
    | nil => exact absurd List.nil_prefix hqp
    | cons second q =>
      simp only [place_cons]
      by_cases hname : Text.lower first = Text.lower second
      · -- both writes go on below the same name
        simp only [List.map_cons, hname, List.cons_prefix_cons, true_and] at hpq hqp
        simp only [hname, child_withEntry, Option.getD_some]
        unfold withEntry
        apply Alike.tables
        · simp only [map_fst_assign, entries]
          exact .refl _
        · intro other
          by_cases hother : other = Text.lower second
          · rw [hother, lookup_assign, lookup_assign]
            exact ih hpq hqp _
          · simp only [lookup_assign_of_ne hother, entries]
            exact .same _
      · have hfirst := child_withEntry_of_ne hname
          (place w q ((child (Text.lower second) (some target)).getD unset)) (some target)
        have hsecond := child_withEntry_of_ne (Ne.symm hname)
          (place v p ((child (Text.lower first) (some target)).getD unset)) (some target)
        rw [Option.getD_some] at hfirst hsecond
        rw [hfirst, hsecond]
        unfold withEntry
        apply Alike.tables
        · simp only [map_fst_assign, entries]
          exact addName_comm _ _ _
        · intro other
          simp only [entries]
          by_cases hone : other = Text.lower first
          · rw [hone, lookup_assign, lookup_assign_of_ne hname, lookup_assign]
            exact .same _
          · by_cases htwo : other = Text.lower second
            · rw [htwo, lookup_assign, lookup_assign_of_ne (Ne.symm hname), lookup_assign]
              exact .same _
            · simp only [lookup_assign_of_ne hone, lookup_assign_of_ne htwo]
              exact .same _

/-! ## Keys and their places -/

namespace KeyPath

/-- The names on the way to the place of a key. -/
def names (key : String) : List String :=
  (ofKey key).filterMap fun
    | .name name => some name
    | .index _ => none

theorem names_eq {key : String} {ns : List String} (h : ofKey key = ns.map .name) :
    names key = ns := by
  rw [names, h, List.filterMap_map]
  exact List.filterMap_some

theorem map_names {key : String} (h : '[' ∉ key.toList) :
    (names key).map Step.name = ofKey key := by
  obtain ⟨first, rest, hkey, -⟩ := ofKey_names h
  rw [names_eq hkey, hkey]

/-- A key is spelled by its path. -/
theorem ofKey_inj {key key' : String} (h : '[' ∉ key.toList) (h' : '[' ∉ key'.toList)
    (heq : ofKey key = ofKey key') : key = key' := by
  obtain ⟨first, rest, hkey, hchars⟩ := ofKey_names h
  obtain ⟨first', rest', hkey', hchars'⟩ := ofKey_names h'
  have hnames : first :: rest = first' :: rest' := by
    rw [← names_eq hkey, ← names_eq hkey', names, heq, names]
  obtain ⟨rfl, rfl⟩ := List.cons.inj hnames
  rw [← String.toList_inj, hchars, hchars']

theorem mem_of_mem_names {key name : String} {c : Char} (h : '[' ∉ key.toList)
    (hname : name ∈ names key) (hc : c ∈ name.toList) : c ∈ key.toList := by
  obtain ⟨first, rest, hkey, hchars⟩ := ofKey_names h
  rw [names_eq hkey] at hname
  rw [hchars, List.mem_append]
  rcases List.mem_cons.1 hname with rfl | hname
  · exact .inl hc
  · exact .inr (List.mem_flatMap.2 ⟨name, hname, List.mem_cons_of_mem _ hc⟩)

/-- The tree has the names of a key in lower case as they are. -/
theorem map_lower_names {key : String} (h : '[' ∉ key.toList)
    (hfolded : ∀ c ∈ key.toList, Text.IsFolded c) :
    (names key).map Text.lower = names key := by
  have hlower : ∀ name ∈ names key, Text.lower name = name := fun name hname =>
    Text.lower_of_isFolded fun c hc => hfolded c (mem_of_mem_names h hname hc)
  rw [List.map_congr_left hlower, List.map_id']

end KeyPath

theorem mem_of_mem_pointed {cs : List Char} {c : Char} (h : c ∈ pointed cs) :
    c = '.' ∨ c ∈ cs := by
  fun_induction pointed cs with
  | case1 rest ih =>
    rcases List.mem_cons.1 h with rfl | h
    · exact .inl rfl
    · exact (ih h).imp_right fun h => List.mem_cons_of_mem _ (List.mem_cons_of_mem _ h)
  | case2 d rest _ ih =>
    rcases List.mem_cons.1 h with rfl | h
    · exact .inr List.mem_cons_self
    · exact (ih h).imp_right (List.mem_cons_of_mem _)
  | case3 => cases h

theorem isFolded_of_variableKey? {name key : String} (h : variableKey? name = some key) {c : Char}
    (hc : c ∈ key.toList) : Text.IsFolded c := by
  simp only [variableKey?] at h
  split at h
  · obtain rfl := Option.some.inj h
    rw [String.toList_ofList] at hc
    rcases mem_of_mem_pointed hc with rfl | hc
    · exact Text.isFolded_of_isPlain (by decide)
    · exact Text.isFolded_of_mem_lower (List.mem_of_mem_drop hc)
  · cases h

/-! ## Permuted layers -/

/-- Lays one setting of a layer over a tree. -/
def placeKey (tree : Setting) (x : String × Setting) : Setting :=
  place x.2 (KeyPath.names x.1) tree

theorem overlay_eq_foldl {layer : List (String × Setting)}
    (h : ∀ x ∈ layer, '[' ∉ x.1.toList ∧ x.2.IsLeaf) (tree : Setting) :
    tree.overlay layer = .ok (layer.foldl placeKey tree) := by
  induction layer generalizing tree with
  | nil => rfl
  | cons x layer ih =>
    rw [List.forall_mem_cons] at h
    rw [overlay_cons, ← KeyPath.map_names h.1.1, write_names h.1.2, ok_bind, ih h.2]
    rfl

/-- Neither place is the other one or lies below it. -/
def Apart (x y : String × Setting) : Prop :=
  ¬ (KeyPath.names x.1).map Text.lower <+: (KeyPath.names y.1).map Text.lower ∧
    ¬ (KeyPath.names y.1).map Text.lower <+: (KeyPath.names x.1).map Text.lower

theorem Apart.symm {x y : String × Setting} (h : Apart x y) : Apart y x :=
  ⟨h.2, h.1⟩

theorem Alike.placeKey {a b : Setting} (h : Alike (some a) (some b)) (x : String × Setting) :
    Alike (some (a.placeKey x)) (some (b.placeKey x)) :=
  h.place x.2 (KeyPath.names x.1)

theorem Alike.foldl {a b : Setting} (h : Alike (some a) (some b))
    (layer : List (String × Setting)) :
    Alike (some (layer.foldl Setting.placeKey a)) (some (layer.foldl Setting.placeKey b)) := by
  induction layer generalizing a b with
  | nil => exact h
  | cons x layer ih => exact ih (h.placeKey x)

theorem Alike.foldl_perm {layer layer' : List (String × Setting)} (hperm : layer.Perm layer')
    (hapart : layer.Pairwise Apart) {a b : Setting} (h : Alike (some a) (some b)) :
    Alike (some (layer.foldl Setting.placeKey a)) (some (layer'.foldl Setting.placeKey b)) := by
  induction hperm generalizing a b with
  | nil => exact h
  | cons x _ ih => exact ih (List.pairwise_cons.1 hapart).2 (h.placeKey x)
  | swap x y layer =>
    obtain ⟨hy, -⟩ := List.pairwise_cons.1 hapart
    obtain ⟨hyx, hxy⟩ := hy x List.mem_cons_self
    have hswap : Alike (some ((a.placeKey y).placeKey x)) (some ((a.placeKey x).placeKey y)) :=
      place_comm hxy hyx a
    exact (hswap.trans ((h.placeKey x).placeKey y)).foldl layer
  | trans hperm _ ih₁ ih₂ =>
    have hapart' := (hperm.pairwise_iff Apart.symm).1 hapart
    exact (ih₁ hapart (.same _)).trans (ih₂ hapart' h)

end Setting

open Setting (Alike lookup)

/-! ## Reading does not see the order -/

theorem Config.Field.exists_single_of_decode {f : Field} {origin : Option String}
    {es : List (String × Setting)} {x : f.Value} (h : f.decode (.table origin es) = .ok x) :
    ∃ e, es = [e] := by
  cases f with
  | format =>
    match es, h with
    | [e], _ => exact ⟨e, rfl⟩
  | _ => cases h

theorem Setting.Alike.read {f : Field} {a b : Option Setting} {x : f.Value} (h : Alike a b)
    (ha : f.read a = .ok x) : f.read b = .ok x := by
  cases h with
  | same => exact ha
  | @tables origin es es' hnames _ =>
    obtain ⟨e, rfl⟩ := Config.Field.exists_single_of_decode ha
    have hsingle : es'.map Prod.fst = [e.1] := List.perm_singleton.1 hnames.symm
    apply Config.Field.decode_table ha
    · rintro rfl
      cases hsingle
    · rw [hsingle]
      exact List.pairwise_singleton _ _
    · rw [hsingle]
      exact fun _ => id

theorem Setting.Alike.reads {s : Section} {a b : Option Setting} {c : Config} (h : Alike a b)
    (ha : s.Reads a c) : s.Reads b c := by
  cases h with
  | same => exact ha
  | tables _ hentries =>
    rw [Section.reads_table] at ha ⊢
    intro f hf
    exact (hentries f.name).read (ha f hf)

theorem Setting.Alike.ofSetting {a b : Setting} {c : Config} (h : Alike (some a) (some b))
    (ha : Config.ofSetting a = .ok c) : Config.ofSetting b = .ok c := by
  rw [Config.ofSetting_eq_ok_iff] at ha ⊢
  intro s
  exact (h.child s.name).reads (ha s)

/-! ## The variables of a machine -/

namespace Host

variable {h : Host} {environment : List (String × String)}

theorem valueOf?_eq_of_perm (hperm : h.environment.Perm environment)
    (hnames : (h.environment.map Prod.fst).Nodup) (name : String) :
    valueOf? { h with environment } name = h.valueOf? name := by
  unfold valueOf?
  rw [find?_eq_of_perm hperm hnames]

/-- The document of a run depends on two variables alone. -/
theorem document_eq_of_valueOf?
    (hhome : valueOf? { h with environment } "HOME" = h.valueOf? "HOME")
    (hconfig : valueOf? { h with environment } "XDG_CONFIG_HOME" = h.valueOf? "XDG_CONFIG_HOME")
    (path : Option String) : document { h with environment } path = h.document path := by
  have hsame : home { h with environment } = h.home := by
    unfold home
    rw [hhome]
  cases path with
  | none =>
    have hpath : defaultConfigPath { h with environment } = h.defaultConfigPath := by
      unfold defaultConfigPath configDirectory
      rw [hconfig, hsame]
    unfold document defaultDocument
    rw [hpath]
    rfl
  | some path =>
    have hpath : expandPath { h with environment } path = h.expandPath path := by
      unfold expandPath
      rw [hsame]
    rw [document, document, hpath]
    rfl

end Host

namespace Setting

/-- The keys of the settings among the variables. -/
def keys (environment : List (String × String)) : List String :=
  environment.filterMap fun x => variableKey? x.1

theorem map_fst_ofVariables (environment : List (String × String)) :
    (ofVariables environment).map Prod.fst = keys environment := by
  unfold ofVariables keys
  rw [List.map_filterMap]
  apply List.filterMap_congr
  intro x _
  rw [Option.map_map]
  exact Option.map_id'

/-- The keys of the variables are pairwise different, have no indices, and none of them leads to a
place above the place of another. -/
structure KeysApart (environment : List (String × String)) : Prop where
  nodup : (keys environment).Nodup
  noIndex : ∀ key ∈ keys environment, '[' ∉ key.toList
  noneAbove : ∀ key ∈ keys environment, ∀ other ∈ keys environment,
    KeyPath.ofKey key <+: KeyPath.ofKey other → KeyPath.ofKey key = KeyPath.ofKey other

namespace KeysApart

variable {environment environment' : List (String × String)}

theorem perm (h : KeysApart environment) (hperm : environment.Perm environment') :
    KeysApart environment' := by
  have hkeys : (keys environment).Perm (keys environment') := hperm.filterMap _
  have hmem : ∀ {key}, key ∈ keys environment' → key ∈ keys environment := hkeys.mem_iff.2
  exact ⟨hkeys.nodup_iff.1 h.nodup, fun key hkey => h.noIndex key (hmem hkey),
    fun key hkey other hother => h.noneAbove key (hmem hkey) other (hmem hother)⟩

theorem not_above (h : KeysApart environment) {key other : String} (hkey : key ∈ keys environment)
    (hother : other ∈ keys environment) (hne : key ≠ other) :
    ¬ (KeyPath.names key).map Text.lower <+: (KeyPath.names other).map Text.lower := by
  have hfolded : ∀ key ∈ keys environment, ∀ c ∈ key.toList, Text.IsFolded c := by
    intro key hkey c hc
    obtain ⟨x, -, hx⟩ := List.mem_filterMap.1 hkey
    exact isFolded_of_variableKey? hx hc
  have hindex := h.noIndex key hkey
  have hindex' := h.noIndex other hother
  rw [KeyPath.map_lower_names hindex (hfolded key hkey),
    KeyPath.map_lower_names hindex' (hfolded other hother)]
  intro habove
  have hsteps := habove.map Step.name
  rw [KeyPath.map_names hindex, KeyPath.map_names hindex'] at hsteps
  exact hne (KeyPath.ofKey_inj hindex hindex' (h.noneAbove key hkey other hother hsteps))

theorem pairwise (h : KeysApart environment) : (ofVariables environment).Pairwise Apart := by
  have hmem : ∀ {x}, x ∈ ofVariables environment → x.1 ∈ keys environment := by
    intro x hx
    rw [← map_fst_ofVariables]
    exact List.mem_map_of_mem hx
  have hne : (ofVariables environment).Pairwise fun x y => x.1 ≠ y.1 := by
    have hnodup := h.nodup
    rw [← map_fst_ofVariables] at hnodup
    exact List.pairwise_map.1 hnodup
  apply hne.imp_of_mem
  intro x y hx hy hxy
  exact ⟨h.not_above (hmem hx) (hmem hy) hxy, h.not_above (hmem hy) (hmem hx) (Ne.symm hxy)⟩

theorem overlay (h : KeysApart environment) (tree : Setting) :
    tree.overlay (ofVariables environment) =
      .ok ((ofVariables environment).foldl placeKey tree) := by
  apply overlay_eq_foldl
  intro x hx
  obtain ⟨y, hy, hxy⟩ := List.mem_filterMap.1 hx
  obtain ⟨key, hkey, rfl⟩ := Option.map_eq_some_iff.1 hxy
  exact ⟨h.noIndex key (List.mem_filterMap.2 ⟨y, hy, hkey⟩), isLeaf_ofVariable key y.2⟩

end KeysApart

end Setting

theorem load_of_perm {h : Host} {environment : List (String × String)} {path : Option String}
    {c : Config} (hperm : h.environment.Perm environment)
    (hnames : (h.environment.map Prod.fst).Nodup) (hkeys : Setting.KeysApart h.environment)
    (hload : Config.load h path = .ok c) : Config.load { h with environment } path = .ok c := by
  rw [Config.load_eq_ok_iff] at hload ⊢
  obtain ⟨document, tree, hdocument, htree, hc, hvalid⟩ := hload
  obtain ⟨below, hbelow, htree⟩ := layered_eq_ok_iff.1 htree
  rw [hkeys.overlay] at htree
  cases htree
  have halike := Alike.foldl_perm (hperm.filterMap _) hkeys.pairwise (.same (some below))
  refine ⟨document, _, ?_, ?_, halike.ofSetting hc, hvalid⟩
  · have hvalue := Host.valueOf?_eq_of_perm hperm hnames
    rw [Host.document_eq_of_valueOf? (hvalue _) (hvalue _), hdocument]
  · exact layered_eq_ok_iff.2 ⟨below, hbelow, (hkeys.perm hperm).overlay below⟩

end Unroll
