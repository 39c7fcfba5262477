import Unroll.Proofs.FieldTree
import Unroll.Proofs.PlainText
import Unroll.Proofs.TomlText
import Unroll.Session

/-!
# Layers, field by field

A document and an environment may each set some of the fields: `Document.SetsFields` and
`Setting.VariablesSetFields` say that they set exactly the given ones, in any order and notation.
What is loaded from them has for each field the value of the environment, or else that of the
document, or else the initial one, and command lines replace this value in turn. A layer never
changes a field that it does not set, and it never mixes its value with the one below it.
-/

namespace Unroll

open Config (Field Section)

/-! ## Documents that set fields -/

theorem exists_map_eq {α β : Type} {g : β → α} {P : β → Prop} {xs : List α}
    (h : ∀ x ∈ xs, ∃ y, x = g y ∧ P y) : ∃ ys : List β, xs = ys.map g ∧ ∀ y ∈ ys, P y := by
  induction xs with
  | nil => exact ⟨[], rfl, fun y hy => by cases hy⟩
  | cons x xs ih =>
    obtain ⟨y, rfl, hy⟩ := h x List.mem_cons_self
    obtain ⟨ys, rfl, hys⟩ := ih fun x hx => h x (List.mem_cons_of_mem _ hx)
    exact ⟨y :: ys, rfl, List.forall_mem_cons.2 ⟨hy, hys⟩⟩

/-- The table of a section that sets fields to the chosen values. -/
def Document.IsSection (chosen : (f : Field) → Option f.Value) (s : Section)
    (es : List (String × Toml)) : Prop :=
  ∀ x ∈ es, ∃ (f : Field) (v : f.Value),
    f.parent = s ∧ chosen f = some v ∧ x = (f.name, f.toToml v)

/-- A document consists of sections that set fields to the chosen values, and leaves none of these
values out. -/
structure Document.SetsFields (entries : List (String × Toml))
    (chosen : (f : Field) → Option f.Value) : Prop where
  known : ∀ e ∈ entries, ∃ s es, e = (Section.name s, Toml.table es) ∧ IsSection chosen s es
  complete : ∀ (f : Field) (v : f.Value), chosen f = some v →
    ∃ es, (f.parent.name, Toml.table es) ∈ entries ∧ (f.name, f.toToml v) ∈ es

namespace Setting

theorem ofEntries_eq_map (origin : Option String) (es : List (String × Toml)) :
    ofEntries origin es = es.map fun x => (x.1, ofToml origin x.2) := by
  induction es with
  | nil => rw [ofEntries, List.map_nil]
  | cons x es ih => rw [ofEntries, ih, List.map_cons]

end Setting

theorem Config.Section.ofKey_name (s : Section) :
    Setting.KeyPath.ofKey s.name = [.name s.name] := by
  cases s <;> decide

theorem Config.Field.eq_of_name {f g : Field} (hparent : f.parent = g.parent)
    (h : f.name = g.name) : f = g := by
  cases f <;> cases g <;> first | rfl | exact absurd h (by decide)

theorem Config.Section.eq_of_name {s t : Section} (h : s.name = t.name) : s = t := by
  cases s <;> cases t <;> first | rfl | exact absurd h (by decide)

namespace Document

/-- The table of a section as a list of fields. -/
theorem IsSection.exists_layer {chosen : (f : Field) → Option f.Value} {s : Section}
    {es : List (String × Toml)} (h : IsSection chosen s es) (origin : Option String) :
    ∃ layer : List (Field × Setting),
      Setting.ofEntries origin es = layer.map (fun p => (p.1.name, p.2)) ∧
      ∀ p ∈ layer, p.1.parent = s ∧
        ∃ v, chosen p.1 = some v ∧ p.2 = Setting.ofToml origin (p.1.toToml v) := by
  rw [Setting.ofEntries_eq_map]
  apply exists_map_eq
  intro x hx
  obtain ⟨⟨name, value⟩, hmem, rfl⟩ := List.mem_map.1 hx
  obtain ⟨f, v, hparent, hchosen, heq⟩ := h _ hmem
  cases heq
  exact ⟨(f, _), rfl, hparent, v, hchosen, rfl⟩

/-- Sections that set fields exchange leaves of the tree that they are laid over. -/
theorem overlay_sections {chosen : (f : Field) → Option f.Value} {entries : List (String × Toml)}
    (h : ∀ e ∈ entries, ∃ s es, e = (Section.name s, Toml.table es) ∧ IsSection chosen s es)
    (origin : Option String) (L : Leaves) :
    ∃ layer : List (Field × Setting),
      L.tree.overlay (Setting.ofEntries origin entries) = .ok (L.setAll layer).tree ∧
      (∀ p ∈ layer, p.2.IsLeaf ∧ ∃ v, chosen p.1 = some v ∧ p.1.decode p.2 = .ok v) ∧
      ∀ f es v, (Section.name (Field.parent f), Toml.table es) ∈ entries → (f.name, v) ∈ es →
        f ∈ layer.map Prod.fst := by
  -- the layer grows section by section, and each section sees the leaves that those before it set
  induction entries generalizing L with
  | nil => exact ⟨[], by rw [Setting.ofEntries]; rfl, nofun, nofun⟩
  | cons e entries ih =>
    obtain ⟨s, es, rfl, hes⟩ := h e List.mem_cons_self
    obtain ⟨first, hfirst, hvalues⟩ := hes.exists_layer origin
    obtain ⟨rest, hrest, hknown, hcomplete⟩ :=
      ih (fun e he => h e (List.mem_cons_of_mem _ he)) (L.setAll first)
    have hleaves : ∀ p ∈ first, p.1.parent = s ∧ p.2.IsLeaf := by
      intro p hp
      obtain ⟨hparent, v, -, hv⟩ := hvalues p hp
      exact ⟨hparent, hv ▸ p.1.isLeaf_ofToml origin v⟩
    refine ⟨first ++ rest, ?_, ?_, ?_⟩
    · rw [Setting.ofEntries, Setting.overlay_cons, Section.ofKey_name, Setting.ofToml, hfirst,
        L.write_section origin hleaves, Leaves.setAll_append]
      exact hrest
    · intro p hp
      rcases List.mem_append.1 hp with hp | hp
      · obtain ⟨-, v, hchosen, hv⟩ := hvalues p hp
        rw [hv]
        exact ⟨p.1.isLeaf_ofToml origin v, v, hchosen, p.1.decode_ofToml origin v⟩
      · exact hknown p hp
    · intro f es' v hmem hv
      rw [List.map_append, List.mem_append]
      rcases List.mem_cons.1 hmem with heq | hmem
      · left
        simp only [Prod.mk.injEq, Toml.table.injEq] at heq
        obtain ⟨hname, rfl⟩ := heq
        have hin : (f.name, Setting.ofToml origin v) ∈ Setting.ofEntries origin es' := by
          rw [Setting.ofEntries_eq_map]
          exact List.mem_map_of_mem hv
        rw [hfirst] at hin
        obtain ⟨p, hp, heq⟩ := List.mem_map.1 hin
        have hparent : p.1.parent = f.parent :=
          (hvalues p hp).1.trans (Section.eq_of_name hname.symm)
        exact List.mem_map.2 ⟨p, hp, Field.eq_of_name hparent (Prod.mk.inj heq).1⟩
      · exact .inr (hcomplete f es' v hmem hv)

theorem SetsFields.overlay {entries : List (String × Toml)}
    {chosen : (f : Field) → Option f.Value} (h : SetsFields entries chosen)
    (origin : Option String) (L : Leaves) :
    ∃ layer, Leaves.SetsTo layer chosen ∧
      L.tree.overlay (Setting.ofEntries origin entries) = .ok (L.setAll layer).tree := by
  obtain ⟨layer, hoverlay, hknown, hcomplete⟩ := overlay_sections h.known origin L
  refine ⟨layer, ⟨hknown, ?_⟩, hoverlay⟩
  intro f v hchosen
  obtain ⟨es, hes, hv⟩ := h.complete f v hchosen
  exact hcomplete f es _ hes hv

/-- A document that sets fields leaves a tree of fields to the environment. -/
theorem SetsFields.layered {d : Document} {chosen : (f : Field) → Option f.Value}
    (h : SetsFields d.entries chosen) :
    ∃ L : Leaves, L.Reads (fun f => (chosen f).getD (Config.initial.get f)) ∧
      ∀ environment, layered (some d) environment =
        L.tree.overlay (Setting.ofVariables environment) := by
  obtain ⟨layer, hlayer, hoverlay⟩ := h.overlay d.origin (.ofConfig none .initial)
  refine ⟨_, (Leaves.reads_ofConfig none .initial).setAll hlayer, ?_⟩
  intro environment
  unfold Unroll.layered
  rw [Leaves.overlay_initial]
  show (Leaves.tree _).overlay d.settings >>= _ = _
  rw [Document.settings, hoverlay]
  rfl

end Document

/-! ## Environments that set fields -/

/-- The variable of a field. -/
def Config.Field.variableName : Field → String
  | n => "FIBSTACK_RUN__N"
  | methods => "FIBSTACK_RUN__METHODS"
  | runs => "FIBSTACK_RUN__RUNS"
  | format => "FIBSTACK_OUTPUT__FORMAT"
  | precision => "FIBSTACK_OUTPUT__PRECISION"

/-- How a variable spells the value of a field: an integer by its digits, below the bound of signed
words, a list of methods by their names with commas between them, a format by its name. -/
def Config.Field.Spells : (f : Field) → String → f.Value → Prop
  | n, text, v => Text.IsDecimal text v.toNat ∧ v.toNat < SignedWord.bound
  | methods, text, ms => ms ≠ [] ∧ text = ",".intercalate (ms.map Method.name)
  | runs, text, v => Text.IsDecimal text v.toNat
  | format, text, v => text = v.name
  | precision, text, v => Text.IsDecimal text v.toNat ∧ v.toNat < SignedWord.bound

/-- The settings among the variables set exactly the chosen values. -/
structure Setting.VariablesSetFields (environment : List (String × String))
    (chosen : (f : Field) → Option f.Value) : Prop where
  known : ∀ x ∈ environment, (variableKey? x.1).isSome →
    ∃ (f : Field) (v : f.Value), chosen f = some v ∧ x.1 = f.variableName ∧ f.Spells x.2 v
  complete : ∀ (f : Field) (v : f.Value), chosen f = some v →
    ∃ text, (f.variableName, text) ∈ environment

namespace Setting

theorem variableKey?_variableName (f : Field) : variableKey? f.variableName = some f.key := by
  cases f <;> decide

theorem isLeaf_ofVariable (key text : String) : (ofVariable key text).IsLeaf := by
  unfold ofVariable
  split
  · trivial
  · trivial
  · split
    · trivial
    · trivial
    · unfold ofPlainText
      split <;> trivial

/-- What no word for a truth value is and no integer is a number or a text. -/
theorem ofVariable_of_ne {text : String} (key : String) (htrue : Text.lower text ≠ "true")
    (hfalse : Text.lower text ≠ "false") :
    ofVariable key text =
      match Text.parseInt64 text, Double.parse? text with
      | .ok n, _ => .scalar environmentOrigin (.int n)
      | .error _, some d => .scalar environmentOrigin (.float d)
      | .error _, none => ofPlainText key text := by
  unfold ofVariable
  split
  · next heq => exact absurd heq htrue
  · next heq => exact absurd heq hfalse
  · rfl

/-- Digits are an integer if they fit, and a number if not. -/
theorem ofVariable_decimal_eq {n : Nat} {text : String} (key : String) (h : Text.IsDecimal text n) :
    ofVariable key text =
      match Text.parseInt64 text, Double.parse? text with
      | .ok n, _ => .scalar environmentOrigin (.int n)
      | .error _, some d => .scalar environmentOrigin (.float d)
      | .error _, none => ofPlainText key text := by
  apply ofVariable_of_ne
  · rw [Text.lower_decimal h]
    exact h.ne ⟨'t', by decide, by decide⟩
  · rw [Text.lower_decimal h]
    exact h.ne ⟨'f', by decide, by decide⟩

theorem ofVariable_decimal {n : Nat} {text : String} (key : String) (h : Text.IsDecimal text n)
    (hn : n < SignedWord.bound) : ofVariable key text = .scalar environmentOrigin (.int n) := by
  rw [ofVariable_decimal_eq key h, Text.parseInt64_decimal h hn]

theorem ofVariable_format (v : OutputFormat) :
    ofVariable Field.format.key v.name = .scalar environmentOrigin (.text v.name) := by
  cases v <;> rfl

/-! The names of methods, joined, start with one of them, and that is enough to tell them from
truth values and numbers. -/

section Names

variable {text first : String} {m : Method} {rest : List Char}

theorem exists_first_letter (hfirst : Text.Recased first m.name)
    (htext : text.toList = first.toList ++ rest) :
    ∃ c cs, text.toList = c :: cs ∧ c.isAlpha ∧ m.name.toList.head? = some c.toLower := by
  obtain ⟨halpha, hmap⟩ := hfirst.letters m.isLower_name
  cases hcs : first.toList with
  | nil =>
    rw [hcs] at hmap
    cases m <;> cases hmap
  | cons c cs =>
    rw [hcs] at hmap halpha htext
    exact ⟨c, cs ++ rest, htext, halpha c List.mem_cons_self, by rw [← hmap]; rfl⟩

theorem lower_ne_of_name (hfirst : Text.Recased first m.name)
    (htext : text.toList = first.toList ++ rest) (word : String)
    (hword : word.toList.head? ≠ m.name.toList.head?) : Text.lower text ≠ word := by
  rintro rfl
  obtain ⟨c, cs, hcons, halpha, hhead⟩ := exists_first_letter hfirst htext
  have hascii := (Text.of_isAlpha halpha).1
  have hsigma : c ≠ '\u03A3' := by
    rintro rfl
    exact absurd hascii (by decide)
  apply hword
  rw [hhead, Text.lower, String.toList_ofList, hcons, Text.lowerAfter, if_neg hsigma,
    Text.lowerChar_of_ascii hascii]
  rfl

theorem parseInt64_of_name (hfirst : Text.Recased first m.name)
    (htext : text.toList = first.toList ++ rest) : Text.parseInt64 text = .error .invalidDigit := by
  obtain ⟨c, cs, hcons, halpha, -⟩ := exists_first_letter hfirst htext
  have hdigit : ¬ c.isDigit := (Text.of_isAlpha halpha).2.2
  have hminus : c ≠ '-' := Text.ne_of_isAlpha halpha (by decide)
  have hplus : c ≠ '+' := Text.ne_of_isAlpha halpha (by decide)
  rw [Text.parseInt64_unsigned hcons hminus hplus, hcons, Text.readDigits, Text.readMagnitude,
    if_neg hdigit]
  · rfl
  · exact List.cons_ne_nil _ _

theorem parseDouble_of_name (hfirst : Text.Recased first m.name)
    (htext : text.toList = first.toList ++ rest) : Double.parse? text = none := by
  obtain ⟨c, cs, hcons, halpha, -⟩ := exists_first_letter hfirst htext
  have hdigit : ¬ c.isDigit := (Text.of_isAlpha halpha).2.2
  have hsign : Double.takeSign text.toList = (false, c :: cs) := by
    rw [hcons]
    unfold Double.takeSign
    split
    · next heq => exact absurd (List.cons.inj heq).1 (Text.ne_of_isAlpha halpha (by decide))
    · next heq => exact absurd (List.cons.inj heq).1 (Text.ne_of_isAlpha halpha (by decide))
    · rfl
  have hword : ∀ word ∈ ["inf", "infinity", "nan"],
      String.ofList ((c :: cs).map Char.toLower) ≠ word := by
    intro word hword heq
    have hlist := congrArg String.toList heq
    rw [String.toList_ofList, ← hcons, htext, List.map_append,
      (hfirst.letters m.isLower_name).2] at hlist
    simp only [List.mem_cons, List.not_mem_nil, or_false] at hword
    rcases hword with rfl | rfl | rfl <;> cases m <;> simp [Method.name] at hlist
  have hpoint : c ≠ '.' := Text.ne_of_isAlpha halpha (by decide)
  unfold Double.parse?
  rw [hsign]
  simp only
  split
  · next heq => exact absurd heq (hword _ (by decide))
  · next heq => exact absurd heq (hword _ (by decide))
  · next heq => exact absurd heq (hword _ (by decide))
  · simp [Double.parseUnsigned?, hdigit, hpoint]

end Names

theorem ofVariable_recased {names : List (String × Method)} (hne : names ≠ [])
    (h : ∀ p ∈ names, Text.Recased p.1 p.2.name) :
    ofVariable Field.methods.key (",".intercalate (names.map Prod.fst)) =
      .array environmentOrigin (names.map fun p => .scalar environmentOrigin (.text p.1)) := by
  obtain ⟨p, rest, rfl⟩ := List.exists_cons_of_ne_nil hne
  obtain ⟨tail, htext⟩ := Text.exists_toList_intercalate "," p.1 (rest.map Prod.fst)
  have hfirst := h p List.mem_cons_self
  have htrue := lower_ne_of_name hfirst htext "true" (by cases p.2 <;> decide)
  have hfalse := lower_ne_of_name hfirst htext "false" (by cases p.2 <;> decide)
  have hsplit : Text.split ',' (",".intercalate ((p :: rest).map Prod.fst)) =
      (p :: rest).map Prod.fst := by
    apply Text.split_intercalate (mt List.map_eq_nil_iff.1 hne)
    intro name hname
    obtain ⟨q, hq, rfl⟩ := List.mem_map.1 hname
    exact Method.notMem_of_parse (Method.parse_recased (h q hq)) (.inl rfl)
  rw [List.map_cons, ofVariable_of_ne _ htrue hfalse, parseInt64_of_name hfirst htext,
    parseDouble_of_name hfirst htext, ← List.map_cons]
  show ofPlainText "run.methods" _ = _
  rw [ofPlainText, if_pos rfl, hsplit, List.map_map]
  rfl

theorem ofVariable_names {ms : List Method} (h : ms ≠ []) :
    ofVariable Field.methods.key (",".intercalate (ms.map Method.name)) =
      .array environmentOrigin (ms.map fun m => .scalar environmentOrigin (.text m.name)) := by
  have hread := ofVariable_recased (mt List.map_eq_nil_iff.1 h) (Method.recased_names ms)
  rw [List.map_map, List.map_map] at hread
  exact hread

end Setting

theorem Config.Field.decode_ofVariable {f : Field} {text : String} {v : f.Value}
    (h : f.Spells text v) : f.decode (Setting.ofVariable f.key text) = .ok v := by
  cases f with
  | n =>
    rw [Setting.ofVariable_decimal _ h.1 h.2]
    exact Setting.toWord_int "run.n" Setting.environmentOrigin v
  | methods =>
    obtain ⟨hne, rfl⟩ := h
    rw [Setting.ofVariable_names hne]
    exact Setting.toMethods_names Setting.environmentOrigin Setting.environmentOrigin v
  | runs =>
    have hlt : v.toNat < SignedWord.bound := Nat.lt_trans v.toNat_lt_size (by decide)
    rw [Setting.ofVariable_decimal _ h hlt]
    exact Setting.toHalfWord_int "run.runs" Setting.environmentOrigin v
  | format =>
    rw [show text = v.name from h, Setting.ofVariable_format]
    exact Setting.toFormat_name Setting.environmentOrigin v
  | precision =>
    rw [Setting.ofVariable_decimal _ h.1 h.2]
    exact Setting.toWord_int "output.precision" Setting.environmentOrigin v

theorem Config.Field.eq_of_key {f g : Field} (h : f.key = g.key) : f = g := by
  cases f <;> cases g <;> first | rfl | exact absurd h (by decide)

/-- Variables that set fields exchange leaves of the tree that they are laid over. -/
theorem Setting.VariablesSetFields.overlay {environment : List (String × String)}
    {chosen : (f : Field) → Option f.Value} (h : VariablesSetFields environment chosen)
    (L : Leaves) :
    ∃ layer, Leaves.SetsTo layer chosen ∧
      L.tree.overlay (ofVariables environment) = .ok (L.setAll layer).tree := by
  have hlayer : ∃ layer : List (Field × Setting),
      ofVariables environment = layer.map (fun p => (p.1.key, p.2)) ∧
      ∀ p ∈ layer, p.2.IsLeaf ∧ ∃ v, chosen p.1 = some v ∧ p.1.decode p.2 = .ok v := by
    apply exists_map_eq
    intro x hx
    obtain ⟨⟨name, text⟩, hmem, hx⟩ := List.mem_filterMap.1 hx
    obtain ⟨key, hkey, rfl⟩ := Option.map_eq_some_iff.1 hx
    obtain ⟨f, v, hchosen, rfl, hspells⟩ := h.known _ hmem (Option.isSome_of_eq_some hkey)
    obtain rfl := Option.some.inj (hkey.symm.trans (variableKey?_variableName f))
    exact ⟨(f, _), rfl, isLeaf_ofVariable _ _, v, hchosen, Field.decode_ofVariable hspells⟩
  obtain ⟨layer, heq, hvalues⟩ := hlayer
  refine ⟨layer, ⟨hvalues, ?_⟩, ?_⟩
  · intro f v hchosen
    obtain ⟨text, hmem⟩ := h.complete f v hchosen
    have hin : (f.key, ofVariable f.key text) ∈ ofVariables environment := by
      refine List.mem_filterMap.2 ⟨_, hmem, ?_⟩
      simp only [variableKey?_variableName, Option.map_some]
    rw [heq] at hin
    obtain ⟨p, hp, hpf⟩ := List.mem_map.1 hin
    exact List.mem_map.2 ⟨p, hp, Field.eq_of_key (Prod.mk.inj hpf).1⟩
  · rw [heq]
    exact L.overlay_fields fun p hp => (hvalues p hp).1

/-! ## Files -/

theorem fromUTF8?_toUTF8 (text : String) : String.fromUTF8? text.toUTF8 = some text := by
  have hvalid : text.toUTF8.IsValidUTF8 := text.isValidUTF8
  rw [String.fromUTF8?, dif_pos hvalid]
  rfl

namespace Host

/-- The configuration file of a path, or the one at the default path, has the given text. -/
def Holds (h : Host) (path : Option String) (text : String) : Prop :=
  ∃ file, h.findConfig? (path.elim h.defaultConfigPath h.expandPath) = some file ∧
    file.content = text.toUTF8

theorem document_of_findConfig? {h : Host} (path : Option String) {file : FoundFile}
    {text : String} {entries : List (String × Toml)}
    (hfile : h.findConfig? (path.elim h.defaultConfigPath h.expandPath) = some file)
    (hcontent : file.content = text.toUTF8) (hparse : Toml.parse? text = some entries) :
    h.document path = .ok (some ⟨some file.path, entries⟩) := by
  have hdocument : Document.ofFile file = .ok ⟨some file.path, entries⟩ := by
    unfold Document.ofFile
    rw [hcontent, fromUTF8?_toUTF8]
    simp only [hparse]
  cases path with
  | none =>
    have hfound : h.findConfig? h.defaultConfigPath = some file := hfile
    unfold Host.document defaultDocument
    simp only [hfound, hdocument]
  | some path =>
    have hfound : h.findConfig? (h.expandPath path) = some file := hfile
    unfold Host.document requiredDocument
    simp only [hfound, hdocument]
    rfl

theorem Holds.document {h : Host} {path : Option String} {text : String}
    {entries : List (String × Toml)} (hholds : h.Holds path text)
    (hparse : Toml.parse? text = some entries) :
    ∃ origin, h.document path = .ok (some ⟨origin, entries⟩) := by
  obtain ⟨file, hfile, hcontent⟩ := hholds
  exact ⟨some file.path, document_of_findConfig? path hfile hcontent hparse⟩

/-- A file in the working directory is found by its name. -/
theorem findConfig?_hostOfFile (environment : List (String × String)) (text : String) :
    let h : Host := { Config.hostOfFile "c.toml" text with environment }
    h.findConfig? (h.expandPath "c.toml") =
      some ⟨Path.relativeTo "/" "/c.toml", text.toUTF8⟩ := by
  intro h
  have hcandidates : configCandidates { Config.hostOfFile "c.toml" text with environment }
      "c.toml" = ["/c.toml", "/c.toml.toml"] := by
    show Path.join "/" "c.toml" :: (Path.appendToName? ".toml" (Path.join "/" "c.toml")).toList = _
    decide
  show findConfig? _ "c.toml" = _
  unfold findConfig?
  simp only [h, hcandidates, List.findSome?_cons]
  rfl

theorem document_hostOfFile (environment : List (String × String)) {text : String}
    {entries : List (String × Toml)} (hparse : Toml.parse? text = some entries) :
    document { Config.hostOfFile "c.toml" text with environment } (some "c.toml") =
      .ok (some ⟨some "c.toml", entries⟩) :=
  document_of_findConfig? (some "c.toml") (findConfig?_hostOfFile environment text) rfl hparse

theorem holds_hostOfFile (environment : List (String × String)) (text : String) :
    Holds { Config.hostOfFile "c.toml" text with environment } (some "c.toml") text :=
  ⟨_, findConfig?_hostOfFile environment text, rfl⟩

end Host

/-! ## Loading -/

/-- What is loaded is what the tree reads as, if that can be run. -/
theorem Config.ofLayers_of_reads {document : Option Document}
    {environment : List (String × String)} {tree : Setting} {c : Config}
    (hlayered : layered document environment = .ok tree) (hc : Config.ofSetting tree = .ok c) :
    Config.ofLayers document environment =
      match c.validate with
      | .ok () => .ok c
      | .error reason => .error (.invalid reason) := by
  unfold Config.ofLayers
  rw [hlayered]
  show (Config.ofSetting tree).mapError _ >>= _ = _
  rw [hc]
  show c.validate.mapError _ >>= _ = _
  cases c.validate <;> rfl

/-- **The last layer that sets a field counts.** Of a document and an environment that set some of
the fields, what is loaded takes each field from the environment, or else from the document, or else
from the initial values. It is refused for the reason for which this configuration cannot be run,
and for no other reason. Of the command lines after it the last one that sets the field counts. -/
theorem load_takes_last_layer {h : Host} {path : Option String} {d : Document}
    {file environment : (f : Field) → Option f.Value} (hdocument : h.document path = .ok (some d))
    (hfile : Document.SetsFields d.entries file)
    (henvironment : Setting.VariablesSetFields h.environment environment) :
    ∃ c : Config, (∀ f, c.get f = (environment f).getD ((file f).getD (Config.initial.get f))) ∧
      (Config.load h path =
        match c.validate with
        | .ok () => .ok c
        | .error reason => .error (.invalid reason)) ∧
      ∀ (lines : List CommandLine) (f : Field),
        (lines.foldl (fun c line => line.apply c) c).get f =
          (lines.reverse.findSome? (·.given? f)).getD (c.get f) := by
  obtain ⟨L, hreads, hlayered⟩ := hfile.layered
  obtain ⟨layer, hlayer, hoverlay⟩ := henvironment.overlay L
  refine ⟨.ofFields fun f => (environment f).getD ((file f).getD (Config.initial.get f)),
    fun f => Config.get_ofFields _ f, ?_, fun lines f => CommandLine.get_foldl_apply lines _ f⟩
  unfold Config.load
  rw [hdocument]
  exact Config.ofLayers_of_reads ((hlayered _).trans hoverlay) (hreads.setAll hlayer).ofSetting_tree

/-- The environment replaces the whole list of methods, the index and the format come from the
document, and nothing sets the runs. -/
theorem load_takes_last_layer_mixed :
    let h : Host := { Config.hostOfFile "c.toml"
        "[output]\nformat = \"json\"\n\n[run]\nmethods = [\"naive\"]\nn = 7\n" with
      environment := [("FIBSTACK_OUTPUT__PRECISION", "004"), ("PATH", "/bin"),
        ("FIBSTACK_RUN__METHODS", "stack,naive,stack")] }
    Config.load h (some "c.toml") =
      .ok ⟨⟨7, [.stack, .naive, .stack], 1⟩, ⟨.json, 4⟩⟩ := by
  let file : CommandLine := { n := some 7, methods := [.naive], format := some .json }
  let environment : CommandLine := { methods := [.stack, .naive, .stack], precision := some 4 }
  let format : Toml.Pair := ⟨"format", "\"json\"".toList, .str "json"⟩
  let methods : Toml.Pair := ⟨"methods", (tomlNames ["naive"]).toList, .arr [.str "naive"]⟩
  let n : Toml.Pair := ⟨"n", (toString 7).toList, .int 7⟩
  have htables : Toml.IsDocument [("output", [format]), ("run", [methods, n])] := by
    have hformat : format.IsWritten :=
      ⟨by decide, Toml.renders_quoted (show Toml.IsBare "json" by decide), rfl⟩
    have hmethods : methods.IsWritten := by
      refine ⟨by decide, Toml.renders_names ?_, rfl⟩
      rw [List.forall_mem_singleton]
      decide
    have hn : n.IsWritten :=
      ⟨by decide, Toml.renders_toString (show 7 < SignedWord.bound by decide), rfl⟩
    refine ⟨?_, by decide, ?_, ?_⟩
    · rw [List.forall_mem_cons, List.forall_mem_singleton]
      decide
    · rw [List.forall_mem_cons, List.forall_mem_singleton, List.forall_mem_singleton,
        List.forall_mem_cons, List.forall_mem_singleton]
      exact ⟨hformat, hmethods, hn⟩
    · rw [List.forall_mem_cons, List.forall_mem_singleton]
      decide
  have htext : "[output]\nformat = \"json\"\n\n[run]\nmethods = [\"naive\"]\nn = 7\n" =
      String.ofList (Toml.documentLines [("output", [format]), ("run", [methods, n])]) := by
    decide
  intro h
  obtain ⟨origin, hdocument⟩ :=
    (Host.holds_hostOfFile h.environment _).document (htext ▸ htables.parse?)
  have hfile : Document.SetsFields [("output", .table [("format", .str "json")]),
      ("run", .table [("methods", .arr [.str "naive"]), ("n", .int 7)])] file.given? := by
    refine ⟨?_, ?_⟩
    · rw [List.forall_mem_cons, List.forall_mem_singleton]
      refine ⟨⟨.output, _, rfl, ?_⟩, ⟨.run, _, rfl, ?_⟩⟩
      · rw [Document.IsSection, List.forall_mem_singleton]
        exact ⟨.format, .json, rfl, rfl, rfl⟩
      · rw [Document.IsSection, List.forall_mem_cons, List.forall_mem_singleton]
        exact ⟨⟨.methods, [.naive], rfl, rfl, rfl⟩, ⟨.n, 7, rfl, rfl, rfl⟩⟩
    · intro f v hv
      cases f with
      | n =>
        obtain rfl := Option.some.inj hv
        exact ⟨_, .tail _ (.head _), .tail _ (.head _)⟩
      | methods =>
        obtain rfl := Option.some.inj hv
        exact ⟨_, .tail _ (.head _), .head _⟩
      | runs => cases hv
      | format =>
        obtain rfl := Option.some.inj hv
        exact ⟨_, .head _, .head _⟩
      | precision => cases hv
  have henvironment : Setting.VariablesSetFields h.environment environment.given? := by
    refine ⟨?_, ?_⟩
    · rw [List.forall_mem_cons, List.forall_mem_cons, List.forall_mem_singleton]
      refine ⟨fun _ => ⟨.precision, 4, rfl, rfl, ?_⟩, fun hpath => ?_,
        fun _ => ⟨.methods, [.stack, .naive, .stack], rfl, rfl, ?_⟩⟩
      · exact ⟨⟨by decide, List.all_eq_true.1 (by decide), by decide⟩, by decide⟩
      · exact absurd hpath (by decide)
      · exact ⟨by decide, by decide⟩
    · intro f v hv
      cases f with
      | n => cases hv
      | methods => exact ⟨_, .tail _ (.tail _ (.head _))⟩
      | runs => cases hv
      | format => cases hv
      | precision => exact ⟨_, .head _⟩
  obtain ⟨c, hc, hload, -⟩ := load_takes_last_layer hdocument hfile henvironment
  obtain rfl : c = ⟨⟨7, [.stack, .naive, .stack], 1⟩, ⟨.json, 4⟩⟩ := by
    apply Config.ext_get
    intro f
    rw [hc f]
    cases f <;> rfl
  exact hload

end Unroll
