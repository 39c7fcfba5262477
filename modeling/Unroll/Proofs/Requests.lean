import Mathlib.Data.List.Forall2
import Unroll.Proofs.Arguments

/-!
# Requests in any order

A request is what a user asks for; a line spells it if its words are the request's items one after
another, in any order that keeps the occurrences of the methods as they are. Each item adds its
value to the line that the words before it come to (`Progress.Shows.run_item`), so by induction a
line comes to all the values of its items (`Progress.Shows.run_items`). An item that may be given
once finds its place empty: `Once` counts what is set and what is still to come.
-/

namespace Unroll.CommandLine

/-! ## Items -/

/-- One thing that is asked for, methods and formats with the texts that name them. -/
inductive Item where
  | index (n : UInt64)
  | methods (names : List (String × Method))
  | runs (runs : UInt32)
  | format (name : String × OutputFormat)
  | precision (precision : UInt64)
  | config (path : String)
  | printConfig
  | verbose (count : Nat)

namespace Item

/-- The words of an item. -/
def Written (words : List String) : Item → Prop
  | index n => ∃ text, Text.IsDecimal text n.toNat ∧ words = [text]
  | methods names => Parameter.method.Spelled (",".intercalate (names.map Prod.fst)) words
  | runs v => ∃ text, Text.IsNumeral text v.toNat ∧ Parameter.runs.Spelled text words
  | format name => Parameter.format.Spelled name.1 words
  | precision v => ∃ text, Text.IsNumeral text v.toNat ∧ Parameter.precision.Spelled text words
  | config path => Parameter.config.Spelled path words
  | printConfig => words = ["--print-config"]
  | verbose count => (count = 1 ∧ words = ["--verbose"]) ∨
      (0 < count ∧ words = [String.ofList ('-' :: List.replicate count 'v')])

/-- The texts of an item name what they stand for. -/
def Accepted : Item → Prop
  | methods names => names ≠ [] ∧ ∀ name ∈ names, Method.parse name.1 = .ok name.2
  | format name => OutputFormat.parse name.1 = .ok name.2
  | config path => Typeable path
  | _ => True

def addTo (line : CommandLine) : Item → CommandLine
  | index n => { line with n := some n }
  | methods names => { line with methods := line.methods ++ names.map Prod.snd }
  | runs v => { line with runs := some v }
  | format name => { line with format := some name.2 }
  | precision v => { line with precision := some v }
  | config path => { line with configPath := some path }
  | printConfig => { line with printConfig := true }
  | verbose count => { line with verbosity := raised line.verbosity count }

/-- Nothing of the kind is set that may be set once. -/
def Fresh (line : CommandLine) : Item → Prop
  | index _ => line.n = none
  | methods _ => True
  | runs _ => line.runs = none
  | format _ => line.format = none
  | precision _ => line.precision = none
  | config _ => line.configPath = none
  | printConfig => line.printConfig = false
  | verbose _ => True

end Item

/-! ### Values -/

theorem typeable_decimal {text : String} {n : Nat} (h : Text.IsDecimal text n) : Typeable text := by
  obtain ⟨c, rest, heq, hc⟩ := h.exists_cons
  refine ⟨c, rest, heq, ?_, ?_⟩
  · rintro rfl
    exact absurd hc (by decide)
  · rintro rfl
    exact absurd hc (by decide)

theorem typeable_numeral {text : String} {n : Nat} (h : Text.IsNumeral text n) : Typeable text := by
  obtain ⟨digits, hdigits, rfl | rfl⟩ := h
  · exact typeable_decimal hdigits
  · exact ⟨'+', digits.toList, by simp, by decide, by decide⟩

theorem typeable_of_notMem {text : String} (hne : text.toList ≠ []) (hhyphen : '-' ∉ text.toList)
    (hequals : '=' ∉ text.toList) : Typeable text := by
  obtain ⟨c, rest, heq⟩ := List.exists_cons_of_ne_nil hne
  rw [heq] at hhyphen hequals
  exact ⟨c, rest, heq, (List.ne_of_not_mem_cons hhyphen).symm,
    (List.ne_of_not_mem_cons hequals).symm⟩

theorem readWord_numeral {text : String} {v : UInt64} (h : Text.IsNumeral text v.toNat) :
    readWord text = .ok v := by
  unfold readWord
  rw [h.readNat (Nat.le_sub_one_of_lt v.toNat_lt_size)]
  simp

theorem readRuns_numeral {text : String} {v : UInt32} (h : Text.IsNumeral text v.toNat) :
    readRuns text = .ok v := by
  have hlt : v.toNat < UInt32.size := v.toNat_lt_size
  have hrange : (0 ≤ (v.toNat : Int) && (v.toNat : Int) < UInt32.size) = true := by
    simp only [Bool.and_eq_true, decide_eq_true_eq]
    omega
  unfold readRuns
  rw [h.readInt64 (Nat.lt_trans hlt (by decide))]
  simp only [hrange, if_true, Int.toNat_natCast, UInt32.ofNat_toNat]

/-- Methods joined by commas are read one after another. -/
theorem mapM_names {names : List (String × Method)} (hne : names ≠ [])
    (h : ∀ name ∈ names, Method.parse name.1 = .ok name.2) :
    (Text.split ',' (",".intercalate (names.map Prod.fst))).mapM
        (reading .method fun s => (Method.parse s).mapError .method) =
      .ok (names.map Prod.snd) := by
  have hsplit : Text.split ',' (",".intercalate (names.map Prod.fst)) = names.map Prod.fst := by
    apply Text.split_intercalate (mt List.map_eq_nil_iff.1 hne)
    intro piece hpiece
    obtain ⟨name, hname, rfl⟩ := List.mem_map.1 hpiece
    exact Method.notMem_of_parse (h name hname) (.inl rfl)
  rw [hsplit]
  apply mapM_eq_ok
  intro name hname
  rw [reading, h name hname]
  rfl

theorem typeable_name {text : String} {m : Method} (h : Method.parse text = .ok m) :
    Typeable text :=
  typeable_of_notMem (Method.ne_nil_of_parse h) (Method.notMem_of_parse h (.inr (.inl rfl)))
    (Method.notMem_of_parse h (.inr (.inr rfl)))

theorem typeable_names {names : List (String × Method)} (hne : names ≠ [])
    (h : ∀ name ∈ names, Method.parse name.1 = .ok name.2) :
    Typeable (",".intercalate (names.map Prod.fst)) := by
  obtain ⟨first, rest, rfl⟩ := List.exists_cons_of_ne_nil hne
  obtain ⟨c, cs, hfirst, hc⟩ := typeable_name (h first List.mem_cons_self)
  obtain ⟨tail, htail⟩ := Text.exists_toList_intercalate "," first.1 (rest.map Prod.fst)
  exact ⟨c, cs ++ tail, by rw [List.map_cons, htail, hfirst]; rfl, hc⟩

theorem typeable_format {name : String × OutputFormat}
    (h : OutputFormat.parse name.1 = .ok name.2) : Typeable name.1 :=
  typeable_of_notMem (OutputFormat.ne_nil_of_parse h) (OutputFormat.notMem_of_parse h (.inl rfl))
    (OutputFormat.notMem_of_parse h (.inr rfl))

theorem once_none {α : Type} (p : Parameter) : once p (none : Option α) = .ok () :=
  rfl

theorem reading_ok {α : Type} {p : Parameter} {read : String → Except ValueFault α}
    {value : String} {a : α} (h : read value = .ok a) : reading p read value = .ok a := by
  rw [reading, h]
  rfl

/-- An item adds its value to what the words before it come to. -/
theorem Progress.Shows.run_item {state : Progress} {line : CommandLine} {item : Item}
    {words : List String} (h : state.Shows line) (hwords : item.Written words)
    (haccepted : item.Accepted) (hfresh : item.Fresh line) :
    ∃ next, words.foldlM Progress.step state = .ok next ∧ next.Shows (item.addTo line) := by
  cases item with
  | index n =>
    obtain ⟨text, htext, rfl⟩ := hwords
    apply h.run_index hfresh (typeable_decimal htext)
    rw [assign, show line.n = none from hfresh, once_none, ok_bind,
      reading_ok (readWord_numeral ⟨text, htext, .inl rfl⟩)]
    rfl
  | methods names =>
    apply h.run_parameter hwords (typeable_names haccepted.1 haccepted.2)
    rw [assign, mapM_names haccepted.1 haccepted.2]
    rfl
  | runs v =>
    obtain ⟨text, htext, hwords⟩ := hwords
    apply h.run_parameter hwords (typeable_numeral htext)
    rw [assign, show line.runs = none from hfresh, once_none, ok_bind,
      reading_ok (readRuns_numeral htext)]
    rfl
  | format name =>
    apply h.run_parameter hwords (typeable_format haccepted)
    rw [assign, show line.format = none from hfresh, once_none, ok_bind, reading,
      show OutputFormat.parse name.1 = .ok name.2 from haccepted]
    rfl
  | precision v =>
    obtain ⟨text, htext, hwords⟩ := hwords
    apply h.run_parameter hwords (typeable_numeral htext)
    rw [assign, show line.precision = none from hfresh, once_none, ok_bind,
      reading_ok (readWord_numeral htext)]
    rfl
  | config path =>
    have hne : path.isEmpty = false := by
      obtain ⟨c, rest, heq, -⟩ := haccepted
      rw [Bool.eq_false_iff]
      intro hempty
      rw [String.isEmpty_iff.1 hempty] at heq
      cases heq
    apply h.run_parameter hwords haccepted
    rw [assign, show line.configPath = none from hfresh, once_none, ok_bind, hne]
    rfl
  | printConfig =>
    obtain rfl := hwords
    have hturn : line.turn .printConfig = .ok { line with printConfig := true } := by
      rw [turn, if_neg (by simp [show line.printConfig = false from hfresh])]
    have hword : Word.ofText "--print-config" = .long "print-config" none := by decide
    refine ⟨_, ?_, shows_line _⟩
    rw [List.foldlM_cons, h.step_eq, hword]
    simp only [Progress.long, Named.ofLong?, h.switch hturn, ok_bind]
    rfl
  | verbose count =>
    rcases hwords with ⟨rfl, rfl⟩ | ⟨hpos, rfl⟩
    · have hword : Word.ofText "--verbose" = .long "verbose" none := by decide
      refine ⟨_, ?_, shows_line _⟩
      rw [List.foldlM_cons, h.step_eq, hword]
      simp only [Progress.long, Named.ofLong?, h.switch (turn_verbose line), ok_bind]
      rfl
    · obtain ⟨more, rfl⟩ := Nat.exists_eq_succ_of_ne_zero (Nat.ne_of_gt hpos)
      obtain ⟨next, hnext, hshows⟩ := h.letters_verbose (more + 1)
      have hword : (String.ofList ('-' :: List.replicate (more + 1) 'v')).toList =
          '-' :: 'v' :: List.replicate more 'v' := by
        rw [String.toList_ofList, List.replicate_succ]
      refine ⟨next, ?_, hshows⟩
      rw [List.foldlM_cons, h.step_eq, ofText_letters hword (by decide), ← List.replicate_succ]
      simp only [hnext, ok_bind]
      rfl

/-! ## Requests -/

/-- What a user asks for, whatever the order and the spelling. Each occurrence of the methods is a
list of its own. -/
structure Request where
  n : Option UInt64 := none
  methods : List (List (String × Method)) := []
  runs : Option UInt32 := none
  format : Option (String × OutputFormat) := none
  precision : Option UInt64 := none
  config : Option String := none
  printConfig : Bool := false
  verbose : Nat := 0

namespace Item

def index? : Item → Option UInt64
  | index n => some n
  | _ => none

def methods? : Item → Option (List (String × Method))
  | methods names => some names
  | _ => none

def runs? : Item → Option UInt32
  | runs v => some v
  | _ => none

def format? : Item → Option (String × OutputFormat)
  | format name => some name
  | _ => none

def precision? : Item → Option UInt64
  | precision v => some v
  | _ => none

def config? : Item → Option String
  | config path => some path
  | _ => none

def printConfig? : Item → Option Unit
  | printConfig => some ()
  | _ => none

def verbose? : Item → Option Nat
  | verbose count => some count
  | _ => none

end Item

namespace Request

/-- The items of a request in any order that keeps the occurrences of the methods as they are. -/
structure Arranged (r : Request) (items : List Item) : Prop where
  n : items.filterMap Item.index? = r.n.toList
  methods : items.filterMap Item.methods? = r.methods
  runs : items.filterMap Item.runs? = r.runs.toList
  format : items.filterMap Item.format? = r.format.toList
  precision : items.filterMap Item.precision? = r.precision.toList
  config : items.filterMap Item.config? = r.config.toList
  printConfig : items.filterMap Item.printConfig? = if r.printConfig then [()] else []
  verbose : (items.filterMap Item.verbose?).foldr (· + ·) 0 = r.verbose

/-- The words of a request, item by item. -/
def Spelled (r : Request) (words : List String) : Prop :=
  ∃ items pieces, r.Arranged items ∧
    List.Forall₂ (fun item piece => item.Written piece) items pieces ∧ words = pieces.flatten

/-- The texts of a request name what they stand for. -/
structure Valid (r : Request) : Prop where
  methods : ∀ names ∈ r.methods, names ≠ [] ∧ ∀ name ∈ names, Method.parse name.1 = .ok name.2
  format : ∀ name, r.format = some name → OutputFormat.parse name.1 = .ok name.2
  config : ∀ path, r.config = some path → Typeable path

/-- The command line that is asked for. -/
def line (r : Request) : CommandLine where
  n := r.n
  methods := r.methods.flatten.map Prod.snd
  runs := r.runs
  format := r.format.map Prod.snd
  precision := r.precision
  configPath := r.config
  printConfig := r.printConfig
  verbosity := UInt8.ofNat (min r.verbose 255)

end Request

/-- Of what may be given once, a line and the items to come have one at most. -/
structure Once (line : CommandLine) (items : List Item) : Prop where
  n : line.n.isSome.toNat + (items.filterMap Item.index?).length ≤ 1
  runs : line.runs.isSome.toNat + (items.filterMap Item.runs?).length ≤ 1
  format : line.format.isSome.toNat + (items.filterMap Item.format?).length ≤ 1
  precision : line.precision.isSome.toNat + (items.filterMap Item.precision?).length ≤ 1
  config : line.configPath.isSome.toNat + (items.filterMap Item.config?).length ≤ 1
  printConfig : line.printConfig.toNat + (items.filterMap Item.printConfig?).length ≤ 1

section Once

variable {line : CommandLine} {item : Item} {items : List Item} {α : Type} {pick : Item → Option α}
  {given given' : Bool}

theorem not_given_of_once (h : given.toNat + ((item :: items).filterMap pick).length ≤ 1)
    (hpick : (pick item).isSome) : given = false := by
  obtain ⟨value, hvalue⟩ := Option.isSome_iff_exists.1 hpick
  rw [List.filterMap_cons_some hvalue, List.length_cons] at h
  cases given with
  | false => rfl
  | true =>
    rw [Bool.toNat_true] at h
    omega

theorem eq_none_of_once {β : Type} {current : Option β}
    (h : current.isSome.toNat + ((item :: items).filterMap pick).length ≤ 1)
    (hpick : (pick item).isSome) : current = none := by
  have hnot := not_given_of_once h hpick
  cases current with
  | none => rfl
  | some value => cases hnot

theorem once_step (h : given.toNat + ((item :: items).filterMap pick).length ≤ 1)
    (hgiven : given' = given ∨ (pick item).isSome) :
    given'.toNat + (items.filterMap pick).length ≤ 1 := by
  rcases hgiven with rfl | hpick
  · have hle : (items.filterMap pick).length ≤ ((item :: items).filterMap pick).length :=
      ((List.sublist_cons_self item items).filterMap pick).length_le
    omega
  · obtain ⟨value, hvalue⟩ := Option.isSome_iff_exists.1 hpick
    have hle := given'.toNat_le
    rw [List.filterMap_cons_some hvalue, List.length_cons] at h
    omega

theorem Once.fresh (h : Once line (item :: items)) : item.Fresh line := by
  cases item with
  | index n => exact eq_none_of_once h.n rfl
  | methods names => trivial
  | runs v => exact eq_none_of_once h.runs rfl
  | format name => exact eq_none_of_once h.format rfl
  | precision v => exact eq_none_of_once h.precision rfl
  | config path => exact eq_none_of_once h.config rfl
  | printConfig => exact not_given_of_once h.printConfig rfl
  | verbose count => trivial

theorem Once.next (h : Once line (item :: items)) : Once (item.addTo line) items := by
  refine ⟨once_step h.n ?_, once_step h.runs ?_, once_step h.format ?_, once_step h.precision ?_,
    once_step h.config ?_, once_step h.printConfig ?_⟩ <;>
  cases item <;> first | exact .inl rfl | exact .inr rfl

/-- The items of a line are read one after another, each on top of what those before it come to. -/
theorem Progress.Shows.run_items {state : Progress} {pieces : List (List String)}
    (h : state.Shows line)
    (hwords : List.Forall₂ (fun item piece => item.Written piece) items pieces)
    (haccepted : ∀ item ∈ items, item.Accepted) (honce : Once line items) :
    ∃ last, pieces.flatten.foldlM Progress.step state = .ok last ∧
      last.Shows (items.foldl Item.addTo line) := by
  induction hwords generalizing state line with
  | nil => exact ⟨state, rfl, h⟩
  | cons hitem _ ih =>
    rw [List.forall_mem_cons] at haccepted
    obtain ⟨next, hnext, hshows⟩ := h.run_item hitem haccepted.1 honce.fresh
    obtain ⟨last, hlast, hend⟩ := ih hshows haccepted.2 honce.next
    refine ⟨last, ?_, hend⟩
    rw [List.flatten_cons, List.foldlM_append, hnext]
    exact hlast

end Once

/-! ## The line that is read -/

/-- A field that only the picked items change is the result of their values in turn. -/
theorem foldl_addTo {α β : Type} (field : CommandLine → β) (pick : Item → Option α)
    (set : β → α → β)
    (h : ∀ line item, field (item.addTo line) = (pick item).elim (field line) (set (field line)))
    (items : List Item) (line : CommandLine) :
    field (items.foldl Item.addTo line) = (items.filterMap pick).foldl set (field line) := by
  induction items generalizing line with
  | nil => rfl
  | cons item items ih =>
    rw [List.foldl_cons, ih, h]
    cases hpick : pick item with
    | none => rw [List.filterMap_cons_none hpick, Option.elim_none]
    | some value => rw [List.filterMap_cons_some hpick, List.foldl_cons, Option.elim_some]

/-- What is set once has the value that it is set to. -/
theorem foldl_addTo_once {α β : Type} (field : CommandLine → Option β) (pick : Item → Option α)
    (value : α → β)
    (h : ∀ line item, field (item.addTo line) = (pick item).elim (field line) (some ∘ value))
    {items : List Item} {asked : Option α} (hasked : items.filterMap pick = asked.toList)
    (line : CommandLine) (hline : field line = none) :
    field (items.foldl Item.addTo line) = asked.map value := by
  rw [foldl_addTo field pick (fun _ => some ∘ value) h, hasked, hline]
  cases asked <;> rfl

theorem foldl_append_map {α β : Type} (f : α → β) (xss : List (List α)) (ys : List β) :
    xss.foldl (fun ys xs => ys ++ xs.map f) ys = ys ++ xss.flatten.map f := by
  induction xss generalizing ys with
  | nil => simp
  | cons xs xss ih =>
    rw [List.foldl_cons, ih, List.flatten_cons, List.map_append, List.append_assoc]

theorem foldl_raised (counts : List Nat) (v : UInt8) :
    counts.foldl raised v = raised v (counts.foldr (· + ·) 0) := by
  induction counts generalizing v with
  | nil => exact (raised_zero v).symm
  | cons count counts ih => rw [List.foldl_cons, ih, raised_raised, List.foldr_cons]

theorem Request.Arranged.foldl_addTo {r : Request} {items : List Item} (h : r.Arranged items) :
    items.foldl Item.addTo {} = r.line := by
  have hn := foldl_addTo_once CommandLine.n Item.index? id
    (fun line item => by cases item <;> rfl) h.n {} rfl
  have hmethods := CommandLine.foldl_addTo CommandLine.methods Item.methods?
    (fun ms names => ms ++ names.map Prod.snd) (fun line item => by cases item <;> rfl) items {}
  have hruns := foldl_addTo_once CommandLine.runs Item.runs? id
    (fun line item => by cases item <;> rfl) h.runs {} rfl
  have hformat := foldl_addTo_once CommandLine.format Item.format? Prod.snd
    (fun line item => by cases item <;> rfl) h.format {} rfl
  have hprecision := foldl_addTo_once CommandLine.precision Item.precision? id
    (fun line item => by cases item <;> rfl) h.precision {} rfl
  have hconfig := foldl_addTo_once CommandLine.configPath Item.config? id
    (fun line item => by cases item <;> rfl) h.config {} rfl
  have hprint := CommandLine.foldl_addTo CommandLine.printConfig Item.printConfig?
    (fun _ _ => true) (fun line item => by cases item <;> rfl) items {}
  have hverbose := CommandLine.foldl_addTo CommandLine.verbosity Item.verbose? raised
    (fun line item => by cases item <;> rfl) items {}
  have hflag : (if r.printConfig then [()] else []).foldl (fun _ _ => true) false =
      r.printConfig := by
    cases r.printConfig <;> rfl
  rw [h.methods, foldl_append_map] at hmethods
  rw [h.printConfig, hflag] at hprint
  rw [foldl_raised, h.verbose] at hverbose
  have hloud : raised 0 r.verbose = UInt8.ofNat (min r.verbose 255) := by
    rw [raised, UInt8.toNat_zero, Nat.zero_add]
  rw [hloud] at hverbose
  rw [Option.map_id] at hn hruns hprecision hconfig
  generalize items.foldl Item.addTo {} = line at *
  obtain ⟨n, methods, runs, format, precision, configPath, printConfig, verbosity⟩ := line
  simp only [List.nil_append, id_eq] at hn hmethods hruns hformat hprecision hconfig hprint hverbose
  subst hn hmethods hruns hformat hprecision hconfig hprint hverbose
  rfl

theorem Request.Arranged.once {r : Request} {items : List Item} (h : r.Arranged items) :
    Once {} items := by
  have hone : ∀ {α : Type} {values : List α} {asked : Option α}, values = asked.toList →
      false.toNat + values.length ≤ 1 := by
    rintro α _ asked rfl
    cases asked <;> simp
  refine ⟨hone h.n, hone h.runs, hone h.format, hone h.precision, hone h.config, ?_⟩
  rw [h.printConfig]
  cases r.printConfig <;> decide

theorem Request.Arranged.accepted {r : Request} {items : List Item} (h : r.Arranged items)
    (hr : r.Valid) {item : Item} (hitem : item ∈ items) : item.Accepted := by
  cases item with
  | methods names =>
    have hmem : names ∈ items.filterMap Item.methods? := List.mem_filterMap.2 ⟨_, hitem, rfl⟩
    rw [h.methods] at hmem
    exact hr.methods names hmem
  | format name =>
    have hmem : name ∈ items.filterMap Item.format? := List.mem_filterMap.2 ⟨_, hitem, rfl⟩
    rw [h.format] at hmem
    exact hr.format name (Option.mem_toList.1 hmem)
  | config path =>
    have hmem : path ∈ items.filterMap Item.config? := List.mem_filterMap.2 ⟨_, hitem, rfl⟩
    rw [h.config] at hmem
    exact hr.config path (Option.mem_toList.1 hmem)
  | _ => trivial

theorem Request.Spelled.parse {r : Request} {words : List String} (h : r.Spelled words)
    (hr : r.Valid) : CommandLine.parse words = .ok r.line := by
  obtain ⟨items, pieces, harranged, hwritten, rfl⟩ := h
  obtain ⟨last, hlast, hshows⟩ := (Progress.shows_line {}).run_items hwritten
    (fun item => harranged.accepted hr) harranged.once
  rw [harranged.foldl_addTo] at hshows
  unfold CommandLine.parse
  rw [hlast, ok_bind, show last.settle = _ from hshows]
  rfl

/-- **A line means what it asks for, in any order and spelling.** Every line that spells a valid
request is read, to exactly the values of the request: the methods of all occurrences one after
another, the verbosity up to the largest that there is, and nothing else. Two lines that spell one
request are read alike. -/
theorem parse_ignores_order_and_spelling {r : Request} (hr : r.Valid) {words : List String}
    (h : r.Spelled words) :
    ∃ line, CommandLine.parse words = .ok line ∧ line.n = r.n ∧
      line.methods = r.methods.flatten.map Prod.snd ∧ line.runs = r.runs ∧
      line.format = r.format.map Prod.snd ∧ line.precision = r.precision ∧
      line.configPath = r.config ∧ line.printConfig = r.printConfig ∧
      line.verbosity.toNat = min r.verbose 255 ∧
      ∀ words', r.Spelled words' → CommandLine.parse words' = .ok line := by
  have hloud : r.line.verbosity.toNat = min r.verbose 255 := by
    apply UInt8.toNat_ofNat_of_lt'
    unfold UInt8.size
    omega
  exact ⟨r.line, h.parse hr, rfl, rfl, rfl, rfl, rfl, rfl, rfl, hloud, fun _ h' => h'.parse hr⟩

/-- Values of all kinds, two occurrences of the methods, and switches before and after the index. -/
theorem parse_ignores_order_and_spelling_mixed :
    ∃ line, CommandLine.parse ["-vv", "07", "--method= Stack ,naive", "-f", "JSON",
        "--precision=+3", "-mITERATIVE", "-c=a=b", "--print-config", "--verbose", "-r2"] =
        .ok line ∧ line.n = some 7 ∧ line.methods = [.stack, .naive, .stack] ∧
      line.runs = some 2 ∧ line.format = some .json ∧ line.precision = some 3 ∧
      line.configPath = some "a=b" ∧ line.printConfig = true ∧ line.verbosity.toNat = 3 := by
  let r : Request := {
    n := some 7
    methods := [[(" Stack ", .stack), ("naive", .naive)], [("ITERATIVE", .stack)]]
    runs := some 2
    format := some ("JSON", .json)
    precision := some 3
    config := some "a=b"
    printConfig := true
    verbose := 3 }
  have hvalid : r.Valid := by
    refine ⟨?_, ?_, ?_⟩
    · decide
    · rintro name ⟨⟩
      decide
    · rintro path ⟨⟩
      exact ⟨'a', ['=', 'b'], by decide⟩
  have hseven : Text.IsDecimal "07" 7 := ⟨by decide, List.all_eq_true.1 (by decide), by decide⟩
  have htwo : Text.IsDecimal "2" 2 := ⟨by decide, List.all_eq_true.1 (by decide), by decide⟩
  have hthree : Text.IsDecimal "3" 3 := ⟨by decide, List.all_eq_true.1 (by decide), by decide⟩
  have hlist := @Parameter.Spelled.longEquals .method " Stack ,naive" "method" rfl
  have hformat := @Parameter.Spelled.short .format "JSON" 'f' rfl
  have hprecision := @Parameter.Spelled.longEquals .precision "+3" "precision" rfl
  have hagain := @Parameter.Spelled.shortJoined .method "ITERATIVE" 'm' rfl
  have hconfig := @Parameter.Spelled.shortEquals .config "a=b" 'c' rfl
  have hruns := @Parameter.Spelled.shortJoined .runs "2" 'r' rfl
  have hspelled : r.Spelled ["-vv", "07", "--method= Stack ,naive", "-f", "JSON", "--precision=+3",
      "-mITERATIVE", "-c=a=b", "--print-config", "--verbose", "-r2"] := by
    refine ⟨[.verbose 2, .index 7, .methods [(" Stack ", .stack), ("naive", .naive)],
        .format ("JSON", .json), .precision 3, .methods [("ITERATIVE", .stack)], .config "a=b",
        .printConfig, .verbose 1, .runs 2], _, ⟨rfl, rfl, rfl, rfl, rfl, rfl, rfl, rfl⟩,
      .cons (.inr ⟨by decide, rfl⟩) (.cons ⟨"07", hseven, rfl⟩ (.cons hlist (.cons hformat
        (.cons ⟨"+3", ⟨"3", hthree, .inr rfl⟩, hprecision⟩ (.cons hagain (.cons hconfig (.cons rfl
        (.cons (.inl ⟨rfl, rfl⟩) (.cons ⟨"2", ⟨"2", htwo, .inl rfl⟩, hruns⟩ .nil))))))))), ?_⟩
    decide
  obtain ⟨line, hparse, hn, hmethods, hruns, hformat, hprecision, hconfig, hprint, hloud, -⟩ :=
    parse_ignores_order_and_spelling hvalid hspelled
  exact ⟨line, hparse, hn, hmethods, hruns, hformat, hprecision, hconfig, hprint, hloud⟩

end Unroll.CommandLine
