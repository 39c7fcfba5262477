import Unroll.Config.Document
import Unroll.Proofs.PlainText
import Unroll.Toml.Parse

/-!
# Texts that are read as documents

What the reader of documents makes of the texts that a program writes: names without quotes
(`IsBare`), words, names in quotes and lists of them (`Renders`), lines of names and values, and
tables of such lines. Each statement about a part leaves the rest of the text open, so a document is
read line by line (`Reading.Reaches`), and a list of tables is read as it was written
(`IsDocument.parse?`).
-/

namespace Unroll

theorem SignedWord.contains_natCast {n : Nat} (hn : n < bound) : contains n = true := by
  rw [contains, Bool.and_eq_true, decide_eq_true_iff, decide_eq_true_iff]
  have hupper : (n : Int) < (bound : Int) := Int.ofNat_lt.2 hn
  have hlower : -(bound : Int) ≤ 0 := Int.neg_nonpos_of_nonneg (Int.natCast_nonneg _)
  exact ⟨Int.le_trans hlower (Int.natCast_nonneg n), hupper⟩

namespace Toml

/-! ## Names -/

/-- A name that is written without quotes. -/
def IsBare (name : String) : Prop :=
  name.toList ≠ [] ∧ ∀ c ∈ name.toList, isBareChar c

instance (name : String) : Decidable (IsBare name) :=
  @instDecidableAnd _ _ inferInstance (List.decidableBAll _ _)

theorem IsBare.exists_cons {name : String} (h : IsBare name) :
    ∃ c cs, name.toList = c :: cs ∧ isBareChar c := by
  obtain ⟨c, cs, hcs⟩ := List.exists_cons_of_ne_nil h.1
  exact ⟨c, cs, hcs, h.2 c (hcs ▸ List.mem_cons_self)⟩

theorem ne_of_isBareChar {c d : Char} (hc : isBareChar c) (hd : isBareChar d = false) : c ≠ d := by
  rintro rfl
  rw [hc] at hd
  cases hd

theorem isPrinting_of_isBareChar {c : Char} (h : isBareChar c) : isPrinting c := by
  have hall : ∀ i < 128, isBareChar (Char.ofNat i) → isPrinting (Char.ofNat i) := by decide +kernel
  by_cases hc : c.toNat < 128
  · have hascii := hall c.toNat hc
    rw [Char.ofNat_toNat] at hascii
    exact hascii h
  · have hrange : 32 ≤ c.toNat ∧ c.toNat ≠ 127 := by omega
    simp [isPrinting, hrange.1, hrange.2]

theorem readBasic?_bare {cs : List Char} (h : ∀ c ∈ cs, isBareChar c) (rest : List Char) :
    readBasic? (cs ++ '"' :: rest) = some (cs, rest) := by
  induction cs with
  | nil => rfl
  | cons c cs ih =>
    have hc := h c List.mem_cons_self
    have hescape : c ≠ '\\' := ne_of_isBareChar hc (by decide)
    rw [List.cons_append, readBasic?, ih fun d hd => h d (List.mem_cons_of_mem c hd)]
    · simp [isPrinting_of_isBareChar hc, hescape, prepend]
    · exact ne_of_isBareChar hc (by decide)
    -- the other rows are for escapes
    all_goals
      intros
      exact hescape ‹_›

theorem readValue?_quoted {name : String} (h : IsBare name) (fuel depth : Nat) (rest : List Char) :
    readValue? (fuel + 1) depth ('"' :: (name.toList ++ '"' :: rest)) = some (.str name, rest) := by
  have hstring : readString? ('"' :: (name.toList ++ '"' :: rest)) = some (name.toList, rest) := by
    obtain ⟨c, cs, hcs, hc⟩ := h.exists_cons
    rw [← readBasic?_bare h.2 rest, hcs, List.cons_append, readString?]
    intro after heq
    exact ne_of_isBareChar hc (by decide) (List.cons.inj heq).1
  rw [readValue?, hstring]
  show some (Toml.str (String.ofList name.toList), rest) = _
  rw [String.ofList_toList]

theorem skipSpaces_bare {name : String} (h : IsBare name) (rest : List Char) :
    skipSpaces (name.toList ++ rest) = name.toList ++ rest := by
  obtain ⟨c, cs, hcs, hc⟩ := h.exists_cons
  have hspace : isSpace c = false := by
    simp [isSpace, ne_of_isBareChar hc (d := ' ') (by decide),
      ne_of_isBareChar hc (d := '\t') (by decide)]
  rw [hcs, List.cons_append, skipSpaces, List.dropWhile_cons_of_neg (by rw [hspace]; decide)]

theorem readName?_bare {name : String} {after : List Char} (h : IsBare name)
    (hafter : ∀ c ∈ after.head?, isBareChar c = false) :
    readName? (name.toList ++ after) = some (name, after) := by
  have htake : (name.toList ++ after).takeWhile isBareChar = name.toList := by
    rw [List.takeWhile_append_of_pos h.2]
    cases after with
    | nil => simp
    | cons d after => simp [hafter d rfl]
  have hdrop : (name.toList ++ after).dropWhile isBareChar = after := by
    rw [List.dropWhile_append_of_pos h.2]
    cases after with
    | nil => rfl
    | cons d after => simp [hafter d rfl]
  obtain ⟨c, cs, hcs, hc⟩ := h.exists_cons
  unfold readName?
  split
  · next heq =>
    rw [hcs] at heq
    exact absurd (List.cons.inj heq).1 (ne_of_isBareChar hc (by decide))
  · next heq =>
    rw [hcs] at heq
    exact absurd (List.cons.inj heq).1 (ne_of_isBareChar hc (by decide))
  · rw [htake, hdrop]
    split
    · next hnil => exact absurd hnil h.1
    · rw [String.ofList_toList]

theorem readKey?_bare {name : String} (after : List Char) (h : IsBare name)
    (hafter : ∀ c ∈ after.head?, isBareChar c = false)
    (hpoint : ∀ rest, skipSpaces after ≠ '.' :: rest) :
    readKey? (name.toList ++ after) = some (([], name), skipSpaces after) := by
  have hnames : ∀ fuel, readNames? (fuel + 1) (name.toList ++ after) =
      some ([name], skipSpaces after) := by
    intro fuel
    rw [readNames?, skipSpaces_bare h, readName?_bare h hafter]
    simp only [Option.bind_eq_bind, Option.bind_some]
    rfl
  unfold readKey?
  rw [hnames]
  rfl

/-! ## Digits

Nothing but a decimal integer consists of digits alone. -/

section Digits

variable {ds : List Char} (h : ∀ c ∈ ds, c.isDigit)

include h

theorem ungroup?_digits (hne : ds ≠ []) : ungroup? Char.isDigit ds = some ds := by
  induction ds with
  | nil => exact absurd rfl hne
  | cons c ds ih =>
    have hc := h c List.mem_cons_self
    cases ds with
    | nil => rw [ungroup?, if_pos hc]
    | cons d ds =>
      have hrest := ih (fun x hx => h x (List.mem_cons_of_mem c hx)) (List.cons_ne_nil d ds)
      have hd : d ≠ '_' := by
        rintro rfl
        exact absurd (h '_' (List.mem_cons_of_mem c List.mem_cons_self)) (by decide)
      rw [ungroup?]
      · rw [if_pos hc, hrest]
        rfl
      · nofun
      · intro rest heq
        exact hd (List.cons.inj heq).1

theorem parseDate?_digits : parseDate? ds = none := by
  have hdate : readDate? ds = none := by
    unfold readDate?
    split
    · exact absurd (h '-' (by simp)) (by decide)
    · rfl
  have htime : readTime? ds = none := by
    unfold readTime?
    split
    · exact absurd (h ':' (by simp)) (by decide)
    · rfl
  unfold parseDate?
  rw [hdate, htime]
  rfl

theorem takeSign_digits : Double.takeSign ds = (false, ds) := by
  unfold Double.takeSign
  split
  · exact absurd (h '-' List.mem_cons_self) (by decide)
  · exact absurd (h '+' List.mem_cons_self) (by decide)
  · rfl

theorem parseSpecial?_digits : parseSpecial? ds = none := by
  unfold parseSpecial?
  rw [takeSign_digits h]
  simp only
  split
  · exact absurd (h 'i' List.mem_cons_self) (by decide)
  · exact absurd (h 'n' List.mem_cons_self) (by decide)
  · rfl

theorem parseInteger?_digits :
    parseInteger? ds = (wholeDigits? ds).bind fun ds => integer? (Nat.ofDigitChars 10 ds 0) := by
  unfold parseInteger?
  split
  · exact absurd (h 'x' (List.mem_cons_of_mem _ List.mem_cons_self)) (by decide)
  · exact absurd (h 'o' (List.mem_cons_of_mem _ List.mem_cons_self)) (by decide)
  · exact absurd (h 'b' (List.mem_cons_of_mem _ List.mem_cons_self)) (by decide)
  · rw [takeSign_digits h]
    rfl

theorem parseWord?_digits : parseWord? ds = (parseInteger? ds <|> parseFloat? ds) := by
  have htrue : ds ≠ ['t', 'r', 'u', 'e'] := by
    rintro rfl
    exact absurd (h 't' List.mem_cons_self) (by decide)
  have hfalse : ds ≠ ['f', 'a', 'l', 's', 'e'] := by
    rintro rfl
    exact absurd (h 'f' List.mem_cons_self) (by decide)
  rw [parseWord?, if_neg htrue, if_neg hfalse, parseDate?_digits h, parseNumber?,
    parseSpecial?_digits h]
  rfl

end Digits

theorem wholeDigits?_toDigits (n : Nat) :
    wholeDigits? (Nat.toDigits 10 n) = some (Nat.toDigits 10 n) := by
  unfold wholeDigits?
  split
  · next h => rw [h]
  · next ds hother h =>
    obtain rfl := Text.toDigits_of_zero h
    exact absurd rfl hother
  · exact ungroup?_digits (fun c => Text.isDigit_toDigits) Nat.toDigits_ne_nil

theorem parseWord?_toDigits {n : Nat} (hn : n < SignedWord.bound) :
    parseWord? (Nat.toDigits 10 n) = some (.int n) := by
  have hdigits : ∀ c ∈ Nat.toDigits 10 n, c.isDigit := fun c => Text.isDigit_toDigits
  rw [parseWord?_digits hdigits, parseInteger?_digits hdigits, wholeDigits?_toDigits,
    Option.bind_some, Nat.ofDigitChars_ten_toDigits, integer?,
    if_pos (SignedWord.contains_natCast hn)]
  rfl

/-! ## Words -/

section Words

variable {word : List Char} (h : ∀ c ∈ word, isWordChar c)

include h

/-- A word ends with its line. -/
theorem splitWord_word (rest : List Char) :
    splitWord (word ++ '\n' :: rest) = (word, '\n' :: rest) := by
  have htake : (word ++ '\n' :: rest).takeWhile isWordChar = word := by
    rw [List.takeWhile_append_of_pos h]
    simp [isWordChar]
  have hdrop : (word ++ '\n' :: rest).dropWhile isWordChar = '\n' :: rest := by
    rw [List.dropWhile_append_of_pos h]
    rfl
  unfold splitWord
  rw [htake, hdrop]
  simp only
  split
  · next heq => cases heq
  · rfl

theorem readValue?_word {v : Toml} (hne : word ≠ []) (hparse : parseWord? word = some v)
    (fuel depth : Nat) (rest : List Char) :
    readValue? (fuel + 1) depth (word ++ '\n' :: rest) = some (v, '\n' :: rest) := by
  have hsplit := splitWord_word h rest
  obtain ⟨c, cs, rfl⟩ := List.exists_cons_of_ne_nil hne
  have hc := h c List.mem_cons_self
  unfold readValue?
  split
  case h_5 =>
    rw [hsplit]
    simp only [hparse]
    rfl
  -- the other rows start with a mark that no word has
  all_goals
    next heq =>
    rw [(List.cons.inj heq).1] at hc
    exact absurd hc (by decide)

end Words

/-! ## Values -/

/-- A text that is read as a value if its line ends with it. -/
structure Renders (text : List Char) (v : Toml) : Prop where
  start : ∀ c ∈ text.head?, isSpace c = false
  read : ∀ (fuel : Nat) (rest : List Char), text.length < fuel →
    readValue? fuel 0 (text ++ '\n' :: rest) = some (v, '\n' :: rest)

theorem renders_word {word : List Char} {v : Toml} (h : ∀ c ∈ word, isWordChar c) (hne : word ≠ [])
    (hparse : parseWord? word = some v) : Renders word v := by
  refine ⟨?_, ?_⟩
  · intro c hc
    have hword := h c (List.mem_of_mem_head? hc)
    have hblank : c ≠ ' ' ∧ c ≠ '\t' := by
      constructor <;> rintro rfl <;> exact absurd hword (by decide)
    simp [isSpace, hblank.1, hblank.2]
  · intro fuel rest hfuel
    cases fuel with
    | zero => cases hfuel
    | succ fuel => exact readValue?_word h hne hparse fuel 0 rest

theorem renders_toString {n : Nat} (hn : n < SignedWord.bound) :
    Renders (toString n).toList (.int n) := by
  rw [Text.toList_toString]
  refine renders_word ?_ Nat.toDigits_ne_nil (parseWord?_toDigits hn)
  intro c hc
  simp [isWordChar, Char.isAlphanum, Text.isDigit_toDigits hc]

theorem renders_quoted {name : String} (h : IsBare name) :
    Renders ('"' :: (name.toList ++ ['"'])) (.str name) := by
  refine ⟨?_, ?_⟩
  · rintro c ⟨⟩
    rfl
  · intro fuel rest hfuel
    cases fuel with
    | zero => cases hfuel
    | succ fuel =>
      have hvalue := readValue?_quoted h fuel 0 ('\n' :: rest)
      simpa using hvalue

theorem renders_list {text : List Char} {items : List Toml}
    (h : ∀ (fuel : Nat) (rest : List Char), text.length ≤ fuel →
      readItems? fuel 1 (text ++ '\n' :: rest) = some (items, '\n' :: rest)) :
    Renders ('[' :: text) (.arr items) := by
  refine ⟨?_, ?_⟩
  · rintro c ⟨⟩
    rfl
  · intro fuel rest hfuel
    obtain ⟨fuel, rfl⟩ := Nat.exists_eq_add_one_of_ne_zero (Nat.ne_zero_of_lt hfuel)
    have hitems := h fuel rest (Nat.le_of_succ_le (Nat.le_of_lt_succ hfuel))
    rw [List.cons_append, readValue?, if_pos (by decide), Nat.zero_add, hitems]
    rfl

/-! ## Lists of names -/

/-- The line of a name in a list that has a line for each. -/
def itemLine (name : String) : List Char :=
  "    \"".toList ++ name.toList ++ "\",\n".toList

theorem toList_tomlNames {names : List String} (h : 2 ≤ names.length) :
    (tomlNames names).toList = '[' :: '\n' :: (names.flatMap itemLine ++ [']']) := by
  have hjoin : (String.join (names.map fun name => "    \"" ++ name ++ "\",\n")).toList =
      names.flatMap itemLine := by
    rw [String.toList_join, List.flatMap_map]
    simp only [String.toList_append]
    rfl
  unfold tomlNames
  split
  · simp at h
  · simp at h
  · rw [String.toList_append, String.toList_append, hjoin]
    rfl

theorem length_le_flatMap (names : List String) :
    names.length ≤ (names.flatMap itemLine).length := by
  induction names with
  | nil => exact Nat.le_refl 0
  | cons name names ih =>
    have hline : 0 < (itemLine name).length := by simp [itemLine]
    rw [List.flatMap_cons, List.length_append, List.length_cons]
    omega

theorem readItems?_single {name : String} (h : IsBare name) (fuel depth : Nat) (rest : List Char) :
    readItems? (fuel + 2) depth ('"' :: (name.toList ++ '"' :: ']' :: rest)) =
      some ([.str name], rest) := by
  have hquote : ∀ cs, skipLines? (('"' :: cs).length + 1) ('"' :: cs) = some ('"' :: cs) :=
    fun _ => rfl
  have hbracket : skipLines? ((']' :: rest).length + 1) (']' :: rest) = some (']' :: rest) := rfl
  rw [readItems?, hquote]
  show (readValue? (fuel + 1) depth ('"' :: (name.toList ++ '"' :: ']' :: rest)) >>= _) = _
  simp only [readValue?_quoted h, Option.bind_eq_bind, Option.bind_some, hbracket]
  rfl

theorem readItems?_line {name : String} (h : IsBare name) (fuel depth : Nat) (rest : List Char) :
    readItems? (fuel + 2) depth ('\n' :: (itemLine name ++ rest)) =
      (readItems? (fuel + 1) depth ('\n' :: rest)).map
        fun (items, rest) => (.str name :: items, rest) := by
  have hindent : ∀ cs, skipLines? (("\n    \"".toList ++ cs).length + 1) ("\n    \"".toList ++ cs) =
      some ('"' :: cs) :=
    fun _ => rfl
  have hcomma : ∀ cs, skipLines? ((',' :: cs).length + 1) (',' :: cs) = some (',' :: cs) :=
    fun _ => rfl
  have hline : '\n' :: (itemLine name ++ rest) =
      "\n    \"".toList ++ (name.toList ++ '"' :: ',' :: '\n' :: rest) := by
    simp [itemLine]
  rw [readItems?, hline, hindent]
  show (readValue? (fuel + 1) depth ('"' :: (name.toList ++ '"' :: ',' :: '\n' :: rest)) >>= _) = _
  simp only [readValue?_quoted h, Option.bind_eq_bind, Option.bind_some, hcomma]
  cases readItems? (fuel + 1) depth ('\n' :: rest) <;> rfl

theorem readItems?_lines {names : List String} (h : ∀ name ∈ names, IsBare name)
    (fuel depth : Nat) (rest : List Char) :
    readItems? (fuel + names.length + 1) depth ('\n' :: (names.flatMap itemLine ++ ']' :: rest)) =
      some (names.map .str, rest) := by
  induction names with
  | nil => rfl
  | cons name names ih =>
    have hrest := ih fun name hname => h name (List.mem_cons_of_mem _ hname)
    have hname := readItems?_line (h name List.mem_cons_self) (fuel + names.length) depth
      (names.flatMap itemLine ++ ']' :: rest)
    rw [hrest] at hname
    rw [List.flatMap_cons, List.append_assoc]
    exact hname

theorem renders_names {names : List String} (h : ∀ name ∈ names, IsBare name) :
    Renders (tomlNames names).toList (.arr (names.map .str)) := by
  match names, h with
  | [], _ =>
    show Renders ('[' :: [']']) _
    apply renders_list
    intro fuel rest hfuel
    obtain ⟨fuel, rfl⟩ := Nat.exists_eq_add_of_le' hfuel
    rfl
  | [name], h =>
    have htext : (tomlNames [name]).toList = '[' :: '"' :: (name.toList ++ ['"', ']']) := by
      rw [tomlNames, String.toList_append, String.toList_append]
      rfl
    rw [htext]
    apply renders_list
    intro fuel rest hfuel
    have hle : 2 ≤ fuel := by
      simp only [List.length_cons, List.length_append] at hfuel
      omega
    obtain ⟨fuel, rfl⟩ := Nat.exists_eq_add_of_le' hle
    have hitems := readItems?_single (h name List.mem_cons_self) fuel 1 ('\n' :: rest)
    simpa using hitems
  | first :: second :: names, h =>
    have htwo : 2 ≤ (first :: second :: names).length := Nat.le_add_left 2 names.length
    generalize first :: second :: names = names at h htwo
    rw [toList_tomlNames htwo]
    apply renders_list
    intro fuel rest hfuel
    have hle : names.length + 1 ≤ fuel := by
      have hlength := length_le_flatMap names
      rw [List.length_cons, List.length_append] at hfuel
      omega
    obtain ⟨fuel, rfl⟩ := Nat.exists_eq_add_of_le' hle
    have hitems := readItems?_lines h fuel 1 ('\n' :: rest)
    rw [List.cons_append, List.append_assoc]
    exact hitems

/-! ## Tables -/

namespace Entries

theorem alter?_of_notMem {entries : Entries} {name : String} (f : Option Draft → Option Draft)
    (h : name ∉ entries.map Prod.fst) :
    entries.alter? name f = (f none).map fun entry => entries ++ [(name, entry)] := by
  induction entries with
  | nil =>
    rw [alter?]
    cases f none <;> rfl
  | cons e entries ih =>
    obtain ⟨other, entry⟩ := e
    rw [List.map_cons, List.mem_cons, not_or] at h
    rw [alter?, if_neg (Ne.symm h.1), ih h.2]
    cases f none <;> rfl

theorem alter?_last {entries : Entries} {name : String} (f : Option Draft → Option Draft)
    (h : name ∉ entries.map Prod.fst) (entry : Draft) :
    alter? name f (entries ++ [(name, entry)]) =
      (f (some entry)).map fun entry => entries ++ [(name, entry)] := by
  induction entries with
  | nil =>
    rw [List.nil_append, alter?, if_pos rfl]
    cases f (some entry) <;> rfl
  | cons e entries ih =>
    obtain ⟨other, old⟩ := e
    rw [List.map_cons, List.mem_cons, not_or] at h
    rw [List.cons_append, alter?, if_neg (Ne.symm h.1), ih h.2]
    cases f (some entry) <;> rfl

theorem openTable?_of_notMem {entries : Entries} {name : String}
    (h : name ∉ entries.map Prod.fst) :
    entries.openTable? name = some (entries ++ [(name, .table .opened [])]) := by
  have hlookup : entries.lookup name = none := by
    rw [List.lookup_eq_none_iff]
    intro e he
    simp only [bne_iff_ne, ne_eq]
    rintro rfl
    exact h (List.mem_map_of_mem he)
  unfold openTable?
  rw [hlookup]

/-- A pair goes to the end of the table that was opened last. -/
theorem within?_insert {entries inner : Entries} {table name : String} (v : Toml)
    (htable : table ∉ entries.map Prod.fst) (hname : name ∉ inner.map Prod.fst) :
    within? (insertDotted? name v []) [table] (entries ++ [(table, .table .opened inner)]) =
      some (entries ++ [(table, .table .opened (inner ++ [(name, .value v)]))]) := by
  rw [within?, alter?_last _ htable]
  simp only [within?, insertDotted?, insertNew?, alter?_of_notMem _ hname]
  rfl

end Entries

/-! ## Lines -/

/-- A name and its value, with the text that is written for the value. -/
structure Pair where
  name : String
  text : List Char
  value : Toml

namespace Pair

def line (p : Pair) : List Char :=
  p.name.toList ++ ' ' :: '=' :: ' ' :: (p.text ++ ['\n'])

/-- The text is one for the value, and the name needs no quotes. -/
structure IsWritten (p : Pair) : Prop where
  bare : IsBare p.name
  renders : Renders p.text p.value
  /-- No table in the value stands for a date. -/
  resolves : resolve? p.value = some p.value

end Pair

/-- The table of a name. -/
def tableLines (name : String) (pairs : List Pair) : List Char :=
  '[' :: (name.toList ++ ']' :: '\n' :: pairs.flatMap Pair.line)

theorem readPair?_line {p : Pair} (hp : p.IsWritten) (doc : Reading) (rest : List Char) :
    readPair? doc (p.line ++ rest) =
      (doc.root.within? (Entries.insertDotted? p.name p.value []) doc.current).map
        fun root => (⟨root, doc.current⟩, rest) := by
  have hkey := readKey?_bare (' ' :: '=' :: ' ' :: (p.text ++ '\n' :: rest)) hp.bare
    (by rintro c ⟨⟩; rfl) nofun
  have hblank : skipSpaces (' ' :: (p.text ++ '\n' :: rest)) = p.text ++ '\n' :: rest := by
    show skipSpaces (p.text ++ '\n' :: rest) = _
    have hstart := hp.renders.start
    cases htext : p.text with
    | nil => rfl
    | cons c cs =>
      rw [htext] at hstart
      exact List.dropWhile_cons_of_neg (by rw [hstart c rfl]; decide)
  have hvalue := hp.renders.read (2 * (' ' :: (p.text ++ '\n' :: rest)).length + 2) rest (by
    simp only [List.length_cons, List.length_append]
    omega)
  have hline : p.line ++ rest =
      p.name.toList ++ ' ' :: '=' :: ' ' :: (p.text ++ '\n' :: rest) := by
    simp [Pair.line]
  unfold readPair?
  rw [hline, hkey]
  show (readValue? _ 0 (skipSpaces (' ' :: (p.text ++ '\n' :: rest))) >>= _) = _
  rw [hblank, hvalue]
  show (Entries.within? _ _ _ >>= _) = _
  cases doc.root.within? (Entries.insertDotted? p.name p.value []) doc.current <;> rfl

theorem readHeader?_line {name : String} (h : IsBare name) (doc : Reading) (rest : List Char) :
    readHeader? doc (name.toList ++ ']' :: '\n' :: rest) =
      (doc.root.openTable? name).map fun root => (⟨root, [name]⟩, rest) := by
  have hkey := readKey?_bare (']' :: '\n' :: rest) h (by rintro c ⟨⟩; rfl) nofun
  unfold readHeader?
  rw [hkey]
  show (doc.root.openTable? name >>= _) = _
  cases doc.root.openTable? name <;> rfl

theorem readLines?_bracket {c : Char} (hc : c ≠ '[') (fuel : Nat) (doc : Reading)
    (cs : List Char) :
    readLines? (fuel + 1) doc ('[' :: c :: cs) =
      readHeader? doc (c :: cs) >>= fun (doc, rest) => readLines? fuel doc rest := by
  have hspaces : skipSpaces ('[' :: c :: cs) = '[' :: c :: cs := rfl
  rw [readLines?, hspaces]
  split
  case h_5 heq =>
    cases heq
    exact absurd rfl hc
  case h_6 heq =>
    cases heq
    rfl
  case h_7 hbracket => exact absurd rfl (hbracket _)
  all_goals
    next heq => cases heq

theorem readLines?_name {name : String} (h : IsBare name) (fuel : Nat) (doc : Reading)
    (cs : List Char) :
    readLines? (fuel + 1) doc (name.toList ++ cs) =
      readPair? doc (name.toList ++ cs) >>= fun (doc, rest) => readLines? fuel doc rest := by
  obtain ⟨c, cs', hcs, hc⟩ := h.exists_cons
  rw [readLines?, skipSpaces_bare h, hcs, List.cons_append]
  split
  case h_1 heq => cases heq
  case h_7 => rfl
  all_goals
    next heq => exact absurd (List.cons.inj heq).1 (ne_of_isBareChar hc (by decide))

namespace Reading

/-- Reading some lines leads from one document to another and leaves the rest of the text. -/
def Reaches (doc : Reading) (cs : List Char) (next : Reading) (rest : List Char) : Prop :=
  ∀ fuel, cs.length < fuel →
    ∃ fuel', rest.length < fuel' ∧ readLines? fuel doc cs = readLines? fuel' next rest

theorem Reaches.refl (doc : Reading) (cs : List Char) : doc.Reaches cs doc cs :=
  fun fuel hfuel => ⟨fuel, hfuel, rfl⟩

theorem Reaches.trans {doc next last : Reading} {cs rest rest' : List Char}
    (h : doc.Reaches cs next rest) (h' : next.Reaches rest last rest') :
    doc.Reaches cs last rest' := by
  intro fuel hfuel
  obtain ⟨fuel', hfuel', heq⟩ := h fuel hfuel
  obtain ⟨fuel'', hfuel'', heq'⟩ := h' fuel' hfuel'
  exact ⟨fuel'', hfuel'', heq.trans heq'⟩

/-- A line that is read by one step. -/
theorem Reaches.of_step {doc next : Reading} {cs rest : List Char}
    (hlength : rest.length < cs.length)
    (h : ∀ fuel, readLines? (fuel + 1) doc cs = readLines? fuel next rest) :
    doc.Reaches cs next rest := by
  intro fuel hfuel
  obtain ⟨fuel, rfl⟩ := Nat.exists_eq_add_one_of_ne_zero (Nat.ne_zero_of_lt hfuel)
  exact ⟨fuel, Nat.lt_of_lt_of_le hlength (Nat.le_of_lt_succ hfuel), h fuel⟩

theorem reaches_newline (doc : Reading) (rest : List Char) : doc.Reaches ('\n' :: rest) doc rest :=
  .of_step (Nat.lt_succ_self _) fun _ => rfl

theorem reaches_header {doc : Reading} {name : String} (h : IsBare name)
    (hname : name ∉ doc.root.map Prod.fst) (rest : List Char) :
    doc.Reaches ('[' :: (name.toList ++ ']' :: '\n' :: rest))
      ⟨doc.root ++ [(name, .table .opened [])], [name]⟩ rest := by
  apply Reaches.of_step
  · simp only [List.length_cons, List.length_append]
    omega
  · intro fuel
    have hheader := readHeader?_line h doc rest
    rw [Entries.openTable?_of_notMem hname] at hheader
    obtain ⟨c, cs, hcs, hc⟩ := h.exists_cons
    rw [hcs, List.cons_append] at hheader ⊢
    rw [readLines?_bracket (ne_of_isBareChar hc (by decide)), hheader]
    rfl

theorem reaches_pair {root inner : Entries} {table : String} {p : Pair} (hp : p.IsWritten)
    (htable : table ∉ root.map Prod.fst) (hname : p.name ∉ inner.map Prod.fst)
    (rest : List Char) :
    Reaches ⟨root ++ [(table, .table .opened inner)], [table]⟩ (p.line ++ rest)
      ⟨root ++ [(table, .table .opened (inner ++ [(p.name, .value p.value)]))], [table]⟩ rest := by
  apply Reaches.of_step
  · simp only [Pair.line, List.length_append, List.length_cons]
    omega
  · intro fuel
    have hpair := readPair?_line hp ⟨root ++ [(table, .table .opened inner)], [table]⟩ rest
    rw [Entries.within?_insert p.value htable hname] at hpair
    rw [Pair.line, List.append_assoc] at hpair ⊢
    rw [readLines?_name hp.bare, hpair]
    rfl

theorem reaches_pairs {root : Entries} {table : String} {pairs : List Pair}
    (hpairs : ∀ p ∈ pairs, p.IsWritten) (htable : table ∉ root.map Prod.fst) (inner : Entries)
    (hnames : (inner.map Prod.fst ++ pairs.map Pair.name).Nodup) (rest : List Char) :
    Reaches ⟨root ++ [(table, .table .opened inner)], [table]⟩ (pairs.flatMap Pair.line ++ rest)
      ⟨root ++ [(table, .table .opened (inner ++ pairs.map fun p => (p.name, .value p.value)))],
        [table]⟩ rest := by
  induction pairs generalizing inner with
  | nil =>
    rw [List.map_nil, List.append_nil]
    exact .refl _ _
  | cons p pairs ih =>
    have hname : p.name ∉ inner.map Prod.fst := by
      intro hmem
      exact (List.nodup_append.1 hnames).2.2 _ hmem _ List.mem_cons_self rfl
    have hrest := ih (fun q hq => hpairs q (List.mem_cons_of_mem p hq))
      (inner ++ [(p.name, .value p.value)]) (by simpa using hnames)
    rw [List.append_assoc] at hrest
    rw [List.flatMap_cons, List.append_assoc]
    exact (reaches_pair (hpairs p List.mem_cons_self) htable hname _).trans hrest

/-- A table is added at the end of the document. -/
theorem reaches_table {doc : Reading} {name : String} {pairs : List Pair} (h : IsBare name)
    (hpairs : ∀ p ∈ pairs, p.IsWritten) (hname : name ∉ doc.root.map Prod.fst)
    (hnames : (pairs.map Pair.name).Nodup) (rest : List Char) :
    doc.Reaches (tableLines name pairs ++ rest)
      ⟨doc.root ++ [(name, .table .opened (pairs.map fun p => (p.name, .value p.value)))], [name]⟩
      rest := by
  have hlines := reaches_pairs hpairs hname [] (by simpa using hnames) rest
  have hheader := reaches_header h hname (pairs.flatMap Pair.line ++ rest)
  rw [tableLines, List.cons_append, List.append_assoc]
  exact hheader.trans hlines

theorem Reaches.readLines? {doc next : Reading} {cs : List Char} (h : doc.Reaches cs next []) :
    readLines? (cs.length + 1) doc cs = some next.root := by
  obtain ⟨fuel, hfuel, heq⟩ := h _ (Nat.lt_succ_self _)
  obtain ⟨fuel, rfl⟩ := Nat.exists_eq_add_one_of_ne_zero (Nat.ne_zero_of_lt hfuel)
  exact heq

end Reading

/-! ## Documents -/

/-- A table under construction that holds the given pairs. -/
def tableDraft (t : String × List Pair) : String × Draft :=
  (t.1, .table .opened (t.2.map fun p => (p.name, .value p.value)))

/-- The tables with an empty line between them. -/
def documentLines (tables : List (String × List Pair)) : List Char :=
  ['\n'].intercalate (tables.map fun t => tableLines t.1 t.2)

structure IsDocument (tables : List (String × List Pair)) : Prop where
  bare : ∀ t ∈ tables, IsBare t.1
  nodup : (tables.map Prod.fst).Nodup
  written : ∀ t ∈ tables, ∀ p ∈ t.2, p.IsWritten
  nodup_pairs : ∀ t ∈ tables, (t.2.map Pair.name).Nodup

theorem IsDocument.single {name : String} {pairs : List Pair} (hbare : IsBare name)
    (hwritten : ∀ p ∈ pairs, p.IsWritten) (hnodup : (pairs.map Pair.name).Nodup) :
    IsDocument [(name, pairs)] :=
  ⟨List.forall_mem_singleton.2 hbare, List.pairwise_singleton _ _,
    List.forall_mem_singleton.2 hwritten, List.forall_mem_singleton.2 hnodup⟩

theorem Reading.reaches_tables {tables : List (String × List Pair)} (h : IsDocument tables)
    (doc : Reading) (hnew : ∀ t ∈ tables, t.1 ∉ doc.root.map Prod.fst) :
    ∃ current, doc.Reaches (documentLines tables)
      ⟨doc.root ++ tables.map tableDraft, current⟩ [] := by
  induction tables generalizing doc with
  | nil =>
    refine ⟨doc.current, ?_⟩
    rw [List.map_nil, List.append_nil]
    exact .refl _ _
  | cons t tables ih =>
    have hmem := List.mem_cons_self (a := t) (l := tables)
    have htable := reaches_table (h.bare t hmem) (h.written t hmem) (hnew t hmem)
      (h.nodup_pairs t hmem)
    cases tables with
    | nil =>
      refine ⟨[t.1], ?_⟩
      rw [documentLines, List.map_singleton, List.intercalate_singleton, ← List.append_nil
        (tableLines t.1 t.2)]
      exact htable []
    | cons next tables =>
      have hnodup := h.nodup
      rw [List.map_cons, List.nodup_cons] at hnodup
      have hrest : IsDocument (next :: tables) :=
        ⟨fun u hu => h.bare u (List.mem_cons_of_mem t hu), hnodup.2,
          fun u hu => h.written u (List.mem_cons_of_mem t hu),
          fun u hu => h.nodup_pairs u (List.mem_cons_of_mem t hu)⟩
      have hnew' : ∀ u ∈ next :: tables, u.1 ∉ (doc.root ++ [tableDraft t]).map Prod.fst := by
        intro u hu
        rw [List.map_append, List.mem_append, not_or]
        refine ⟨hnew u (List.mem_cons_of_mem t hu), ?_⟩
        intro hsame
        rw [List.map_singleton, List.mem_singleton] at hsame
        exact hnodup.1 (hsame ▸ List.mem_map_of_mem hu)
      obtain ⟨current, hreaches⟩ := ih hrest ⟨doc.root ++ [tableDraft t], [t.1]⟩ hnew'
      rw [List.append_assoc] at hreaches
      refine ⟨current, ?_⟩
      rw [documentLines, List.map_cons, List.map_cons, List.intercalate_cons_cons,
        List.append_assoc]
      exact (htable _).trans ((reaches_newline _ _).trans hreaches)

theorem finishEntries_pairs (pairs : List Pair) :
    finishEntries (pairs.map fun p => (p.name, .value p.value)) =
      pairs.map fun p => (p.name, p.value) := by
  induction pairs with
  | nil => rw [List.map_nil, finishEntries, List.map_nil]
  | cons p pairs ih => rw [List.map_cons, finishEntries, Draft.finish, ih, List.map_cons]

theorem finishEntries_tables (tables : List (String × List Pair)) :
    finishEntries (tables.map tableDraft) =
      tables.map fun t => (t.1, .table (t.2.map fun p => (p.name, p.value))) := by
  induction tables with
  | nil => rw [List.map_nil, finishEntries, List.map_nil]
  | cons t tables ih =>
    rw [List.map_cons, tableDraft, finishEntries, Draft.finish, finishEntries_pairs, ih,
      List.map_cons]

theorem resolveItems?_self {items : List Toml} (h : ∀ v ∈ items, resolve? v = some v) :
    resolveItems? items = some items := by
  induction items with
  | nil => rw [resolveItems?]
  | cons v items ih =>
    rw [resolveItems?, h v List.mem_cons_self, ih fun w hw => h w (List.mem_cons_of_mem v hw)]
    rfl

theorem resolveEntries?_self {entries : List (String × Toml)}
    (h : ∀ e ∈ entries, resolve? e.2 = some e.2) : resolveEntries? entries = some entries := by
  induction entries with
  | nil => rw [resolveEntries?]
  | cons e entries ih =>
    rw [resolveEntries?, h e List.mem_cons_self, ih fun d hd => h d (List.mem_cons_of_mem e hd)]
    rfl

/-- A table with a name that needs no quotes stands for no date. -/
theorem resolve?_table {entries : List (String × Toml)} (hbare : ∀ e ∈ entries, IsBare e.1)
    (h : ∀ e ∈ entries, resolve? e.2 = some e.2) :
    resolve? (.table entries) = some (.table entries) := by
  cases entries with
  | nil => rw [resolve?]
  | cons e entries =>
    have hdate : e.1 ≠ dateName := by
      intro heq
      have hdate := hbare e List.mem_cons_self
      rw [heq] at hdate
      exact absurd hdate (by decide)
    rw [resolve?, if_neg hdate, h e List.mem_cons_self,
      resolveEntries?_self fun d hd => h d (List.mem_cons_of_mem e hd)]
    rfl

theorem dropMark_documentLines (tables : List (String × List Pair)) :
    dropMark (documentLines tables) = documentLines tables := by
  match tables with
  | [] => rfl
  | [t] =>
    rw [documentLines, List.map_singleton, List.intercalate_singleton]
    rfl
  | t :: next :: tables =>
    rw [documentLines, List.map_cons, List.map_cons, List.intercalate_cons_cons]
    rfl

/-- Tables of written pairs are read as they are. -/
theorem IsDocument.parse? {tables : List (String × List Pair)} (h : IsDocument tables) :
    Toml.parse? (String.ofList (documentLines tables)) =
      some (tables.map fun t => (t.1, .table (t.2.map fun p => (p.name, p.value)))) := by
  obtain ⟨current, hreaches⟩ := Reading.reaches_tables h ⟨[], []⟩ fun _ _ => List.not_mem_nil
  have hlines := hreaches.readLines?
  have hresolve : resolve? (.table (tables.map fun t =>
      (t.1, .table (t.2.map fun p => (p.name, p.value))))) =
      some (.table (tables.map fun t => (t.1, .table (t.2.map fun p => (p.name, p.value))))) := by
    apply resolve?_table
    · intro e he
      obtain ⟨t, ht, rfl⟩ := List.mem_map.1 he
      exact h.bare t ht
    · intro e he
      obtain ⟨t, ht, rfl⟩ := List.mem_map.1 he
      apply resolve?_table
      · intro e he
        obtain ⟨p, hp, rfl⟩ := List.mem_map.1 he
        exact (h.written t ht p hp).bare
      · intro e he
        obtain ⟨p, hp, rfl⟩ := List.mem_map.1 he
        exact (h.written t ht p hp).resolves
  unfold Toml.parse?
  simp only [String.toList_ofList, dropMark_documentLines, hlines, Option.bind_eq_bind,
    Option.bind_some, List.nil_append, finishEntries_tables, hresolve]

end Toml

end Unroll
