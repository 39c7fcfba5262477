import Mathlib.Data.List.DropRight
import Unroll.Proofs.Names

/-!
# Which texts are names

A text is read as a name if it is the name in any case of its letters, with white space around it
(`Text.Spells`), and as nothing else. Two facts carry this: trimming gives the one part of a text
that has white space around it and none at its own ends (`Text.trim_eq_iff`), and folding ASCII case
gives a name only for the letters of that name (`Text.asciiLower_eq_iff`). So the grammar leaves one
name at most for a text, and no text with any other character in it.
-/

namespace Unroll

namespace Text

/-! ## White space -/

/-- The characters with the property `White_Space`. -/
def IsWhiteSpace (c : Char) : Prop :=
  (0x9 ≤ c.toNat ∧ c.toNat ≤ 0xD) ∨ c.toNat = 0x20 ∨ c.toNat = 0x85 ∨ c.toNat = 0xA0 ∨
    c.toNat = 0x1680 ∨ (0x2000 ≤ c.toNat ∧ c.toNat ≤ 0x200A) ∨ c.toNat = 0x2028 ∨
    c.toNat = 0x2029 ∨ c.toNat = 0x202F ∨ c.toNat = 0x205F ∨ c.toNat = 0x3000

theorem CharClass.holdsAt_nil {code : Nat} : holdsAt code false [] = true ↔ False := by
  rw [holdsAt, Bool.false_eq_true]

theorem CharClass.holdsAt_cons_cons {code a b : Nat} {rest : List Nat} :
    holdsAt code false (a :: b :: rest) = true ↔
      a ≤ code ∧ (code < b ∨ holdsAt code false rest = true) := by
  rw [holdsAt, holdsAt]
  split
  · simp only [Bool.false_eq_true, false_iff]
    omega
  · split
    · simp only [Bool.not_false, true_iff]
      omega
    · simp only [Bool.not_false, Bool.not_true]
      grind

theorem isBlank_iff {c : Char} : isBlank c ↔ IsWhiteSpace c := by
  unfold IsWhiteSpace isBlank CharClass.contains blank
  generalize c.toNat = code
  simp only [CharClass.holdsAt_cons_cons, CharClass.holdsAt_nil, or_false]
  omega

/-- What is left of a text without the white space at its two ends. -/
structure TrimsTo (s t : String) : Prop where
  around : ∃ front back, s = front ++ t ++ back ∧ (∀ c ∈ front.toList, IsWhiteSpace c) ∧
    ∀ c ∈ back.toList, IsWhiteSpace c
  first : ∀ c ∈ t.toList.head?, ¬ IsWhiteSpace c
  last : ∀ c ∈ t.toList.getLast?, ¬ IsWhiteSpace c

/-- Trimming leaves no white space at the ends. -/
theorem not_isBlank_trimChars {cs : List Char} {c : Char}
    (h : c ∈ (trimChars cs).head? ∨ c ∈ (trimChars cs).getLast?) : ¬ isBlank c := by
  have hends : trimChars cs = (cs.dropWhile isBlank).rdropWhile isBlank := rfl
  rw [hends] at h
  have hne : (cs.dropWhile isBlank).rdropWhile isBlank ≠ [] := by
    rintro hnil
    simp [hnil] at h
  rw [List.head?_eq_some_head hne, List.getLast?_eq_some_getLast hne, Option.mem_some_iff,
    Option.mem_some_iff] at h
  rcases h with rfl | rfl
  · -- what is taken away at the end leaves the first character
    rw [(List.rdropWhile_prefix isBlank _).head hne]
    exact Bool.eq_false_iff.1 (List.head_dropWhile_not isBlank _)
  · exact List.rdropWhile_last_not _ _ hne

theorem trimsTo_trim (s : String) : TrimsTo s (trim s) := by
  obtain ⟨front, back, hfront, hback, heq⟩ := exists_trimChars s.toList
  have htrim : (trim s).toList = trimChars s.toList := String.toList_ofList
  refine ⟨⟨String.ofList front, String.ofList back, ?_, ?_, ?_⟩, ?_, ?_⟩
  · rw [← String.toList_inj]
    simpa [htrim] using heq
  · simpa [isBlank_iff] using hfront
  · simpa [isBlank_iff] using hback
  · intro c hc
    rw [htrim] at hc
    exact mt isBlank_iff.2 (not_isBlank_trimChars (.inl hc))
  · intro c hc
    rw [htrim] at hc
    exact mt isBlank_iff.2 (not_isBlank_trimChars (.inr hc))

/-- White space at the ends is taken away, down to characters that are none. -/
theorem trimChars_padded {front cs back : List Char} (hfront : ∀ c ∈ front, isBlank c)
    (hback : ∀ c ∈ back, isBlank c) (hfirst : ∀ c ∈ cs.head?, ¬ isBlank c)
    (hlast : ∀ c ∈ cs.getLast?, ¬ isBlank c) : trimChars (front ++ cs ++ back) = cs := by
  have hreverse : ∀ c ∈ back.reverse, isBlank c := by simpa using hback
  cases cs with
  | nil =>
    have hall : (front ++ [] ++ back).dropWhile isBlank = [] := by
      rw [List.dropWhile_eq_nil_iff]
      simpa [or_imp, forall_and] using ⟨hfront, hback⟩
    rw [trimChars, hall]
    rfl
  | cons c cs =>
    have hkept : (c :: cs).rdropWhile isBlank = c :: cs := by
      rw [List.rdropWhile_eq_self_iff]
      intro hne
      exact hlast _ (List.getLast?_eq_some_getLast hne)
    rw [trimChars, List.append_assoc, List.dropWhile_append_of_pos hfront, List.cons_append,
      List.dropWhile_cons_of_neg (hfirst c rfl), ← List.cons_append, List.reverse_append,
      List.dropWhile_append_of_pos hreverse]
    exact hkept

theorem TrimsTo.trim_eq {s t : String} (h : TrimsTo s t) : trim s = t := by
  obtain ⟨⟨front, back, rfl, hfront, hback⟩, hfirst, hlast⟩ := h
  simp only [← isBlank_iff] at hfront hback hfirst hlast
  rw [trim, String.toList_append, String.toList_append,
    trimChars_padded hfront hback hfirst hlast, String.ofList_toList]

/-- Trimming gives the part of a text that has white space around it and none at its own ends. -/
theorem trim_eq_iff {s t : String} : trim s = t ↔ TrimsTo s t :=
  ⟨fun h => h ▸ trimsTo_trim s, TrimsTo.trim_eq⟩

/-! ## Letters -/

/-- Folding ASCII case changes at most the case of a letter. -/
theorem eq_toLower_or_eq_toUpper (c : Char) : c = c.toLower ∨ c = c.toLower.toUpper := by
  have hall : ∀ i < 128, (Char.ofNat i).isUpper →
      Char.ofNat i = (Char.ofNat i).toLower.toUpper := by
    decide +kernel
  by_cases hupper : c.isUpper
  · have hle := toNat_of_isUpper hupper
    have hc := hall c.toNat (by omega)
    rw [Char.ofNat_toNat] at hc
    exact .inr (hc hupper)
  · left
    symm
    exact dif_neg fun hrange => hupper (decide_eq_true hrange)

/-- Folding ASCII case gives a name only for the letters of the name, in any case. -/
theorem asciiLower_eq_iff {text name : String} (hname : ∀ d ∈ name.toList, d.isLower) :
    asciiLower text = name ↔ Recased text name := by
  constructor
  · rintro rfl
    rw [Recased, asciiLower, String.toList_ofList, List.forall₂_map_right_iff, List.forall₂_same]
    exact fun c _ => eq_toLower_or_eq_toUpper c
  · intro h
    rw [asciiLower, (h.letters hname).2, String.ofList_toList]

/-! ## Names with white space around them -/

/-- A text that is a name but for white space around it and the ASCII case of its letters. -/
def Spells (s name : String) : Prop :=
  ∃ front word back, s = front ++ word ++ back ∧ (∀ c ∈ front.toList, IsWhiteSpace c) ∧
    (∀ c ∈ back.toList, IsWhiteSpace c) ∧ Recased word name

theorem spells_iff {s name : String} (hname : ∀ d ∈ name.toList, d.isLower) :
    Spells s name ↔ asciiLower (trim s) = name := by
  constructor
  · rintro ⟨front, word, back, hs, hfront, hback, hword⟩
    have hletters := (hword.letters hname).1
    have hnot : ∀ c ∈ word.toList, ¬ IsWhiteSpace c := by
      intro c hc
      exact mt isBlank_iff.2 (of_isAlpha (hletters c hc)).2.1
    have htrims : TrimsTo s word := by
      refine ⟨⟨front, back, hs, hfront, hback⟩, ?_, ?_⟩
      · exact fun c hc => hnot c (List.mem_of_mem_head? hc)
      · exact fun c hc => hnot c (List.mem_of_mem_getLast? hc)
    rw [htrims.trim_eq]
    exact (asciiLower_eq_iff hname).2 hword
  · intro h
    obtain ⟨front, back, hs, hfront, hback⟩ := (trimsTo_trim s).around
    exact ⟨front, trim s, back, hs, hfront, hback, (asciiLower_eq_iff hname).1 h⟩

theorem Spells.ascii_or_whiteSpace {s name : String} (hname : ∀ d ∈ name.toList, d.isLower)
    (h : Spells s name) {c : Char} (hc : c ∈ s.toList) : c.toNat < 128 ∨ IsWhiteSpace c := by
  obtain ⟨front, word, back, rfl, hfront, hback, hword⟩ := h
  rw [String.toList_append, String.toList_append, List.mem_append, List.mem_append] at hc
  rcases hc with (hc | hc) | hc
  · exact .inr (hfront c hc)
  · exact .inl (of_isAlpha ((hword.letters hname).1 c hc)).1
  · exact .inr (hback c hc)

end Text

namespace Method

theorem isLower_of_mem_names {m : Method} {name : String} (h : name ∈ m.names) :
    ∀ d ∈ name.toList, d.isLower := by
  have hall : m.names.all fun name => name.toList.all Char.isLower := by
    cases m <;> decide
  exact List.all_eq_true.1 (List.all_eq_true.1 hall name h)

theorem name_mem_names (m : Method) : m.name ∈ m.names := by
  cases m <;> decide

/-- A text that is one of the names of a method, as it may be typed. -/
def Spelled (m : Method) (s : String) : Prop :=
  ∃ name ∈ m.names, Text.Spells s name

theorem spelled_iff {m : Method} {s : String} : m.Spelled s ↔ parse s = .ok m := by
  rw [parse_eq_ok_iff]
  constructor
  · rintro ⟨name, hname, h⟩
    rwa [(Text.spells_iff (isLower_of_mem_names hname)).1 h]
  · intro h
    exact ⟨_, h, (Text.spells_iff (isLower_of_mem_names h)).2 rfl⟩

theorem parse_eq_error_iff {s : String} {e : UnknownMethod} :
    parse s = .error e ↔ e = ⟨s⟩ ∧ ∀ m, ¬ Spelled m s := by
  simp only [spelled_iff]
  unfold parse
  cases ofName? (Text.asciiLower (Text.trim s)) with
  | none => simp [eq_comm]
  | some m => simp

end Method

namespace OutputFormat

theorem isLower_name (f : OutputFormat) : ∀ d ∈ f.name.toList, d.isLower := by
  apply List.all_eq_true.1
  cases f <;> decide

/-- A text that is the name of a format, as it may be typed. -/
def Spelled (f : OutputFormat) (s : String) : Prop :=
  Text.Spells s f.name

theorem spelled_iff {f : OutputFormat} {s : String} : f.Spelled s ↔ parse s = .ok f := by
  rw [parse_eq_ok_iff, Spelled, Text.spells_iff f.isLower_name]

theorem parse_eq_error_iff {s : String} {e : Invalid} :
    parse s = .error e ↔
      (∃ t, Text.TrimsTo s t ∧ e = .unknownFormat (Text.asciiLower t)) ∧ ∀ f, ¬ Spelled f s := by
  simp only [spelled_iff, ← Text.trim_eq_iff, exists_eq_left']
  unfold parse
  simp only
  cases ofName? (Text.asciiLower (Text.trim s)) with
  | none => simp [eq_comm]
  | some f => simp

end OutputFormat

/-- **Names are read by their grammar and by nothing else.** A text is read as a method exactly if
it is one of its names in any ASCII case, with white space around it, and is otherwise refused as it
was given. A text is read as a format in the same way, and is otherwise refused by what is left of
it after trimming and folding. So a character beyond ASCII that is no white space is never accepted,
no text stands for two values, and a name that is typed in any case and padded stands for the value
that it is the name of. -/
theorem names_read_by_grammar (s : String) :
    (∀ m, Method.parse s = .ok m ↔ m.Spelled s) ∧
    (∀ e, Method.parse s = .error e ↔ e = ⟨s⟩ ∧ ∀ m, ¬ Method.Spelled m s) ∧
    (∀ f, OutputFormat.parse s = .ok f ↔ f.Spelled s) ∧
    (∀ e, OutputFormat.parse s = .error e ↔
      (∃ t, Text.TrimsTo s t ∧ e = .unknownFormat (Text.asciiLower t)) ∧
        ∀ f, ¬ OutputFormat.Spelled f s) ∧
    (∀ c ∈ s.toList, 128 ≤ c.toNat → ¬ Text.IsWhiteSpace c →
      (∀ m, Method.parse s ≠ .ok m) ∧ ∀ f, OutputFormat.parse s ≠ .ok f) ∧
    (∀ m m' : Method, m.Spelled s → m'.Spelled s → m = m') ∧
    (∀ f f' : OutputFormat, f.Spelled s → f'.Spelled s → f = f') ∧
    (∀ front back : String, (∀ c ∈ front.toList, Text.IsWhiteSpace c) →
      (∀ c ∈ back.toList, Text.IsWhiteSpace c) →
      (∀ m : Method, Text.Recased s m.name → Method.parse (front ++ s ++ back) = .ok m) ∧
        ∀ f : OutputFormat, Text.Recased s f.name →
          OutputFormat.parse (front ++ s ++ back) = .ok f) := by
  refine ⟨fun m => Method.spelled_iff.symm, fun e => Method.parse_eq_error_iff,
    fun f => OutputFormat.spelled_iff.symm, fun e => OutputFormat.parse_eq_error_iff,
    ?_, ?_, ?_, ?_⟩
  · intro c hc hcode hwhite
    have hno : ¬ (c.toNat < 128 ∨ Text.IsWhiteSpace c) := by
      rintro (hascii | hspace)
      · omega
      · exact hwhite hspace
    constructor
    · intro m hm
      obtain ⟨name, hname, h⟩ := Method.spelled_iff.2 hm
      exact hno (h.ascii_or_whiteSpace (Method.isLower_of_mem_names hname) hc)
    · intro f hf
      exact hno ((OutputFormat.spelled_iff.2 hf).ascii_or_whiteSpace f.isLower_name hc)
  · intro m m' hm hm'
    have hparse := Method.spelled_iff.1 hm
    exact Except.ok.inj (hparse.symm.trans (Method.spelled_iff.1 hm'))
  · intro f f' hf hf'
    have hparse := OutputFormat.spelled_iff.1 hf
    exact Except.ok.inj (hparse.symm.trans (OutputFormat.spelled_iff.1 hf'))
  · intro front back hfront hback
    constructor
    · intro m hm
      exact Method.spelled_iff.1 ⟨m.name, m.name_mem_names, front, s, back, rfl, hfront, hback, hm⟩
    · intro f hf
      exact OutputFormat.spelled_iff.1 ⟨front, s, back, rfl, hfront, hback, hf⟩

/-- The lower case of the Kelvin sign is a letter of a name, the ASCII case of it is not. -/
example : Text.lower "stac\u212A" = "stack" ∧
    Method.parse "stac\u212A" = .error ⟨"stac\u212A"⟩ := by
  decide +kernel

end Unroll
