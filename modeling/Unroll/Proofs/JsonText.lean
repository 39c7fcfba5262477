import Mathlib.Data.List.DropRight
import Mathlib.Data.List.Forall2
import Unroll.Json.Parse
import Unroll.Proofs.PlainText

/-!
# JSON values and their texts

Characters are read as a value if they are where nothing that goes on with a number follows, given
the fuel that a text of their length has (`Json.ReadsAs`). Arrays and objects are read entry by
entry, with blanks in front of each of them and at the end (`Json.ReadsEntry.list`), which covers
texts on one line and on several. So a value is read back from either text, up to what becomes of
its numbers that are not integers (`Json.ReadsBack`).
-/

namespace Unroll.Json

/-! ## Blanks -/

theorem skipBlanks_append {pad : List Char} (hpad : ∀ c ∈ pad, isBlank c) (cs : List Char) :
    skipBlanks (pad ++ cs) = skipBlanks cs :=
  List.dropWhile_append_of_pos hpad

theorem skipBlanks_skipBlanks (cs : List Char) : skipBlanks (skipBlanks cs) = skipBlanks cs :=
  List.dropWhile_idempotent isBlank cs

theorem skipBlanks_cons {c : Char} (hc : isBlank c = false) (cs : List Char) :
    skipBlanks (c :: cs) = c :: cs :=
  List.dropWhile_cons_of_neg (by simp [hc])

theorem skipBlanks_append_of_eq_cons {c : Char} {cs tail : List Char}
    (h : skipBlanks cs = c :: tail) (more : List Char) :
    skipBlanks (cs ++ more) = c :: (tail ++ more) := by
  unfold skipBlanks at h ⊢
  rw [List.dropWhile_append, h]
  rfl

/-- Nothing follows that could go on with a number. -/
def Ends (rest : List Char) : Prop :=
  ∀ c ∈ rest.head?, isBlank c ∨ c = ',' ∨ c = ']' ∨ c = '\x7d'

theorem ends_append {post : List Char} (hpost : ∀ c ∈ post, isBlank c) {rest : List Char}
    (hrest : Ends rest) : Ends (post ++ rest) := by
  cases post with
  | nil => exact hrest
  | cons d post =>
    intro c hc
    obtain rfl := Option.mem_some_iff.1 hc
    exact .inl (hpost d List.mem_cons_self)

theorem ends_cons {c : Char} (hc : isBlank c ∨ c = ',' ∨ c = ']' ∨ c = '\x7d') (rest : List Char) :
    Ends (c :: rest) := by
  intro d hd
  obtain rfl := Option.mem_some_iff.1 hd
  exact hc

/-! ## Strings -/

section Strings

variable {tail text rest : List Char}

theorem readString?_letter {letter c : Char} (hletter : letter ≠ 'u')
    (hc : shortEscape? letter = some c) (h : readString? tail = some (text, rest)) :
    readString? ('\\' :: letter :: tail) = some (c :: text, rest) := by
  rw [readString?]
  · rw [hc, h]
    rfl
  · intro _ _ _ _ _ _ _ _ _ hu
    exact absurd hu hletter
  · intro _ _ _ _ _ hu
    exact absurd hu hletter

theorem readString?_plain {c : Char} (hquote : c ≠ '"') (hback : c ≠ '\\')
    (hcode : ¬ c.toNat < 0x20) (h : readString? tail = some (text, rest)) :
    readString? (c :: tail) = some (c :: text, rest) := by
  rw [readString?]
  · simp [hback, hcode, h]
  · exact hquote
  · exact fun _ _ _ _ _ _ _ _ _ hc => absurd hc hback
  · exact fun _ _ _ _ _ hc => absurd hc hback
  · exact fun _ _ hc => absurd hc hback

theorem readString?_control {code : Nat} (hcode : code < 0x20)
    (h : readString? tail = some (text, rest)) :
    readString?
        ('\\' :: 'u' :: '0' :: '0' :: hexDigit (code / 16) :: hexDigit (code % 16) :: tail) =
      some (Char.ofNat code :: text, rest) := by
  have hall : ∀ code < 0x20, hex4? '0' '0' (hexDigit (code / 16)) (hexDigit (code % 16)) =
      some code ∧ isHighSurrogate code = false ∧ isLowSurrogate code = false := by
    decide
  obtain ⟨hhex, hhigh, hlow⟩ := hall code hcode
  by_cases hpair : ∃ e f g k more, tail = '\\' :: 'u' :: e :: f :: g :: k :: more
  · -- the escape after this one is read by itself
    obtain ⟨e, f, g, k, more, rfl⟩ := hpair
    rw [readString?, hhex]
    simp [hhigh, hlow, h]
  · rw [readString?, hhex]
    · simp [hhigh, hlow, h]
    · intro e f g k more htail
      exact hpair ⟨e, f, g, k, more, htail⟩

theorem readString?_escapeChar (c : Char) (h : readString? tail = some (text, rest)) :
    readString? (escapeChar c ++ tail) = some (c :: text, rest) := by
  unfold escapeChar
  by_cases hquote : c = '"'
  · subst hquote
    exact readString?_letter (by decide) rfl h
  by_cases hback : c = '\\'
  · subst hback
    exact readString?_letter (by decide) rfl h
  by_cases hline : c = '\n'
  · subst hline
    exact readString?_letter (by decide) rfl h
  by_cases hreturn : c = '\r'
  · subst hreturn
    exact readString?_letter (by decide) rfl h
  by_cases htab : c = '\t'
  · subst htab
    exact readString?_letter (by decide) rfl h
  by_cases hbackspace : c = '\x08'
  · subst hbackspace
    exact readString?_letter (by decide) rfl h
  by_cases hfeed : c = '\x0c'
  · subst hfeed
    exact readString?_letter (by decide) rfl h
  simp only [hquote, hback, hline, hreturn, htab, hbackspace, hfeed, decide_false, Bool.or_false,
    Bool.false_eq_true, if_false]
  by_cases hcode : c.toNat < 0x20
  · rw [if_pos hcode]
    have hread := readString?_control hcode h
    rwa [Char.ofNat_toNat] at hread
  · rw [if_neg hcode]
    exact readString?_plain hquote hback hcode h

theorem readString?_escaped (cs rest : List Char) :
    readString? (cs.flatMap escapeChar ++ '"' :: rest) = some (cs, rest) := by
  induction cs with
  | nil => rw [List.flatMap_nil, List.nil_append, readString?]
  | cons c cs ih =>
    rw [List.flatMap_cons, List.append_assoc]
    exact readString?_escapeChar c ih

end Strings

/-! ## Values -/

/-- Characters that are read as a value. They start with no bracket that would close an array. -/
structure ReadsAs (cs : List Char) (v : Json) : Prop where
  opens : ∃ c tail, skipBlanks cs = c :: tail ∧ c ≠ ']'
  read : ∀ {fuel : Nat} {rest : List Char}, 2 * cs.length ≤ fuel → Ends rest →
    readValue? fuel (cs ++ rest) = some (v, rest)

theorem readValue?_skipBlanks (fuel : Nat) (cs : List Char) :
    readValue? fuel (skipBlanks cs) = readValue? fuel cs := by
  cases fuel with
  | zero => rfl
  | succ fuel => rw [readValue?, readValue?, skipBlanks_skipBlanks]

theorem ReadsAs.padded {pad cs : List Char} {v : Json} (hpad : ∀ c ∈ pad, isBlank c)
    (h : ReadsAs cs v) : ReadsAs (pad ++ cs) v := by
  refine ⟨?_, ?_⟩
  · rw [skipBlanks_append hpad]
    exact h.opens
  · intro fuel rest hfuel hrest
    rw [List.length_append] at hfuel
    rw [List.append_assoc, ← readValue?_skipBlanks, skipBlanks_append hpad, readValue?_skipBlanks]
    exact h.read (by omega) hrest

theorem readsAs_null : ReadsAs "null".toList .null := by
  refine ⟨⟨'n', _, rfl, by decide⟩, ?_⟩
  rintro (_ | fuel) rest hfuel -
  · cases hfuel
  · rfl

theorem readsAs_bool (b : Bool) : ReadsAs (compactChars (.bool b)) (.bool b) := by
  cases b with
  | true =>
    refine ⟨⟨'t', _, rfl, by decide⟩, ?_⟩
    rintro (_ | fuel) rest hfuel -
    · cases hfuel
    · rfl
  | false =>
    refine ⟨⟨'f', _, rfl, by decide⟩, ?_⟩
    rintro (_ | fuel) rest hfuel -
    · cases hfuel
    · rfl

theorem readsAs_str (s : String) : ReadsAs (quoteChars s) (.str s) := by
  refine ⟨⟨'"', _, rfl, by decide⟩, ?_⟩
  rintro (_ | fuel) rest hfuel -
  · cases hfuel
  · have hchars : quoteChars s ++ rest = '"' :: (s.toList.flatMap escapeChar ++ '"' :: rest) := by
      simp [quoteChars]
    rw [hchars]
    show (readString? _ >>= fun x => some (Json.str (String.ofList x.1), x.2)) = _
    rw [readString?_escaped]
    simp

/-! ## Numbers -/

theorem Ends.head {c : Char} {rest : List Char} (h : Ends (c :: rest)) :
    c.isDigit = false ∧ c ≠ '.' ∧ c ≠ 'e' ∧ c ≠ 'E' := by
  have hc : ((c = ' ' ∨ c = '\t') ∨ c = '\n') ∨ c = '\r' ∨ c = ',' ∨ c = ']' ∨ c = '\x7d' := by
    simpa [isBlank, or_assoc] using h c rfl
  rcases hc with ((rfl | rfl) | rfl) | rfl | rfl | rfl | rfl <;> decide

/-- Digits are read up to the first character that is none. -/
theorem readDigits?_append {ds rest : List Char} (hne : ds ≠ []) (hds : ∀ c ∈ ds, c.isDigit)
    (hrest : ∀ c ∈ rest.head?, c.isDigit = false) : readDigits? (ds ++ rest) = some (ds, rest) := by
  have hstop : rest.takeWhile Char.isDigit = [] ∧ rest.dropWhile Char.isDigit = rest := by
    cases rest with
    | nil => exact ⟨rfl, rfl⟩
    | cons c rest => simp [hrest c rfl]
  unfold readDigits?
  rw [List.takeWhile_append_of_pos hds, List.dropWhile_append_of_pos hds, hstop.1, hstop.2,
    List.append_nil]
  split
  · contradiction
  · rfl

theorem Ends.isDigit_head {rest : List Char} (h : Ends rest) :
    ∀ c ∈ rest.head?, c.isDigit = false := by
  intro c hc
  obtain ⟨tail, rfl⟩ := List.head?_eq_some_iff.1 hc
  exact h.head.1

theorem readFraction?_of_ends {rest : List Char} (hrest : Ends rest) :
    readFraction? rest = some ([], rest) := by
  rw [readFraction?]
  rintro tail rfl
  exact hrest.head.2.1 rfl

theorem readExponent?_of_ends {rest : List Char} (hrest : Ends rest) :
    readExponent? rest = some (none, rest) := by
  cases rest with
  | nil => rfl
  | cons c rest =>
    obtain ⟨-, -, hsmall, hlarge⟩ := hrest.head
    simp [readExponent?, hsmall, hlarge]

/-- The digits of a number are read as an integer, if it is kept as one. -/
theorem readUnsigned?_toDigits {negative : Bool} {n : Nat} {rest : List Char}
    (hexact : isExact (if negative then -(n : Int) else n) = true)
    (hsign : negative = true → n ≠ 0) (hrest : Ends rest) :
    readUnsigned? negative (Nat.toDigits 10 n ++ rest) =
      some (.int (if negative then -(n : Int) else n), rest) := by
  have hdigits : ∀ c ∈ Nat.toDigits 10 n, c.isDigit := fun c => Text.isDigit_toDigits
  have hvalue := Nat.ofDigitChars_ten_toDigits (n := n)
  have hread := readDigits?_append Nat.toDigits_ne_nil hdigits hrest.isDigit_head
  have hfraction := readFraction?_of_ends hrest
  have hexponent := readExponent?_of_ends hrest
  obtain ⟨d, ds, hds⟩ := List.exists_cons_of_ne_nil (Nat.toDigits_ne_nil (b := 10) (n := n))
  rw [hds] at hvalue hread ⊢
  rw [List.cons_append] at hread ⊢
  by_cases hzero : d = '0'
  · -- a zero at the start is the whole number
    subst hzero
    obtain rfl := Text.toDigits_of_zero hds
    simpa [readUnsigned?, hfraction, hexponent, hvalue, hexact] using hsign
  · simpa [readUnsigned?, hzero, hread, hfraction, hexponent, hvalue, hexact] using hsign

theorem readNumber?_intChars {n : Int} (hexact : isExact n = true) {rest : List Char}
    (hrest : Ends rest) : readNumber? (intChars n ++ rest) = some (.int n, rest) := by
  cases n with
  | ofNat n =>
    obtain ⟨d, ds, hds⟩ := List.exists_cons_of_ne_nil (Nat.toDigits_ne_nil (b := 10) (n := n))
    have hd : d.isDigit := Text.isDigit_toDigits (hds ▸ List.mem_cons_self)
    have hread := @readUnsigned?_toDigits false n rest hexact nofun hrest
    rw [intChars, readNumber?]
    · exact hread
    · intro tail htail
      rw [hds, List.cons_append] at htail
      obtain ⟨rfl, -⟩ := List.cons.inj htail
      exact absurd hd (by decide)
  | negSucc n =>
    have hread :=
      @readUnsigned?_toDigits true (n + 1) rest hexact (fun _ => Nat.succ_ne_zero n) hrest
    rw [intChars, List.cons_append, readNumber?]
    exact hread

/-- Neither blanks nor other values start like a number. -/
theorem notMem_of_isDigit {c : Char} (hc : c.isDigit ∨ c = '-') :
    c ∉ [' ', '\t', '\n', '\r', 'n', 't', 'f', '"', '[', ']', '\x7b'] := by
  rcases hc with hc | rfl
  · intro hmem
    have hall : [' ', '\t', '\n', '\r', 'n', 't', 'f', '"', '[', ']', '\x7b'].all
        (!·.isDigit) = true := by
      decide
    have hnot := List.all_eq_true.1 hall c hmem
    simp [hc] at hnot
  · decide

theorem readsAs_number {c : Char} {cs : List Char} {v : Json} (hc : c.isDigit ∨ c = '-')
    (h : ∀ {rest}, Ends rest → readNumber? (c :: cs ++ rest) = some (v, rest)) :
    ReadsAs (c :: cs) v := by
  have hnot := notMem_of_isDigit hc
  simp only [List.mem_cons, List.not_mem_nil, or_false, not_or] at hnot
  have hblank : isBlank c = false := by simp [isBlank, hnot]
  have hclose : c ≠ ']' := by simp [hnot]
  refine ⟨⟨c, cs, skipBlanks_cons hblank cs, hclose⟩, ?_⟩
  rintro (_ | fuel) rest hfuel hrest
  · cases hfuel
  · have hread := h hrest
    rw [List.cons_append] at hread ⊢
    rw [readValue?, skipBlanks_cons hblank]
    simpa [hnot] using hread

theorem readsAs_int {n : Int} (hexact : isExact n = true) : ReadsAs (intChars n) (.int n) := by
  have hread := fun {rest} => @readNumber?_intChars n hexact rest
  cases n with
  | ofNat n =>
    obtain ⟨d, ds, hds⟩ := List.exists_cons_of_ne_nil (Nat.toDigits_ne_nil (b := 10) (n := n))
    have hd : d.isDigit := Text.isDigit_toDigits (hds ▸ List.mem_cons_self)
    rw [intChars, hds] at hread ⊢
    exact readsAs_number (.inl hd) hread
  | negSucc n => exact readsAs_number (.inr rfl) hread

/-! ## Lists of entries -/

/-- Characters that are read as an entry of a list: before a comma together with the entries after
it, and before the closing bracket as the last one. -/
structure ReadsEntry {α : Type} (reader : Nat → List Char → Option (List α × List Char))
    (close : Char) (cs : List Char) (entry : α) : Prop where
  opens : ∃ c tail, skipBlanks cs = c :: tail ∧ c ≠ close
  next : ∀ {fuel : Nat} {after more rest : List Char} {entries : List α}, 2 * cs.length ≤ fuel →
    Ends after → skipBlanks after = ',' :: more → reader fuel more = some (entries, rest) →
      reader (fuel + 1) (cs ++ after) = some (entry :: entries, rest)
  last : ∀ {fuel : Nat} {after rest : List Char}, 2 * cs.length ≤ fuel →
    Ends after → skipBlanks after = close :: rest →
      reader (fuel + 1) (cs ++ after) = some ([entry], rest)

theorem ReadsEntry.list {α β : Type} {reader : Nat → List Char → Option (List α × List Char)}
    {close : Char} {items : List β} {text : β → List Char} {entry : β → α} (hne : items ≠ [])
    (h : ∀ x ∈ items, ReadsEntry reader close (text x) (entry x)) {after rest : List Char}
    (hends : Ends after) (hafter : skipBlanks after = close :: rest) {fuel : Nat}
    (hfuel : 2 * ([','].intercalate (items.map text)).length + 1 ≤ fuel) :
    reader fuel ([','].intercalate (items.map text) ++ after) = some (items.map entry, rest) := by
  induction items generalizing fuel with
  | nil => exact absurd rfl hne
  | cons x items ih =>
    rw [List.forall_mem_cons] at h
    obtain ⟨fuel, rfl⟩ := Nat.exists_eq_add_of_le' (Nat.le_trans (Nat.le_add_left 1 _) hfuel)
    cases items with
    | nil =>
      simp only [List.map_cons, List.map_nil, List.intercalate_singleton] at hfuel ⊢
      exact h.1.last (by omega) hends hafter
    | cons y items =>
      simp only [List.map_cons, List.intercalate_cons_cons, List.length_append,
        List.length_cons, List.append_assoc, List.singleton_append] at hfuel ih ⊢
      refine h.1.next (by omega) (ends_cons (by decide) _) (skipBlanks_cons (by decide) _) ?_
      exact ih (List.cons_ne_nil _ _) h.2 (by omega)

/-- Joined texts start like the first of them. -/
theorem exists_intercalate (first : List Char) (rest : List (List Char)) :
    ∃ tail, [','].intercalate (first :: rest) = first ++ tail := by
  cases rest with
  | nil => exact ⟨[], by simp⟩
  | cons next rest =>
    rw [List.intercalate_cons_cons, List.append_assoc]
    exact ⟨_, rfl⟩

/-- Between which brackets the entries of a list stand, and which value they make up. -/
structure Brackets {α : Type} (reader : Nat → List Char → Option (List α × List Char))
    (opening close : Char) (wrap : List α → Json) : Prop where
  opens : isBlank opening = false ∧ opening ≠ ']'
  closes : isBlank close = false ∧ (close = ']' ∨ close = '\x7d')
  skips : ∀ fuel cs, reader fuel (skipBlanks cs) = reader fuel cs
  empty : ∀ fuel {cs rest}, skipBlanks cs = close :: rest →
    readValue? (fuel + 1) (opening :: cs) = some (wrap [], rest)
  entries : ∀ fuel {c cs tail}, skipBlanks cs = c :: tail → c ≠ close →
    readValue? (fuel + 1) (opening :: cs) =
      reader fuel (c :: tail) >>= fun x => some (wrap x.1, x.2)

/-- A list is read from its brackets to its value, whatever blanks come before the closing one. -/
theorem Brackets.readsAs {α β : Type} {reader : Nat → List Char → Option (List α × List Char)}
    {opening close : Char} {wrap : List α → Json} (hbrackets : Brackets reader opening close wrap)
    {post : List Char} (hpost : ∀ c ∈ post, isBlank c) {items : List β} {text : β → List Char}
    {entry : β → α} (h : ∀ x ∈ items, ReadsEntry reader close (text x) (entry x)) :
    ReadsAs (opening :: [','].intercalate (items.map text) ++ post ++ [close])
      (wrap (items.map entry)) := by
  refine ⟨⟨opening, _, skipBlanks_cons hbrackets.opens.1 _, hbrackets.opens.2⟩, ?_⟩
  rintro (_ | fuel) rest hfuel -
  · cases hfuel
  have hafter : skipBlanks (post ++ close :: rest) = close :: rest := by
    rw [skipBlanks_append hpost, skipBlanks_cons hbrackets.closes.1]
  have hends : Ends (post ++ close :: rest) :=
    ends_append hpost (ends_cons (.inr (.inr hbrackets.closes.2)) rest)
  simp only [List.append_assoc, List.cons_append, List.nil_append, List.length_cons,
    List.length_append, List.length_nil] at hfuel ⊢
  cases items with
  | nil => exact hbrackets.empty fuel hafter
  | cons x items =>
    have hread :
        reader fuel ([','].intercalate ((x :: items).map text) ++ (post ++ close :: rest)) =
          some ((x :: items).map entry, rest) :=
      ReadsEntry.list (List.cons_ne_nil x items) h hends hafter (by omega)
    -- the first entry does not start with the closing bracket
    obtain ⟨c, tail, hc, hclose⟩ := (h x List.mem_cons_self).opens
    obtain ⟨more, hmore⟩ := exists_intercalate (text x) (items.map text)
    have hstart := skipBlanks_append_of_eq_cons hc (more ++ (post ++ close :: rest))
    rw [← List.append_assoc, ← hmore, ← List.map_cons] at hstart
    rw [← hbrackets.skips, hstart] at hread
    rw [hbrackets.entries fuel hstart hclose, hread]
    rfl

theorem readsEntry_item {cs : List Char} {v : Json} (h : ReadsAs cs v) :
    ReadsEntry readItems? ']' cs v := by
  refine ⟨h.opens, ?_, ?_⟩
  · intro fuel after more rest entries hfuel hends hafter hmore
    rw [readItems?, h.read hfuel hends]
    simp [hafter, hmore]
  · intro fuel after rest hfuel hends hafter
    rw [readItems?, h.read hfuel hends]
    simp [hafter]

theorem readsEntry_member {pad cs : List Char} {v : Json} (hpad : ∀ c ∈ pad, isBlank c)
    (name : String) (h : ReadsAs cs v) :
    ReadsEntry readMembers? '\x7d' (pad ++ quoteChars name ++ ':' :: cs) (name, v) := by
  have hstart : ∀ after, skipBlanks (pad ++ quoteChars name ++ ':' :: cs ++ after) =
      '"' :: (name.toList.flatMap escapeChar ++ '"' :: ':' :: (cs ++ after)) := by
    intro after
    simp only [quoteChars, List.append_assoc, List.cons_append, List.nil_append]
    rw [skipBlanks_append hpad, skipBlanks_cons (by decide)]
  have hopens := hstart []
  rw [List.append_nil] at hopens
  have hlength : ∀ {fuel}, 2 * (pad ++ quoteChars name ++ ':' :: cs).length ≤ fuel →
      2 * cs.length ≤ fuel := by
    intro fuel hfuel
    rw [List.length_append, List.length_cons] at hfuel
    omega
  refine ⟨⟨'"', _, hopens, by decide⟩, ?_, ?_⟩
  · intro fuel after more rest entries hfuel hends hafter hmore
    have hvalue : readValue? fuel (cs ++ after) = some (v, after) :=
      h.read (hlength hfuel) hends
    rw [readMembers?, hstart]
    simp [readString?_escaped, skipBlanks_cons, isBlank, hvalue, hafter, hmore]
  · intro fuel after rest hfuel hends hafter
    have hvalue : readValue? fuel (cs ++ after) = some (v, after) :=
      h.read (hlength hfuel) hends
    rw [readMembers?, hstart]
    simp [readString?_escaped, skipBlanks_cons, isBlank, hvalue, hafter]

theorem brackets_items : Brackets readItems? '[' ']' .arr where
  opens := by decide
  closes := by decide
  skips fuel cs := by
    cases fuel with
    | zero => rfl
    | succ fuel => rw [readItems?, readItems?, readValue?_skipBlanks]
  empty fuel cs rest h := by
    rw [readValue?, skipBlanks_cons (by decide)]
    simp [h]
  entries fuel c cs tail h hc := by
    rw [readValue?, skipBlanks_cons (by decide)]
    simp [h, hc]

theorem brackets_members : Brackets readMembers? '\x7b' '\x7d' .obj where
  opens := by decide
  closes := by decide
  skips fuel cs := by
    cases fuel with
    | zero => rfl
    | succ fuel => rw [readMembers?, readMembers?, skipBlanks_skipBlanks]
  empty fuel cs rest h := by
    rw [readValue?, skipBlanks_cons (by decide)]
    simp [h]
  entries fuel c cs tail h hc := by
    rw [readValue?, skipBlanks_cons (by decide)]
    simp [h, hc]

/-! ## Trees -/

/-- A value and what its text is read as. Both have the same shape and differ at most in numbers
that are not integers. -/
inductive ReadsBack : Json → Json → Prop
  | null : ReadsBack .null .null
  | bool (b : Bool) : ReadsBack (.bool b) (.bool b)
  | int {n : Int} (hexact : isExact n = true) : ReadsBack (.int n) (.int n)
  | float {d : Double} {v : Json} (h : ReadsAs (floatChars d) v) : ReadsBack (.float d) v
  | str (s : String) : ReadsBack (.str s) (.str s)
  | arr {items : List (Json × Json)} (h : ∀ x ∈ items, ReadsBack x.1 x.2) :
      ReadsBack (.arr (items.map Prod.fst)) (.arr (items.map Prod.snd))
  | obj {members : List (String × Json × Json)} (h : ∀ m ∈ members, ReadsBack m.2.1 m.2.2) :
      ReadsBack (.obj (members.map fun m => (m.1, m.2.1)))
        (.obj (members.map fun m => (m.1, m.2.2)))

/-- A natural number comes back if it fits a word. -/
theorem ReadsBack.nat {n : Nat} (h : n < UInt64.size) : ReadsBack (.nat n) (.nat n) := by
  have hlow : -(SignedWord.bound : Int) ≤ n := by omega
  have hhigh : (n : Int) < UInt64.size := Int.ofNat_lt.2 h
  exact .int (Bool.and_eq_true_iff.2 ⟨decide_eq_true hlow, decide_eq_true hhigh⟩)

theorem ReadsBack.arr_of_forall₂ {items items' : List Json}
    (h : List.Forall₂ ReadsBack items items') : ReadsBack (.arr items) (.arr items') := by
  have hpairs : ∀ x ∈ items.zip items', ReadsBack x.1 x.2 := fun x hx => List.forall₂_zip h hx
  have hread := ReadsBack.arr hpairs
  rwa [List.map_fst_zip h.length_eq.le, List.map_snd_zip h.length_eq.ge] at hread

theorem ReadsBack.obj_of_forall₂ {members members' : List (String × Json)}
    (h : List.Forall₂ (fun m m' => m.1 = m'.1 ∧ ReadsBack m.2 m'.2) members members') :
    ReadsBack (.obj members) (.obj members') := by
  have hpairs : ∃ pairs : List (String × Json × Json),
      pairs.map (fun m => (m.1, m.2.1)) = members ∧ pairs.map (fun m => (m.1, m.2.2)) = members' ∧
        ∀ m ∈ pairs, ReadsBack m.2.1 m.2.2 := by
    induction h with
    | nil => exact ⟨[], rfl, rfl, List.forall_mem_nil _⟩
    | @cons m m' _ _ hm _ ih =>
      obtain ⟨pairs, rfl, rfl, hpairs⟩ := ih
      obtain ⟨name, v⟩ := m
      obtain ⟨_, w⟩ := m'
      obtain ⟨rfl, hvalue⟩ := hm
      exact ⟨(name, v, w) :: pairs, rfl, rfl, List.forall_mem_cons.2 ⟨hvalue, hpairs⟩⟩
  obtain ⟨pairs, rfl, rfl, hpairs⟩ := hpairs
  exact .obj hpairs

theorem ReadsBack.arr_self {items : List Json} (h : ∀ v ∈ items, ReadsBack v v) :
    ReadsBack (.arr items) (.arr items) :=
  .arr_of_forall₂ (List.forall₂_same.2 h)

theorem ReadsBack.obj_self {members : List (String × Json)} (h : ∀ m ∈ members, ReadsBack m.2 m.2) :
    ReadsBack (.obj members) (.obj members) :=
  .obj_of_forall₂ (List.forall₂_same.2 fun m hm => ⟨rfl, h m hm⟩)

/-! ## Layouts -/

/-- What joins its texts by commas. -/
theorem eq_intercalate {α : Type} {join : List α → List Char} {text : α → List Char}
    (hnil : join [] = []) (hone : ∀ x, join [x] = text x)
    (hmore : ∀ x y rest, join (x :: y :: rest) = text x ++ ',' :: join (y :: rest))
    (items : List α) : join items = [','].intercalate (items.map text) := by
  induction items with
  | nil => exact hnil
  | cons x rest ih =>
    cases rest with
    | nil => rw [hone, List.map_singleton, List.intercalate_singleton]
    | cons y rest =>
      rw [hmore, ih]
      simp

theorem compactItems_eq (items : List Json) :
    compactItems items = [','].intercalate (items.map compactChars) :=
  eq_intercalate rfl (fun _ => rfl) (fun _ _ _ => rfl) items

theorem compactMembers_eq (members : List (String × Json)) :
    compactMembers members =
      [','].intercalate (members.map fun m => quoteChars m.1 ++ ':' :: compactChars m.2) :=
  eq_intercalate rfl (fun _ => rfl) (fun _ _ _ => rfl) members

theorem prettyItems_eq (level : Nat) (items : List Json) :
    prettyItems level items =
      [','].intercalate (items.map fun v => newLine level ++ prettyChars level v) :=
  eq_intercalate rfl (fun _ => rfl) (fun _ _ _ => rfl) items

theorem prettyMembers_eq (level : Nat) (members : List (String × Json)) :
    prettyMembers level members = [','].intercalate (members.map fun m =>
      newLine level ++ quoteChars m.1 ++ ':' :: ' ' :: prettyChars level m.2) :=
  eq_intercalate rfl (fun _ => rfl) (fun _ _ _ => rfl) members

theorem isBlank_newLine {level : Nat} {c : Char} (hc : c ∈ newLine level) : isBlank c := by
  rcases List.mem_cons.1 hc with rfl | hc
  · rfl
  · rw [List.eq_of_mem_replicate hc]
    rfl

theorem ReadsBack.readsAs_compact {v w : Json} (h : ReadsBack v w) :
    ReadsAs v.compactChars w := by
  induction h with
  | null => exact readsAs_null
  | bool b => exact readsAs_bool b
  | int hexact => exact readsAs_int hexact
  | float h => exact h
  | str s => exact readsAs_str s
  | arr _ ih =>
    have hread := brackets_items.readsAs (List.forall_mem_nil _) fun x hx =>
      readsEntry_item (ih x hx)
    rw [List.append_nil] at hread
    rw [compactChars, compactItems_eq, List.map_map]
    exact hread
  | obj _ ih =>
    have hread := brackets_members.readsAs (List.forall_mem_nil _) fun m hm =>
      readsEntry_member (List.forall_mem_nil _) m.1 (ih m hm)
    rw [List.append_nil] at hread
    rw [compactChars, compactMembers_eq, List.map_map]
    exact hread

theorem ReadsBack.readsAs_pretty {v w : Json} (h : ReadsBack v w) (level : Nat) :
    ReadsAs (v.prettyChars level) w := by
  have hnewLine : ∀ level, ∀ c ∈ newLine level, isBlank c := fun _ _ => isBlank_newLine
  induction h generalizing level with
  | null => exact readsAs_null
  | bool b =>
    cases b with
    | true => exact readsAs_bool true
    | false => exact readsAs_bool false
  | int hexact => exact readsAs_int hexact
  | float h => exact h
  | str s => exact readsAs_str s
  | @arr items _ ih =>
    cases items with
    | nil =>
      exact brackets_items.readsAs (List.forall_mem_nil _) fun x hx =>
        readsEntry_item (ih x hx level)
    | cons x items =>
      have hread := brackets_items.readsAs (hnewLine level) fun x hx =>
        readsEntry_item ((ih x hx (level + 1)).padded (hnewLine (level + 1)))
      rw [List.map_cons, prettyChars, prettyItems_eq, ← List.map_cons, List.map_map]
      exact hread
  | @obj members _ ih =>
    cases members with
    | nil =>
      exact brackets_members.readsAs (List.forall_mem_nil _) fun m hm =>
        readsEntry_member (List.forall_mem_nil _) m.1 (ih m hm level)
    | cons m members =>
      have hblank : ∀ c ∈ [' '], isBlank c := List.forall_mem_singleton.2 rfl
      have hread := brackets_members.readsAs (hnewLine level) fun m hm =>
        readsEntry_member (hnewLine (level + 1)) m.1 ((ih m hm (level + 1)).padded hblank)
      rw [List.map_cons, prettyChars, prettyMembers_eq, List.map_cons, List.map_map]
      exact hread

theorem parse?_of_readsAs {s : String} {v : Json} (h : ReadsAs s.toList v) :
    parse? s = some v := by
  have hends : Ends [] := nofun
  have hread := h.read (Nat.le_add_right _ 2) hends
  rw [List.append_nil] at hread
  unfold parse?
  simp only [hread]
  rfl

/-- Whatever the layout, a text is read as the value that its tree reads as. -/
theorem ReadsBack.parse? {v w : Json} (h : ReadsBack v w) :
    parse? v.compact = some w ∧ parse? v.pretty = some w := by
  constructor
  · apply parse?_of_readsAs
    rw [compact, String.toList_ofList]
    exact h.readsAs_compact
  · apply parse?_of_readsAs
    rw [pretty, String.toList_ofList]
    exact h.readsAs_pretty 0

end Unroll.Json
