import Mathlib.Data.Option.Basic
import Unroll.Proofs.Places

/-!
# Negative numbers

The index and the number of places are natural numbers. A negative integer of sixty-four bits is
refused for them, and so is a text with a minus sign. A negative number of any other form, with a
fraction, with an exponent or beyond the signed words, is read as a double-precision number first
and then counts as zero, the nearest word (`Double.toWord_of_minus`). What a field holds in the end
decides alone whether a configuration can be loaded (`Config.exists_load_error`).
-/

namespace Unroll

open Config (Field)

/-! ## Texts with a minus sign -/

namespace Text

variable {text : String} {cs : List Char}

theorem lower_ne_of_minus (h : text.toList = '-' :: cs) {word : String}
    (hword : word.toList.head? ≠ some '-') : lower text ≠ word := by
  rintro rfl
  apply hword
  have hminus : lowerAfter [] ('-' :: cs) = '-' :: lowerAfter ['-'] cs := by
    rw [lowerAfter, if_neg (by decide), lowerChar_of_ascii (by decide)]
    rfl
  rw [lower, String.toList_ofList, h, hminus, List.head?_cons]

theorem readMagnitude_eq_ok {limit n m : Nat} {excess : IntegerFault} (hn : n ≤ limit)
    (h : readMagnitude limit excess n cs = .ok m) :
    (∀ c ∈ cs, c.isDigit) ∧ Nat.ofDigitChars 10 cs n = m ∧ m ≤ limit := by
  induction cs generalizing n with
  | nil =>
    obtain rfl := Except.ok.inj h
    simp [hn]
  | cons c cs ih =>
    simp only [readMagnitude] at h
    split at h
    · next hc =>
      split at h
      · next hnext =>
        obtain ⟨hcs, hvalue, hm⟩ := ih hnext h
        rw [List.forall_mem_cons, Nat.ofDigitChars_cons]
        exact ⟨⟨hc, hcs⟩, hvalue, hm⟩
      · cases h
    · cases h

theorem parseInt64_of_minus (h : text.toList = '-' :: cs) :
    parseInt64 text = (readDigits SignedWord.bound .tooSmall cs).map fun n => -(n : Int) := by
  simp only [parseInt64, h]

theorem IsDecimal.parseInt64_minus {digits : String} {m : Nat} (h : IsDecimal digits m)
    (hm : m ≤ SignedWord.bound) : parseInt64 ("-" ++ digits) = .ok (-(m : Int)) := by
  have htext : ("-" ++ digits).toList = '-' :: digits.toList := by simp
  rw [parseInt64_of_minus htext, readDigits_decimal .tooSmall h hm]
  rfl

/-- A text with a minus sign is an integer of sixty-four bits only by its digits. -/
theorem exists_parseInt64_error (h : text.toList = '-' :: cs)
    (hlarge : ∀ digits m, text = "-" ++ digits → IsDecimal digits m → SignedWord.bound < m) :
    ∃ fault, parseInt64 text = .error fault := by
  rw [parseInt64_of_minus h]
  cases hread : readDigits SignedWord.bound .tooSmall cs with
  | error fault => exact ⟨fault, rfl⟩
  | ok m =>
    have hne : cs ≠ [] := by
      rintro rfl
      cases hread
    rw [readDigits] at hread
    · obtain ⟨hdigits, hvalue, hm⟩ := readMagnitude_eq_ok (Nat.zero_le _) hread
      have htext : text = "-" ++ String.ofList cs := by
        rw [← String.toList_inj, h]
        simp
      have hdecimal : IsDecimal (String.ofList cs) m := by
        refine ⟨?_, ?_, ?_⟩ <;> rw [String.toList_ofList]
        · exact hne
        · exact hdigits
        · exact hvalue
      exact absurd (hlarge _ _ htext hdecimal) (Nat.not_lt.2 hm)
    · exact hne

theorem parseNat_of_minus (h : text.toList = '-' :: cs) (limit : Nat) :
    parseNat limit text = .error .invalidDigit := by
  simp [parseNat, h, readDigits, readMagnitude]

end Text

/-! ## Numbers with a minus sign -/

namespace Double

/-- The sign decides, whatever the number is. -/
theorem toWord_ite_true {p : Prop} [Decidable p] (mantissa : Nat) (exponent : Int) :
    (if p then infinite true else finite true mantissa exponent).toWord = 0 := by
  split <;> rfl

theorem toWord_ofRatio_true (num den : Nat) : (ofRatio true num den).toWord = 0 := by
  unfold ofRatio
  split
  · rfl
  · exact toWord_ite_true _ _

theorem toWord_ofDecimal_true (significand : Nat) (exponent : Int) :
    (ofDecimal true significand exponent).toWord = 0 := by
  unfold ofDecimal
  simp only
  split
  · rfl
  · split
    · rfl
    · split <;> exact toWord_ofRatio_true _ _

theorem toWord_of_parseUnsigned {cs : List Char} {x : Double}
    (h : parseUnsigned? true cs = some x) : x.toWord = 0 := by
  have hread : ∀ {p : Bool} {rest : List Char} {significand : Nat} {places : Int},
      (if p then none else parseExponent? rest >>= fun exponent =>
        some (ofDecimal true significand (exponent - places))) = some x → x.toWord = 0 := by
    intro p rest significand places h
    split at h
    · cases h
    · obtain ⟨exponent, -, h⟩ := Option.bind_eq_some_iff.1 h
      rw [← Option.some.inj h]
      exact toWord_ofDecimal_true _ _
  unfold parseUnsigned? at h
  simp only at h
  split at h <;> exact hread h

theorem toWord_of_minus {text : String} {cs : List Char} {x : Double}
    (htext : text.toList = '-' :: cs) (h : parse? text = some x) : x.toWord = 0 := by
  simp only [parse?, htext, takeSign] at h
  split at h
  · obtain rfl := Option.some.inj h
    rfl
  · obtain rfl := Option.some.inj h
    rfl
  · obtain rfl := Option.some.inj h
    rfl
  · exact toWord_of_parseUnsigned h

end Double

namespace Toml

theorem integer?_ne_float (n : Int) (x : Double) : integer? n ≠ some (.float x) := by
  unfold integer?
  split <;> simp

theorem toWord_of_parseFloat {cs : List Char} {x : Double}
    (h : parseFloat? ('-' :: cs) = some (.float x)) : x.toWord = 0 := by
  unfold parseFloat? at h
  simp only [Double.takeSign] at h
  split at h <;>
    (obtain ⟨exponent, -, h⟩ := Option.bind_eq_some_iff.1 h
     obtain ⟨whole, -, h⟩ := Option.bind_eq_some_iff.1 h
     split at h <;>
       (obtain ⟨fraction, -, h⟩ := Option.bind_eq_some_iff.1 h
        split at h
        · cases h
        · split at h
          · cases h
          · cases h
            exact Double.toWord_ofDecimal_true _ _))

theorem parseInteger?_ne_float (cs : List Char) (x : Double) :
    parseInteger? ('-' :: cs) ≠ some (.float x) := by
  intro h
  simp only [parseInteger?] at h
  obtain ⟨digits, -, h⟩ := Option.bind_eq_some_iff.1 h
  exact integer?_ne_float _ _ h

theorem toWord_of_parseSpecial {cs : List Char} {x : Double}
    (h : parseSpecial? ('-' :: cs) = some (.float x)) : x.toWord = 0 := by
  simp only [parseSpecial?, Double.takeSign] at h
  split at h <;> cases h <;> rfl

/-- A floating-point number that is written with a minus sign. -/
theorem toWord_of_minus {cs : List Char} {x : Double}
    (h : parseNumber? ('-' :: cs) = some (.float x)) : x.toWord = 0 := by
  unfold parseNumber? at h
  rcases (Option.orElse_eq_some _ _ _).1 h with h | ⟨-, h⟩
  · exact toWord_of_parseSpecial h
  · rcases (Option.orElse_eq_some _ _ _).1 h with h | ⟨-, h⟩
    · exact absurd h (parseInteger?_ne_float cs x)
    · exact toWord_of_parseFloat h

end Toml

/-! ## Negative numbers as settings -/

namespace Setting

theorem toWord_negative {k : Int} (hk : k < 0) (key : String) (origin : Option String) :
    (scalar origin (.int k)).toWord key = .error (.negative k key origin) := by
  rw [toWord, if_neg (Int.not_le.2 hk)]

theorem toWord_float {x : Double} (hx : x.toWord = 0) (key : String) (origin : Option String) :
    (scalar origin (.float x)).toWord key = .ok 0 := by
  rw [toWord, hx]

/-- A text spells no number if it has a minus sign. -/
theorem toWord_of_minus {text : String} {cs : List Char} (h : text.toList = '-' :: cs)
    (key : String) (origin : Option String) :
    (scalar origin (.text text)).toWord key =
      .error (.notInteger (scalar origin (.text text)) key) := by
  have hne : ∀ word ∈ ["true", "on", "yes", "false", "off", "no"], Text.lower text ≠ word := by
    have hhead : ∀ word ∈ ["true", "on", "yes", "false", "off", "no"],
        word.toList.head? ≠ some '-' := by decide
    exact fun word hword => Text.lower_ne_of_minus h (hhead word hword)
  have hnone : wordOfText? text = none := by
    simp only [List.forall_mem_cons] at hne
    simp [wordOfText?, hne, Text.parseNat_of_minus h, Except.toOption]
  simp only [toWord, hnone]

theorem ofVariable_minus {text : String} {cs : List Char} (h : text.toList = '-' :: cs)
    (key : String) :
    ofVariable key text =
      match Text.parseInt64 text, Double.parse? text with
      | .ok n, _ => .scalar environmentOrigin (.int n)
      | .error _, some d => .scalar environmentOrigin (.float d)
      | .error _, none => ofPlainText key text :=
  ofVariable_of_ne key (Text.lower_ne_of_minus h (by decide)) (Text.lower_ne_of_minus h (by decide))

end Setting

/-! ## The index and the number of places -/

/-- The fields that hold a word. -/
inductive WordField where
  | n
  | precision

namespace WordField

def field : WordField → Field
  | n => .n
  | precision => .precision

def get (c : Config) : WordField → UInt64
  | n => c.run.n
  | precision => c.output.precision

theorem decode_ne_ok {w : WordField} {v : Setting}
    (h : ∀ key, ∃ fault, v.toWord key = .error fault) (x : w.field.Value) :
    w.field.decode v ≠ .ok x := by
  cases w with
  | n =>
    obtain ⟨fault, hfault⟩ := h "run.n"
    change v.toWord "run.n" ≠ .ok x
    simp [hfault]
  | precision =>
    obtain ⟨fault, hfault⟩ := h "output.precision"
    change v.toWord "output.precision" ≠ .ok x
    simp [hfault]

/-- Zero is a value that both fields can be run with. -/
theorem exists_decode_zero {v : Setting} (h : ∀ key, v.toWord key = .ok 0) (w : WordField) :
    ∃ x : w.field.Value, w.field.decode v = .ok x ∧ w.field.Valid x ∧
      ∀ d : Config, d.get w.field = x → w.get d = 0 := by
  cases w with
  | n => exact ⟨(0 : UInt64), h "run.n", trivial, fun _ => id⟩
  | precision =>
    have hvalid : (0 : UInt64) ≤ maxPrecision := by decide
    exact ⟨(0 : UInt64), h "output.precision", hvalid, fun _ => id⟩

end WordField

/-- **A negative number is refused as an integer and counts as zero in any other form.** Whatever
the other layers hold, nothing is loaded if the last variable of the index or of the number of
places is a negative integer down to -2 ^ 63, or if no variable leads to the field and the document
has a negative integer or a text with a minus sign there. With any other number that is written with
a minus sign, a large integer in a variable among them, the rest is loaded as it is and the field is
zero. -/
theorem negative_number_refused_or_zero (w : WordField) (h : Host) (path : Option String) :
    (∀ {text : String} {rest : List (String × String)},
      w.field.InVariables text rest h.environment →
      (∀ digits m, text = "-" ++ digits → Text.IsDecimal digits m → 0 < m →
        m ≤ SignedWord.bound → ∃ e, Config.load h path = .error e) ∧
      (text.toList.head? = some '-' → (Double.parse? text).isSome →
        (∀ digits m, text = "-" ++ digits → Text.IsDecimal digits m → SignedWord.bound < m) →
        ∀ {document : Option Document} {c : Config}, h.document path = .ok document →
          Config.ReadsBut w.field document rest c →
          ∃ d, Config.load h path = .ok d ∧ w.get d = 0 ∧ Config.KeepsBut w.field c d)) ∧
    ∀ {value : Toml} {rest d : Document}, h.document path = .ok (some d) →
      w.field.InDocument value rest d → (∀ x ∈ h.environment, w.field.SparedBy x) →
      (∀ k, value = .int k → k < 0 → ∃ e, Config.load h path = .error e) ∧
      (∀ s, value = .str s → s.toList.head? = some '-' → ∃ e, Config.load h path = .error e) ∧
      ∀ x cs, value = .float x → Toml.parseNumber? ('-' :: cs) = some (.float x) →
        ∀ {c : Config}, Config.ReadsBut w.field (some rest) h.environment c →
          ∃ e, Config.load h path = .ok e ∧ w.get e = 0 ∧ Config.KeepsBut w.field c e := by
  refine ⟨?_, ?_⟩
  · intro text rest hin
    refine ⟨?_, ?_⟩
    · rintro digits m rfl hdigits hm hbound
      have hnegative : -(m : Int) < 0 := by omega
      apply Config.exists_load_error fun _ => Config.reach_layered_variable hin
      apply WordField.decode_ne_ok
      intro key
      have hchars : ("-" ++ digits).toList = '-' :: digits.toList := by simp
      rw [Setting.ofVariable_minus hchars, hdigits.parseInt64_minus hbound]
      exact ⟨_, Setting.toWord_negative hnegative key _⟩
    · intro hminus hnumber hlarge document c hdocument hrest
      obtain ⟨cs, hcs⟩ := List.head?_eq_some_iff.1 hminus
      obtain ⟨x, hx⟩ := Option.isSome_iff_exists.1 hnumber
      obtain ⟨fault, hfault⟩ := Text.exists_parseInt64_error hcs hlarge
      have hvariable : Setting.ofVariable w.field.key text =
          .scalar Setting.environmentOrigin (.float x) := by
        rw [Setting.ofVariable_minus hcs, hfault, hx]
      have hzero := Setting.toWord_float (Double.toWord_of_minus hcs hx)
      obtain ⟨value, hvalue, hvalid, hget⟩ :=
        w.exists_decode_zero fun key => hzero key Setting.environmentOrigin
      obtain ⟨d, hd, hfield, hkeeps⟩ :=
        Config.exists_load_variable hdocument hin hrest (hvariable ▸ hvalue) hvalid
      exact ⟨d, hd, hget d hfield, hkeeps⟩
  · intro value rest d hdocument hin henvironment
    have hplace : (Setting.ofToml d.origin value).IsLeaf → ∀ {document : Option Document}
        {tree : Setting}, h.document path = .ok document →
        layered document h.environment = .ok tree →
        Setting.reach w.field.path (some tree) = some (Setting.ofToml d.origin value) := by
      intro hleaf document tree hdocument' htree
      obtain rfl := Except.ok.inj (hdocument.symm.trans hdocument')
      exact Config.reach_layered_entry hin hleaf henvironment htree
    refine ⟨?_, ?_, ?_⟩
    · rintro k rfl hk
      apply Config.exists_load_error (hplace trivial)
      apply WordField.decode_ne_ok
      intro key
      rw [Setting.ofToml]
      exact ⟨_, Setting.toWord_negative hk key d.origin⟩
    · rintro s rfl hminus
      obtain ⟨cs, hcs⟩ := List.head?_eq_some_iff.1 hminus
      apply Config.exists_load_error (hplace trivial)
      apply WordField.decode_ne_ok
      intro key
      rw [Setting.ofToml]
      exact ⟨_, Setting.toWord_of_minus hcs key d.origin⟩
    · rintro x cs rfl hnumber c hrest
      have hzero := Setting.toWord_float (Toml.toWord_of_minus hnumber)
      obtain ⟨value, hvalue, hvalid, hget⟩ := w.exists_decode_zero fun key => hzero key d.origin
      rw [← Setting.ofToml] at hvalue
      obtain ⟨e, he, hfield, hkeeps⟩ :=
        Config.exists_load_entry hdocument hin henvironment hrest trivial hvalue hvalid
      exact ⟨e, he, hget e hfield, hkeeps⟩

/-- The least integer that is refused in a variable, the next one below it, which is not, and a
number with a fraction in a file. -/
theorem negative_number_refused_or_zero_bound :
    (∃ e, Config.load { Config.hostOfFile "c.toml" "" with
      environment := [("FIBSTACK_RUN__N", "-9223372036854775808")] } none = .error e) ∧
    (∃ d, Config.load { Config.hostOfFile "c.toml" "" with
      environment := [("FIBSTACK_OUTPUT__PRECISION", "-9223372036854775809")] } none = .ok d ∧
      d.output.precision = 0) ∧
    ∃ d, Config.load (Config.hostOfFile "c.toml" "[run]\nn = -1.0\n") (some "c.toml") = .ok d ∧
      d.run.n = 0 := by
  refine ⟨?_, ?_, ?_⟩
  · have hdigits : Text.IsDecimal "9223372036854775808" SignedWord.bound :=
      ⟨by decide, List.all_eq_true.1 (by decide), by decide⟩
    have hin : WordField.n.field.InVariables "-9223372036854775808" ([] ++ [])
        ([] ++ ("FIBSTACK_RUN__N", "-9223372036854775808") :: []) :=
      .mk (List.forall_mem_nil _)
    obtain ⟨hvariable, -⟩ := negative_number_refused_or_zero .n
      { Config.hostOfFile "c.toml" "" with
        environment := [("FIBSTACK_RUN__N", "-9223372036854775808")] } none
    exact (hvariable hin).1 _ _ rfl hdigits (by decide) (Nat.le_refl _)
  · let h : Host := { Config.hostOfFile "c.toml" "" with
      environment := [("FIBSTACK_OUTPUT__PRECISION", "-9223372036854775809")] }
    have hnone : h.findConfig? h.defaultConfigPath = none :=
      Option.isNone_iff_eq_none.1 (by decide +kernel)
    have hdocument : h.document none = .ok none := by
      rw [Host.document, Host.defaultDocument, hnone]
    have hlarge : ∀ digits m, "-9223372036854775809" = "-" ++ digits →
        Text.IsDecimal digits m → SignedWord.bound < m := by
      intro digits m heq hdigits
      obtain rfl : digits = "9223372036854775809" := by
        rw [← String.toList_inj] at heq ⊢
        simpa using heq.symm
      rw [← hdigits.value]
      decide
    have hin : WordField.precision.field.InVariables "-9223372036854775809" ([] ++ [])
        ([] ++ ("FIBSTACK_OUTPUT__PRECISION", "-9223372036854775809") :: []) :=
      .mk (List.forall_mem_nil _)
    obtain ⟨hvariable, -⟩ := negative_number_refused_or_zero .precision h none
    obtain ⟨d, hd, hzero, -⟩ :=
      (hvariable hin).2 (by decide) (by decide +kernel) hlarge hdocument .initial
    exact ⟨d, hd, hzero⟩
  · let x : Double := .finite true 4503599627370496 (-52)
    have hnumber : Toml.parseNumber? ['-', '1', '.', '0'] = some (.float x) := by
      have hx : Double.ofDecimal true (Nat.ofDigitChars 10 ['1', '0'] 0) (-1) = x := by
        decide +kernel
      simp [Toml.parseNumber?, Toml.parseSpecial?, Toml.parseInteger?, Toml.parseFloat?,
        Double.takeSign, Toml.wholeDigits?, Toml.ungroup?, Toml.isExponentMark, hx, x]
    let n : Toml.Pair := ⟨"n", ['-', '1', '.', '0'], .float x⟩
    have htables : Toml.IsDocument [("run", [n])] := by
      have hword : Toml.parseWord? ['-', '1', '.', '0'] = some (.float x) := by
        rw [← hnumber]
        rfl
      have hn : n.IsWritten :=
        ⟨by decide, Toml.renders_word (List.all_eq_true.1 (by decide)) (by decide) hword, rfl⟩
      exact .single (by decide) (List.forall_mem_singleton.2 hn) (by decide)
    have htext : "[run]\nn = -1.0\n" = String.ofList (Toml.documentLines [("run", [n])]) := by
      decide
    have hdocument := Host.document_hostOfFile [] (htext ▸ htables.parse?)
    have hin : WordField.n.field.InDocument (.float x)
        ⟨some "c.toml", [] ++ ("run", .table ([] ++ [])) :: []⟩
        ⟨some "c.toml", [] ++ ("run", .table ([] ++ ("n", .float x) :: [])) :: []⟩ :=
      .mk (List.forall_mem_nil _) (List.forall_mem_nil _)
    have hrest : Config.ReadsBut .n (some ⟨some "c.toml", [("run", .table [])]⟩) [] .initial :=
      Config.ReadsBut.of_ofLayers (eq_ok_of_toOption (by decide +kernel))
    obtain ⟨-, hentry⟩ := negative_number_refused_or_zero .n
      (Config.hostOfFile "c.toml" "[run]\nn = -1.0\n") (some "c.toml")
    obtain ⟨-, -, hfraction⟩ := hentry hdocument hin (List.forall_mem_nil _)
    obtain ⟨d, hd, hzero, -⟩ := hfraction x _ rfl hnumber hrest
    exact ⟨d, hd, hzero⟩

/-- A negative index that a file gives as a number with a fraction is not refused. -/
theorem negative_fraction_is_loaded :
    Config.load (Config.hostOfFile "c.toml" "[run]\nn = -1.0\n") (some "c.toml") =
      .ok ⟨⟨0, [.naive, .stack], 1⟩, ⟨.text, 2⟩⟩ :=
  eq_ok_of_toOption (by decide +kernel)

end Unroll
