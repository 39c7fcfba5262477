import Unroll.Text.Case
import Unroll.Text.Integer
import Unroll.Text.Split

/-!
# Plain texts

What the readers of texts do on the texts that programs write: digits (`Text.parseInt64_decimal`),
ASCII without capitals (`Text.lower_eq_self`), and pieces joined by a separator that none of them
contains (`Text.split_intercalate`, `Text.append_cons_inj`).
-/

namespace Unroll.Text

/-! ## Lower case -/

theorem lowerChar_of_ascii {c : Char} (h : c.toNat < 128) : lowerChar c = [c.toLower] := by
  have hall : ∀ i < 128, lowerChar (Char.ofNat i) = [(Char.ofNat i).toLower] := by decide +kernel
  have hc := hall c.toNat h
  rwa [Char.ofNat_toNat] at hc

theorem lowerAfter_of_ascii {cs : List Char} (before : List Char) (h : ∀ c ∈ cs, c.toNat < 128) :
    lowerAfter before cs = cs.map Char.toLower := by
  induction cs generalizing before with
  | nil => rfl
  | cons c cs ih =>
    have hc : c.toNat < 128 := h c List.mem_cons_self
    have hsigma : c ≠ '\u03A3' := by
      rintro rfl
      exact absurd hc (by decide)
    rw [lowerAfter, if_neg hsigma, lowerChar_of_ascii hc,
      ih _ fun d hd => h d (List.mem_cons_of_mem c hd)]
    rfl

/-- A character that the lower case keeps, wherever it stands. -/
def IsPlain (c : Char) : Prop :=
  c.toNat < 128 ∧ c.toLower = c

instance (c : Char) : Decidable (IsPlain c) :=
  inferInstanceAs (Decidable (_ ∧ _))

theorem lower_eq_self {s : String} (h : ∀ c ∈ s.toList, IsPlain c) : lower s = s := by
  have hmap : s.toList.map Char.toLower = s.toList := by
    rw [List.map_congr_left fun c hc => (h c hc).2, List.map_id']
  rw [lower, lowerAfter_of_ascii [] fun c hc => (h c hc).1, hmap, String.ofList_toList]

theorem isPlain_of_isDigit {c : Char} (h : c.isDigit) : IsPlain c := by
  have hall : ∀ i < 128, (Char.ofNat i).isDigit → IsPlain (Char.ofNat i) := by decide +kernel
  have hle : c.toNat ≤ 57 := by
    simp only [Char.isDigit, ge_iff_le, Bool.and_eq_true, decide_eq_true_eq] at h
    exact h.2
  have hc := hall c.toNat (by omega)
  rw [Char.ofNat_toNat] at hc
  exact hc h

/-! ## Digits -/

/-- A text of digits, of which some may be leading zeros, and its value. -/
structure IsDecimal (text : String) (n : Nat) : Prop where
  ne_nil : text.toList ≠ []
  isDigit : ∀ c ∈ text.toList, c.isDigit
  value : Nat.ofDigitChars 10 text.toList 0 = n

theorem toList_toString (n : Nat) : (toString n).toList = Nat.toDigits 10 n := by
  rw [Nat.toString_eq_repr, Nat.toList_repr]

theorem isDigit_toDigits {n : Nat} {c : Char} (h : c ∈ Nat.toDigits 10 n) : c.isDigit :=
  Nat.isDigit_of_mem_toDigits (by decide) (by decide) h

theorem isDecimal_toString (n : Nat) : IsDecimal (toString n) n := by
  refine ⟨?_, ?_, ?_⟩
  · rw [toList_toString]
    exact Nat.toDigits_ne_nil
  · intro c hc
    rw [toList_toString] at hc
    exact isDigit_toDigits hc
  · rw [toList_toString, Nat.ofDigitChars_ten_toDigits]

/-- A number has no leading zero. -/
theorem toDigits_of_zero {n : Nat} {ds : List Char} (h : Nat.toDigits 10 n = '0' :: ds) :
    ds = [] := by
  induction n using Nat.strongRecOn generalizing ds with
  | ind n ih =>
    by_cases hn : n < 10
    · rw [Nat.toDigits_of_lt_base hn] at h
      exact (List.cons.inj h).2.symm
    · rw [Nat.toDigits_of_base_le (by decide) (Nat.le_of_not_lt hn)] at h
      obtain ⟨d, front, hfront⟩ :=
        List.exists_cons_of_ne_nil (Nat.toDigits_ne_nil (b := 10) (n := n / 10))
      rw [hfront, List.cons_append] at h
      obtain ⟨rfl, -⟩ := List.cons.inj h
      -- the digits in front are a lone zero, which no quotient of a number from ten on has
      obtain rfl := ih (n / 10) (by omega) hfront
      have hvalue := Nat.ofDigitChars_ten_toDigits (n := n / 10)
      rw [hfront] at hvalue
      have hzero : n / 10 = 0 := hvalue.symm
      omega

theorem le_ofDigitChars (cs : List Char) (n : Nat) : n ≤ Nat.ofDigitChars 10 cs n := by
  induction cs generalizing n with
  | nil => exact Nat.le_refl n
  | cons c cs ih =>
    rw [Nat.ofDigitChars_cons]
    exact Nat.le_trans (by omega) (ih _)

theorem readMagnitude_of_le {limit : Nat} {cs : List Char} (excess : IntegerFault)
    (h : ∀ c ∈ cs, c.isDigit) (n : Nat) (hle : Nat.ofDigitChars 10 cs n ≤ limit) :
    readMagnitude limit excess n cs = .ok (Nat.ofDigitChars 10 cs n) := by
  induction cs generalizing n with
  | nil => rfl
  | cons c cs ih =>
    rw [Nat.ofDigitChars_cons] at hle ⊢
    have hnext := Nat.le_trans (le_ofDigitChars cs _) hle
    rw [readMagnitude, if_pos (h c List.mem_cons_self), if_pos hnext]
    exact ih (fun d hd => h d (List.mem_cons_of_mem c hd)) _ hle

theorem readDigits_decimal {limit n : Nat} {text : String} (excess : IntegerFault)
    (h : IsDecimal text n) (hle : n ≤ limit) : readDigits limit excess text.toList = .ok n := by
  rw [← h.value] at hle ⊢
  rw [readDigits]
  · exact readMagnitude_of_le excess h.isDigit 0 hle
  · exact h.ne_nil

theorem parseInt64_unsigned {text : String} {c : Char} {cs : List Char}
    (htext : text.toList = c :: cs) (hminus : c ≠ '-') (hplus : c ≠ '+') :
    parseInt64 text = (readDigits (SignedWord.bound - 1) .tooLarge text.toList).map Int.ofNat := by
  unfold parseInt64
  rw [htext]
  split
  · next hnil => cases hnil
  · next heq => exact absurd (List.cons.inj heq).1 hminus
  · next heq => exact absurd (List.cons.inj heq).1 hplus
  · rfl

theorem IsDecimal.exists_cons {text : String} {n : Nat} (h : IsDecimal text n) :
    ∃ c rest, text.toList = c :: rest ∧ c.isDigit := by
  obtain ⟨c, rest, heq⟩ := List.exists_cons_of_ne_nil h.ne_nil
  exact ⟨c, rest, heq, h.isDigit c (heq ▸ List.mem_cons_self)⟩

theorem ne_of_isDigit {c d : Char} (hc : c.isDigit) (hd : ¬ d.isDigit) : c ≠ d := by
  rintro rfl
  exact hd hc

theorem IsDecimal.parseInt64_eq {text : String} {n : Nat} (h : IsDecimal text n) :
    parseInt64 text = (readDigits (SignedWord.bound - 1) .tooLarge text.toList).map Int.ofNat := by
  obtain ⟨c, rest, htext, hc⟩ := h.exists_cons
  exact parseInt64_unsigned htext (ne_of_isDigit hc (by decide)) (ne_of_isDigit hc (by decide))

theorem parseInt64_decimal {n : Nat} {text : String} (h : IsDecimal text n)
    (hn : n < SignedWord.bound) : parseInt64 text = .ok n := by
  rw [h.parseInt64_eq, readDigits_decimal .tooLarge h (Nat.le_sub_one_of_lt hn)]
  rfl

theorem lower_decimal {n : Nat} {text : String} (h : IsDecimal text n) : lower text = text :=
  lower_eq_self fun c hc => isPlain_of_isDigit (h.isDigit c hc)

theorem IsDecimal.ne {n : Nat} {text word : String} (h : IsDecimal text n)
    (hword : ∃ c ∈ word.toList, ¬ c.isDigit) : text ≠ word := by
  rintro rfl
  obtain ⟨c, hc, hnot⟩ := hword
  exact hnot (h.isDigit c hc)

/-! ## Pieces -/

theorem splitChars_of_notMem {separator : Char} {piece : List Char} (h : separator ∉ piece) :
    splitChars separator piece = [piece] := by
  induction piece with
  | nil => rfl
  | cons c piece ih =>
    rw [List.mem_cons, not_or] at h
    rw [splitChars, ih h.2]
    exact if_neg (Ne.symm h.1)

theorem splitChars_ne_nil (separator : Char) (cs : List Char) : splitChars separator cs ≠ [] := by
  cases cs with
  | nil => exact List.cons_ne_nil _ _
  | cons c rest =>
    rw [splitChars]
    split
    · exact List.cons_ne_nil _ _
    · split <;> exact List.cons_ne_nil _ _

theorem splitChars_append {separator : Char} {piece : List Char} (rest : List Char)
    (h : separator ∉ piece) :
    splitChars separator (piece ++ separator :: rest) = piece :: splitChars separator rest := by
  induction piece with
  | nil =>
    obtain ⟨first, others, hrest⟩ :=
      List.exists_cons_of_ne_nil (splitChars_ne_nil separator rest)
    rw [List.nil_append, splitChars, hrest]
    exact if_pos rfl
  | cons c piece ih =>
    rw [List.mem_cons, not_or] at h
    rw [List.cons_append, splitChars, ih h.2]
    exact if_neg (Ne.symm h.1)

/-- The first separator divides a text in one way. -/
theorem append_cons_inj {separator : Char} {first second rest rest' : List Char}
    (h : separator ∉ first) (h' : separator ∉ second)
    (heq : first ++ separator :: rest = second ++ separator :: rest') :
    first = second ∧ rest = rest' := by
  have hpieces := congrArg (splitChars separator) heq
  rw [splitChars_append rest h, splitChars_append rest' h'] at hpieces
  obtain rfl := (List.cons.inj hpieces).1
  exact ⟨rfl, (List.cons.inj (List.append_cancel_left heq)).2⟩

/-- A separator at the end has an empty piece after it. -/
theorem splitChars_concat (separator : Char) (cs : List Char) :
    splitChars separator (cs ++ [separator]) = splitChars separator cs ++ [[]] := by
  induction cs with
  | nil => simp [splitChars]
  | cons c cs ih =>
    obtain ⟨piece, pieces, hcs⟩ := List.exists_cons_of_ne_nil (splitChars_ne_nil separator cs)
    rw [List.cons_append, splitChars, splitChars, ih, hcs, List.cons_append]
    by_cases hc : c = separator
    · simp [hc]
    · simp [hc]

theorem splitChars_intercalate {separator : Char} {pieces : List (List Char)} (hne : pieces ≠ [])
    (h : ∀ piece ∈ pieces, separator ∉ piece) :
    splitChars separator ([separator].intercalate pieces) = pieces := by
  induction pieces with
  | nil => exact absurd rfl hne
  | cons piece rest ih =>
    have hpiece := h piece List.mem_cons_self
    cases rest with
    | nil =>
      rw [List.intercalate_singleton]
      exact splitChars_of_notMem hpiece
    | cons next rest =>
      have hrest := ih (List.cons_ne_nil _ _) fun p hp => h p (List.mem_cons_of_mem piece hp)
      rw [List.intercalate_cons_cons, List.append_assoc, List.singleton_append,
        splitChars_append _ hpiece, hrest]

theorem split_intercalate {separator : Char} {pieces : List String} (hne : pieces ≠ [])
    (h : ∀ piece ∈ pieces, separator ∉ piece.toList) :
    split separator ((String.singleton separator).intercalate pieces) = pieces := by
  have hmap : pieces.map String.toList ≠ [] := mt List.map_eq_nil_iff.1 hne
  have hpieces : ∀ piece ∈ pieces.map String.toList, separator ∉ piece := by
    intro piece hpiece
    obtain ⟨p, hp, rfl⟩ := List.mem_map.1 hpiece
    exact h p hp
  rw [split, String.toList_intercalate, String.toList_singleton,
    splitChars_intercalate hmap hpieces, List.map_map]
  exact List.map_id'' (fun p => String.ofList_toList) pieces

/-- Pieces that are joined start with the first of them. -/
theorem exists_toList_intercalate (separator first : String) (rest : List String) :
    ∃ tail, (separator.intercalate (first :: rest)).toList = first.toList ++ tail := by
  rw [String.toList_intercalate]
  cases rest with
  | nil => exact ⟨[], by simp⟩
  | cons next rest =>
    rw [List.map_cons, List.map_cons, List.intercalate_cons_cons, List.append_assoc]
    exact ⟨_, rfl⟩

end Unroll.Text
