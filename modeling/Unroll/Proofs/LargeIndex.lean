import Mathlib.Data.List.TakeWhile
import Unroll.Proofs.Override
import Unroll.Proofs.Requests

/-!
# Indices beyond the signed words

The digits in a variable are tried as a signed integer first and then as a double-precision number.
So an index from 2 ^ 63 on goes through a number of fifty-three bits, and what arrives is the
nearest multiple of 2048, at most the largest word. The same digits on a command line arrive as they
are.
-/

namespace Unroll

/-! ## Digits that are too many for a signed integer -/

namespace Text

theorem readMagnitude_of_lt {limit : Nat} {cs : List Char} (excess : IntegerFault)
    (h : ∀ c ∈ cs, c.isDigit) {n : Nat} (hn : n ≤ limit) (hlt : limit < Nat.ofDigitChars 10 cs n) :
    readMagnitude limit excess n cs = .error excess := by
  induction cs generalizing n with
  | nil => exact absurd hlt (Nat.not_lt.2 hn)
  | cons c cs ih =>
    rw [List.forall_mem_cons] at h
    rw [Nat.ofDigitChars_cons] at hlt
    rw [readMagnitude, if_pos h.1]
    by_cases hnext : 10 * n + (c.toNat - '0'.toNat) ≤ limit
    · rw [if_pos hnext]
      exact ih h.2 hnext hlt
    · rw [if_neg hnext]

theorem IsDecimal.parseInt64_of_le {text : String} {n : Nat} (h : IsDecimal text n)
    (hn : SignedWord.bound ≤ n) : parseInt64 text = .error .tooLarge := by
  have hlt : SignedWord.bound - 1 < Nat.ofDigitChars 10 text.toList 0 := by
    rw [h.value]
    exact Nat.lt_of_lt_of_le (by decide) hn
  have hread := readMagnitude_of_lt .tooLarge h.isDigit (Nat.zero_le _) hlt
  rw [h.parseInt64_eq, readDigits, hread]
  · rfl
  · exact h.ne_nil

theorem IsDecimal.parseDouble {text : String} {n : Nat} (h : IsDecimal text n) :
    Double.parse? text = some (Double.ofDecimal false n 0) := by
  obtain ⟨c, rest, heq, hc⟩ := h.exists_cons
  have hword : ∀ word ∈ ["inf", "infinity", "nan"],
      String.ofList (text.toList.map Char.toLower) ≠ word := by
    intro word hword
    have hsame : text.toList.map Char.toLower = text.toList := by
      rw [List.map_congr_left fun d hd => (isPlain_of_isDigit (h.isDigit d hd)).2, List.map_id']
    rw [hsame, String.ofList_toList]
    simp only [List.mem_cons, List.not_mem_nil, or_false] at hword
    rcases hword with rfl | rfl | rfl
    · exact h.ne ⟨'i', by decide, by decide⟩
    · exact h.ne ⟨'i', by decide, by decide⟩
    · exact h.ne ⟨'n', by decide, by decide⟩
  have htake : text.toList.takeWhile Char.isDigit = text.toList :=
    List.takeWhile_eq_self_iff.2 h.isDigit
  have hdrop : text.toList.dropWhile Char.isDigit = [] :=
    List.dropWhile_eq_nil_iff.2 h.isDigit
  unfold Double.parse?
  rw [Toml.takeSign_digits h.isDigit]
  simp only
  split
  · next hinf => exact absurd hinf (hword _ (by decide))
  · next hinfinity => exact absurd hinfinity (hword _ (by decide))
  · next hnan => exact absurd hnan (hword _ (by decide))
  · simp [Double.parseUnsigned?, htake, hdrop, Double.parseExponent?, h.ne_nil, h.value]

end Text

/-! ## Rounding -/

/-- The multiple of a unit that is nearest to a number is that of `q`, and of two nearest ones the
even one counts. -/
structure IsNearest (unit n q : Nat) : Prop where
  above : 2 * n ≤ 2 * (unit * q) + unit
  below : 2 * (unit * q) ≤ 2 * n + unit
  even : 2 * n = 2 * (unit * q) + unit ∨ 2 * (unit * q) = 2 * n + unit → q % 2 = 0

theorem isNearest_roundDiv {unit : Nat} (hunit : 0 < unit) (n : Nat) :
    IsNearest unit n (roundDiv .toEven n unit) := by
  have hdiv := Nat.div_add_mod n unit
  have hmod := Nat.mod_lt n hunit
  have hnext := Nat.mul_succ unit (n / unit)
  unfold roundDiv
  simp only
  split
  · refine ⟨by omega, by omega, by omega⟩
  · split
    · refine ⟨?_, ?_, ?_⟩ <;> rw [hnext] <;> omega
    · rcases Nat.mod_two_eq_zero_or_one (n / unit) with heven | hodd
      · rw [heven, Nat.add_zero]
        refine ⟨by omega, by omega, fun _ => heven⟩
      · rw [hodd]
        refine ⟨?_, ?_, fun _ => by omega⟩ <;> rw [hnext] <;> omega

namespace Double

/-- From 2 ^ 63 on the numbers of the format are 2048 apart. A mantissa that is rounded up to 2 ^ 53
is the smallest one of the next exponent. -/
theorem ofRatio_of_le {n : Nat} (hlow : SignedWord.bound ≤ n) (hhigh : n < UInt64.size) :
    ofRatio false n 1 =
      if roundDiv .toEven n 2048 = Nat.pow 2 53 then .finite false (Nat.pow 2 52) 12
      else .finite false (roundDiv .toEven n 2048) 11 := by
  have hne : n ≠ 0 := by
    rintro rfl
    exact absurd hlow (by decide)
  have hestimate : max minExponent ((n.log2 : Int) - (Nat.log2 1) - 53) = 10 := by
    have hlog : n.log2 = 63 := (Nat.log2_eq_iff hne).2 ⟨hlow, hhigh⟩
    rw [hlog]
    decide
  have hwide : ¬ n / 1024 < Nat.pow 2 53 := by
    have hbound : Nat.pow 2 53 * 1024 ≤ n := hlow
    rw [Nat.not_lt, Nat.le_div_iff_mul_le (by decide)]
    exact hbound
  have hunits : inUnits n 1 10 = (n, 1024) := rfl
  have hunits' : inUnits n 1 (10 + 1) = (n, 2048) := rfl
  unfold ofRatio
  simp only [if_neg hne, hestimate, hunits, if_neg hwide, hunits']
  split
  · rfl
  · rfl

theorem toWord_ofRatio {n : Nat} (hlow : SignedWord.bound ≤ n) (hhigh : n < UInt64.size) :
    (ofRatio false n 1).toWord =
      UInt64.ofNat (min (2048 * roundDiv .toEven n 2048) (UInt64.size - 1)) := by
  rw [ofRatio_of_le hlow hhigh]
  split
  · next htop =>
    rw [htop]
    rfl
  · rw [Nat.mul_comm]
    rfl

theorem ofDecimal_of_lt {n : Nat} (hn : n ≠ 0) (hhigh : n < UInt64.size) :
    ofDecimal false n 0 = ofRatio false n 1 := by
  have hlength : (Nat.toDigits 10 n).length ≤ 20 :=
    (Nat.length_toDigits_le_iff (by decide) (by decide)).2 (Nat.lt_trans hhigh (by decide))
  unfold ofDecimal
  simp only
  rw [if_neg (by simp [hn]), if_neg (by omega), if_pos (by decide)]
  simp

end Double

/-! ## The index that arrives -/

open Config (Field)

theorem Setting.ofVariable_of_le {text : String} {n : Nat} (h : Text.IsDecimal text n)
    (key : String) (hlow : SignedWord.bound ≤ n) (hhigh : n < UInt64.size) :
    ofVariable key text = .scalar environmentOrigin (.float (Double.ofRatio false n 1)) := by
  have hne : n ≠ 0 := by
    rintro rfl
    exact absurd hlow (by decide)
  rw [ofVariable_decimal_eq key h, h.parseInt64_of_le hlow, h.parseDouble,
    Double.ofDecimal_of_lt hne hhigh]

/-- What a variable makes of an index. -/
def arrivingIndex (n : Nat) : Nat :=
  if n < SignedWord.bound then n else min (2048 * roundDiv .toEven n 2048) (UInt64.size - 1)

theorem arrivingIndex_of_lt {n : Nat} (h : n < SignedWord.bound) : arrivingIndex n = n :=
  if_pos h

theorem arrivingIndex_of_le {n : Nat} (h : SignedWord.bound ≤ n) :
    ∃ q, IsNearest 2048 n q ∧ arrivingIndex n = min (2048 * q) (UInt64.size - 1) :=
  ⟨_, isNearest_roundDiv (by decide) n, if_neg (Nat.not_lt.2 h)⟩

theorem arrivingIndex_lt_size {n : Nat} : arrivingIndex n < UInt64.size := by
  unfold arrivingIndex SignedWord.bound UInt64.size
  split <;> omega

/-- An index arrives as it is if it is no larger than a signed word, a multiple of 2048 or the
largest of all. -/
theorem arrivingIndex_eq_iff {n : Nat} (hn : n < UInt64.size) :
    arrivingIndex n = n ↔ n < SignedWord.bound ∨ 2048 ∣ n ∨ n = UInt64.size - 1 := by
  by_cases hlow : n < SignedWord.bound
  · simp [arrivingIndex_of_lt hlow, hlow]
  · obtain ⟨q, ⟨habove, hbelow, -⟩, heq⟩ := arrivingIndex_of_le (Nat.le_of_not_lt hlow)
    rw [heq]
    unfold UInt64.size at hn ⊢
    constructor
    · intro h
      right
      omega
    · rintro (hlt | ⟨k, rfl⟩ | rfl)
      · exact absurd hlt hlow
      · omega
      · omega

theorem decode_index {text : String} {n : UInt64} (h : Text.IsDecimal text n.toNat) :
    Field.n.decode (Setting.ofVariable Field.n.key text) =
      .ok (UInt64.ofNat (arrivingIndex n.toNat)) := by
  unfold arrivingIndex
  split
  · next hlt =>
    rw [Setting.ofVariable_decimal _ h hlt, UInt64.ofNat_toNat]
    exact Setting.toWord_int "run.n" Setting.environmentOrigin n
  · next hle =>
    rw [Setting.ofVariable_of_le h _ (Nat.le_of_not_lt hle) n.toNat_lt_size]
    show Except.ok _ = _
    rw [Double.toWord_ofRatio (Nat.le_of_not_lt hle) n.toNat_lt_size]

/-- A line with nothing but an index. -/
theorem CommandLine.parse_index {text : String} {n : UInt64} (h : Text.IsDecimal text n.toNat) :
    CommandLine.parse [text] = .ok { n := some n } := by
  let r : Request := { n := some n }
  have hspelled : r.Spelled [text] :=
    ⟨[.index n], [[text]], ⟨rfl, rfl, rfl, rfl, rfl, rfl, rfl, rfl⟩, .cons ⟨text, h, rfl⟩ .nil, rfl⟩
  exact hspelled.parse ⟨nofun, nofun, nofun⟩

/-- **A variable gives the index up to rounding.** Over any rest of a configuration that can be read
and run, the digits of a word in the variable of the index set it to that word below 2 ^ 63, and
from there on to the nearest multiple of 2048, or to the largest word if this is less. So the word
itself arrives only below 2 ^ 63, at multiples of 2048 and at the largest word, while the same
digits on a command line always give the word itself. -/
theorem variable_gives_rounded_index {h : Host} {path : Option String} {document : Option Document}
    {rest : List (String × String)} {c : Config} {text : String} {n : UInt64}
    (hdocument : h.document path = .ok document)
    (hin : Field.n.InVariables text rest h.environment) (hrest : Config.ReadsBut .n document rest c)
    (htext : Text.IsDecimal text n.toNat) :
    (∃ d, Config.load h path = .ok d ∧ Config.KeepsBut .n c d ∧
      (n.toNat < SignedWord.bound → d.run.n = n) ∧
      (SignedWord.bound ≤ n.toNat → ∃ q, IsNearest 2048 n.toNat q ∧
        d.run.n.toNat = min (2048 * q) (UInt64.size - 1)) ∧
      (d.run.n = n ↔ n.toNat < SignedWord.bound ∨ 2048 ∣ n.toNat ∨ n.toNat = UInt64.size - 1)) ∧
    ∃ line, CommandLine.parse [text] = .ok line ∧ ∀ e, (line.apply e).run.n = n := by
  obtain ⟨d, hload, hindex, hkeeps⟩ :=
    Config.exists_load_variable hdocument hin hrest (decode_index htext) trivial
  have hn : d.run.n.toNat = arrivingIndex n.toNat := by
    rw [show d.run.n = _ from hindex, UInt64.toNat_ofNat_of_lt' arrivingIndex_lt_size]
  refine ⟨⟨d, hload, hkeeps, ?_, ?_, ?_⟩, { n := some n }, CommandLine.parse_index htext,
    fun _ => rfl⟩
  · intro hlt
    rw [← UInt64.toNat_inj, hn, arrivingIndex_of_lt hlt]
  · intro hle
    rw [hn]
    exact arrivingIndex_of_le hle
  · rw [← UInt64.toNat_inj, hn, arrivingIndex_eq_iff n.toNat_lt_size]

/-- Halfway between two multiples of 2048, without a file and with a leading zero. -/
theorem variable_gives_rounded_index_halfway :
    let h : Host := { Config.hostOfFile "c.toml" "" with
      environment := [("FIBSTACK_RUN__N", "09223372036854776832")] }
    ∃ d, Config.load h none = .ok d ∧ d.run.n ≠ 9223372036854776832 ∧ d.run.runs = 1 := by
  intro h
  have hnone : h.findConfig? h.defaultConfigPath = none :=
    Option.isNone_iff_eq_none.1 (by decide +kernel)
  have hdocument : h.document none = .ok none := by
    rw [Host.document, Host.defaultDocument, hnone]
  have hin : Field.n.InVariables "09223372036854776832" ([] ++ [])
      ([] ++ ("FIBSTACK_RUN__N", "09223372036854776832") :: []) := .mk nofun
  have htext : Text.IsDecimal "09223372036854776832" (9223372036854776832 : UInt64).toNat :=
    ⟨by decide, List.all_eq_true.1 (by decide), by decide⟩
  obtain ⟨⟨d, hload, hkeeps, -, -, hiff⟩, -⟩ :=
    variable_gives_rounded_index hdocument hin .initial htext
  refine ⟨d, hload, ?_, ?_⟩
  · rw [Ne, hiff]
    decide
  · exact (hkeeps .runs nofun).elim id And.right

/-- The first index that a variable misses, which a command line gives. -/
theorem variable_misses_index :
    (∃ d, Config.load { Config.hostOfFile "c.toml" "" with
        environment := [("FIBSTACK_RUN__N", "9223372036854775809")] } none = .ok d ∧
      d.run.n = 9223372036854775808) ∧
    CommandLine.parse ["9223372036854775809"] = .ok { n := some 9223372036854775809 } := by
  refine ⟨⟨⟨⟨9223372036854775808, [.naive, .stack], 1⟩, ⟨.text, 2⟩⟩, ?_, rfl⟩, ?_⟩
  · exact eq_ok_of_toOption (by decide +kernel)
  · exact eq_ok_of_toOption (by decide +kernel)

end Unroll
