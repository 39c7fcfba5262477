import Mathlib.Algebra.Group.Nat.Defs
import Unroll.Proofs.JsonText
import Unroll.Proofs.ReportText

/-!
# Numbers that are not integers in JSON texts

A number with a fraction or an exponent is read as a double-precision number (`Json.IsNumber`),
whatever its digits are, as long as no zero stands before other digits in front of the point. The
shortest decimal of a number is written without such a zero, because it is not zero itself
(`Double.significand_shortest_pos`): the search for it begins at a power of ten that is not above
the number, and goes down. So every finite number has a text that is read as a number
(`Json.exists_readsAs_float`).
-/

namespace Unroll

/-! ## Numbers as they are written -/

namespace Json

/-- The digits in front of the point. A zero stands there alone. -/
structure IsWhole (ds : List Char) : Prop where
  ne_nil : ds ≠ []
  isDigit : ∀ c ∈ ds, c.isDigit
  alone : ∀ tail, ds = '0' :: tail → tail = []

/-- A fraction with its point, or none, and its digits. -/
inductive IsFraction : List Char → List Char → Prop
  | none : IsFraction [] []
  | point {ds : List Char} (hne : ds ≠ []) (hds : ∀ c ∈ ds, c.isDigit) : IsFraction ('.' :: ds) ds

/-- An exponent with its sign, or none, and its value. -/
inductive IsExponent : List Char → Option Int → Prop
  | none : IsExponent [] none
  | minus {ds : List Char} (hne : ds ≠ []) (hds : ∀ c ∈ ds, c.isDigit) :
      IsExponent ('e' :: '-' :: ds) (some (-(Nat.ofDigitChars 10 ds 0 : Int)))
  | plus {ds : List Char} (hne : ds ≠ []) (hds : ∀ c ∈ ds, c.isDigit) :
      IsExponent ('e' :: '+' :: ds) (some (Nat.ofDigitChars 10 ds 0 : Int))

/-- An unsigned number with a fraction or an exponent. -/
inductive IsNumber : List Char → Prop
  | parts {whole point fraction mark : List Char} {exponent : Option Int} (hwhole : IsWhole whole)
      (hfraction : IsFraction point fraction) (hexponent : IsExponent mark exponent)
      (hsome : fraction = [] → exponent ≠ none) : IsNumber (whole ++ (point ++ mark))

theorem isWhole_cons {c : Char} {ds : List Char} (hc : c ≠ '0') (hds : ∀ d ∈ c :: ds, d.isDigit) :
    IsWhole (c :: ds) :=
  ⟨List.cons_ne_nil c ds, hds, fun _ h => absurd (List.cons.inj h).1 hc⟩

theorem isWhole_singleton {c : Char} (hc : c.isDigit) : IsWhole [c] :=
  ⟨List.cons_ne_nil c [], List.forall_mem_singleton.2 hc, fun _ h => (List.cons.inj h).2.symm⟩

theorem isNumber_point {whole ds : List Char} (hwhole : IsWhole whole) (hne : ds ≠ [])
    (hds : ∀ c ∈ ds, c.isDigit) : IsNumber (whole ++ '.' :: ds) := by
  have h := IsNumber.parts hwhole (.point hne hds) .none fun hnil => absurd hnil hne
  rwa [List.append_nil] at h

theorem IsFraction.readFraction? {text ds rest : List Char} (h : IsFraction text ds)
    (hrest : ∀ c ∈ rest.head?, c.isDigit = false ∧ c ≠ '.') :
    readFraction? (text ++ rest) = some (ds, rest) := by
  cases h with
  | none =>
    rw [List.nil_append, Json.readFraction?]
    rintro tail rfl
    exact (hrest '.' rfl).2 rfl
  | point hne hds => exact readDigits?_append hne hds fun c hc => (hrest c hc).1

theorem IsFraction.isDigit_head {text ds rest : List Char} (h : IsFraction text ds)
    (hrest : ∀ c ∈ rest.head?, c.isDigit = false ∧ c ≠ '.') :
    ∀ c ∈ (text ++ rest).head?, c.isDigit = false := by
  cases h with
  | none => exact fun c hc => (hrest c hc).1
  | point =>
    intro c hc
    obtain rfl := Option.mem_some_iff.1 hc
    decide

theorem IsExponent.readExponent? {text rest : List Char} {exponent : Option Int}
    (h : IsExponent text exponent) (hrest : Ends rest) :
    readExponent? (text ++ rest) = some (exponent, rest) := by
  cases h with
  | none => exact readExponent?_of_ends hrest
  | minus hne hds =>
    have hread := readDigits?_append hne hds hrest.isDigit_head
    simp [Json.readExponent?, Double.takeSign, hread]
  | plus hne hds =>
    have hread := readDigits?_append hne hds hrest.isDigit_head
    simp [Json.readExponent?, Double.takeSign, hread]

theorem IsExponent.head {text rest : List Char} {exponent : Option Int}
    (h : IsExponent text exponent) (hrest : Ends rest) :
    ∀ c ∈ (text ++ rest).head?, c.isDigit = false ∧ c ≠ '.' := by
  cases h with
  | none =>
    intro c hc
    obtain ⟨tail, rfl⟩ := List.head?_eq_some_iff.1 hc
    exact ⟨hrest.head.1, hrest.head.2.1⟩
  | minus =>
    intro c hc
    obtain rfl := Option.mem_some_iff.1 hc
    decide
  | plus =>
    intro c hc
    obtain rfl := Option.mem_some_iff.1 hc
    decide

/-- Only an integer is read as one. -/
theorem IsNumber.exists_readUnsigned? {cs : List Char} (h : IsNumber cs) (negative : Bool) :
    ∃ d, ∀ {rest}, Ends rest → readUnsigned? negative (cs ++ rest) = some (.float d, rest) := by
  obtain @⟨whole, point, fraction, mark, exponent, hwhole, hfraction, hexponent, hsome⟩ := h
  refine ⟨.ofDecimal negative (Nat.ofDigitChars 10 (whole ++ fraction) 0)
    (exponent.getD 0 - fraction.length), ?_⟩
  intro rest hrest
  have hmark := hexponent.readExponent? hrest
  have hpoint := hfraction.readFraction? (hexponent.head hrest)
  have hdigits := readDigits?_append hwhole.ne_nil hwhole.isDigit
    (hfraction.isDigit_head (hexponent.head hrest))
  obtain ⟨d, ds, rfl⟩ := List.exists_cons_of_ne_nil hwhole.ne_nil
  simp only [List.append_assoc, List.cons_append] at hdigits ⊢
  by_cases hzero : d = '0'
  · -- the reader takes a zero for all digits before the point
    subst hzero
    obtain rfl := hwhole.alone ds rfl
    simp +contextual [readUnsigned?, hpoint, hmark, hsome]
  · simp +contextual [readUnsigned?, hzero, hdigits, hpoint, hmark, hsome]

theorem IsNumber.exists_readsAs {cs : List Char} (h : IsNumber cs) (negative : Bool) :
    ∃ d, ReadsAs (Double.signChars negative ++ cs) (.float d) := by
  obtain ⟨d, hread⟩ := h.exists_readUnsigned? negative
  refine ⟨d, ?_⟩
  cases negative with
  | true => exact readsAs_number (.inr rfl) hread
  | false =>
    obtain @⟨whole, point, fraction, mark, exponent, hwhole, -, -, -⟩ := h
    obtain ⟨c, ds, rfl⟩ := List.exists_cons_of_ne_nil hwhole.ne_nil
    have hc : c.isDigit := hwhole.isDigit c List.mem_cons_self
    refine readsAs_number (.inl hc) fun {rest} hrest => ?_
    have hminus : c ≠ '-' := Text.ne_of_isDigit hc (by decide)
    rw [readNumber?]
    · exact hread hrest
    · intro tail htail
      exact hminus (List.cons.inj htail).1

end Json

/-! ## The shortest decimal is not zero -/

theorem le_roundDiv (tie : Tie) (num den : Nat) : num / den ≤ roundDiv tie num den := by
  unfold roundDiv
  dsimp only
  split
  · exact le_rfl
  · split
    · exact Nat.le_succ _
    · cases tie with
      | away => exact Nat.le_succ _
      | toEven => exact Nat.le_add_right _ _

theorem Text.pow_length_toDigits_le {n : Nat} (hn : n ≠ 0) :
    10 ^ ((Nat.toDigits 10 n).length - 1) ≤ n := by
  by_contra hlt
  rcases Nat.eq_zero_or_pos ((Nat.toDigits 10 n).length - 1) with hone | hpos
  · rw [hone] at hlt
    omega
  · have hlength := (Nat.length_toDigits_le_iff (by decide) hpos).2 (Nat.not_le.1 hlt)
    omega

theorem Text.lt_pow_length_toDigits (n : Nat) : n < 10 ^ (Nat.toDigits 10 n).length :=
  (Nat.length_toDigits_le_iff (by decide) (List.length_pos_iff.2 Nat.toDigits_ne_nil)).1 le_rfl

/-- A number other than zero does not start with one. -/
theorem Text.exists_toDigits_eq_cons {n : Nat} (hn : 0 < n) :
    ∃ c cs, Nat.toDigits 10 n = c :: cs ∧ c ≠ '0' := by
  obtain ⟨c, cs, hcs⟩ := List.exists_cons_of_ne_nil (Nat.toDigits_ne_nil (b := 10) (n := n))
  refine ⟨c, cs, hcs, ?_⟩
  rintro rfl
  obtain rfl := toDigits_of_zero hcs
  have hvalue := Nat.ofDigitChars_ten_toDigits (n := n)
  rw [hcs] at hvalue
  exact hn.ne hvalue

namespace Double

namespace Interval

variable {tie : Tie} {i : Interval} {grid : Int}

/-- A grid point other than zero is not above the value. -/
def Reaches (i : Interval) (grid : Int) : Prop :=
  i.gridPoint 1 grid ≤ i.value * scale grid

theorem reaches_iff :
    i.Reaches grid ↔ 10 ^ grid.toNat * i.den ≤ i.value * 10 ^ (-grid).toNat := by
  unfold Reaches gridPoint scale
  by_cases hgrid : 0 ≤ grid
  · have habs : grid.natAbs = grid.toNat := by omega
    have hneg : (-grid).toNat = 0 := by omega
    simp [hgrid, habs, hneg]
  · have habs : grid.natAbs = (-grid).toNat := by omega
    have hpos : grid.toNat = 0 := by omega
    simp [hgrid, habs, hpos]

theorem Reaches.pred (h : i.Reaches grid) : i.Reaches (grid - 1) := by
  rw [reaches_iff] at h ⊢
  have hup : (grid - 1).toNat ≤ grid.toNat := by omega
  have hdown : (-grid).toNat ≤ (-(grid - 1)).toNat := by omega
  calc 10 ^ (grid - 1).toNat * i.den
      ≤ 10 ^ grid.toNat * i.den := Nat.mul_le_mul_right _ (Nat.pow_le_pow_right (by decide) hup)
    _ ≤ i.value * 10 ^ (-grid).toNat := h
    _ ≤ i.value * 10 ^ (-(grid - 1)).toNat :=
      Nat.mul_le_mul_left _ (Nat.pow_le_pow_right (by decide) hdown)

theorem reaches_magnitude (hden : 0 < i.den) (hvalue : 0 < i.value) : i.Reaches i.magnitude := by
  rw [reaches_iff]
  unfold magnitude
  split
  case isTrue hle =>
    have hpow := Text.pow_length_toDigits_le (Nat.div_pos hle hden).ne'
    generalize (Nat.toDigits 10 (i.value / i.den)).length = digits at hpow ⊢
    have hup : (digits - 1 : Int).toNat = digits - 1 := by omega
    rw [hup]
    exact ((Nat.le_div_iff_mul_le hden).1 hpow).trans
      (Nat.le_mul_of_pos_right _ (Nat.pow_pos (by decide)))
  case isFalse =>
    -- below one it is the inverse of the value that has digits before the point
    have hpos := List.length_pos_iff.2 (Nat.toDigits_ne_nil (b := 10) (n := i.den / i.value))
    have hpow := Text.lt_pow_length_toDigits (i.den / i.value)
    generalize (Nat.toDigits 10 (i.den / i.value)).length = digits at hpos hpow ⊢
    dsimp only
    split
    case isTrue heq =>
      have hup : (1 - digits : Int).toNat = 0 := by omega
      have hdown : (-(1 - digits : Int)).toNat = digits - 1 := by omega
      rw [hup, hdown, Nat.pow_zero, Nat.one_mul]
      exact heq.ge
    case isFalse =>
      have hup : (-digits : Int).toNat = 0 := by omega
      have hdown : (-(-digits : Int)).toNat = digits := by omega
      rw [hup, hdown, Nat.pow_zero, Nat.one_mul]
      exact ((Nat.div_lt_iff_lt_mul hvalue).1 hpow).le.trans_eq (Nat.mul_comm _ _)

theorem gridPoint_pos (hden : 0 < i.den) : 0 < i.gridPoint 1 grid := by
  unfold gridPoint
  split
  · exact Nat.mul_pos (Nat.mul_pos Nat.one_pos (Nat.pow_pos (by decide))) hden
  · exact Nat.mul_pos Nat.one_pos hden

theorem quotient_pos (hden : 0 < i.den) (h : i.Reaches grid) :
    0 < i.value * scale grid / i.gridPoint 1 grid :=
  Nat.div_pos h (gridPoint_pos hden)

theorem nearest?_pos (hden : 0 < i.den) (h : i.Reaches grid) {k : Nat}
    (hk : i.nearest? tie grid = some k) : 0 < k := by
  have hbelow := quotient_pos hden h
  unfold nearest? at hk
  dsimp only at hk
  split at hk
  · obtain rfl := Option.some.inj hk
    exact hbelow.trans_le (le_roundDiv _ _ _)
  · obtain rfl := Option.some.inj hk
    exact hbelow
  · obtain rfl := Option.some.inj hk
    exact Nat.succ_pos _
  · cases hk

theorem significand_search_pos (hden : 0 < i.den) (h : i.Reaches grid) (fuel : Nat) :
    0 < (i.search tie grid fuel).significand := by
  -- the grid only gets finer, so it goes on reaching the value
  induction fuel generalizing grid with
  | zero => exact quotient_pos hden h
  | succ fuel ih =>
    rw [search]
    split
    case h_1 k hk => exact nearest?_pos hden h hk
    case h_2 => exact ih h.pred

end Interval

theorem Decimal.significand_normalize_pos {d : Decimal} (h : 0 < d.significand) :
    0 < d.normalize.significand := by
  induction d using normalize.induct with
  | case1 d hzeros ih =>
    rw [normalize, dif_pos hzeros]
    have hten : 10 ≤ d.significand := by omega
    exact ih (Nat.div_pos hten (by decide))
  | case2 d hzeros => rwa [normalize, dif_neg hzeros]

theorem intervalOf_pos {mantissa : Nat} (h : mantissa ≠ 0) (exponent : Int) :
    0 < (intervalOf mantissa exponent).den ∧ 0 < (intervalOf mantissa exponent).value := by
  have hquarters : 0 < 4 * mantissa := Nat.mul_pos (by decide) (Nat.pos_of_ne_zero h)
  have hunit : ∀ k, 0 < Nat.pow 2 k := Nat.two_pow_pos
  unfold intervalOf
  dsimp only
  split
  · exact ⟨Nat.one_pos, Nat.mul_pos hquarters (hunit _)⟩
  · exact ⟨hunit _, Nat.mul_pos hquarters Nat.one_pos⟩

theorem significand_shortest_pos (tie : Tie) {mantissa : Nat} (h : mantissa ≠ 0) (exponent : Int) :
    0 < (shortest tie mantissa exponent).significand := by
  obtain ⟨hden, hvalue⟩ := intervalOf_pos h exponent
  exact Decimal.significand_normalize_pos
    (Interval.significand_search_pos hden (Interval.reaches_magnitude hden hvalue) 17)

/-! ## Layouts -/

namespace Decimal

theorem isNumber_positional {d : Decimal} (h : 0 < d.significand) :
    Json.IsNumber d.positional := by
  have hdigits : ∀ c ∈ Nat.toDigits 10 d.significand, c.isDigit := fun c => Text.isDigit_toDigits
  have hzeros : ∀ count, ∀ c ∈ List.replicate count '0', c.isDigit := by
    intro count c hc
    rw [List.eq_of_mem_replicate hc]
    rfl
  obtain ⟨c, cs, hcs, hc⟩ := Text.exists_toDigits_eq_cons h
  unfold positional
  rw [hcs] at hdigits ⊢
  dsimp only
  split
  case isTrue =>
    -- the point comes after zeros behind the digits
    exact Json.isNumber_point
      (Json.isWhole_cons hc (List.forall_mem_append.2 ⟨hdigits, hzeros _⟩))
      (List.cons_ne_nil _ _) (List.forall_mem_singleton.2 rfl)
  case isFalse hexponent =>
    split
    case isTrue hplaces =>
      -- between two digits, so that the first one is still in front
      obtain ⟨front, hfront⟩ := Nat.exists_eq_add_of_lt hplaces
      have hlength : (c :: cs).length - d.exponent.natAbs = front + 1 := by omega
      rw [hlength]
      refine Json.isNumber_point (Json.isWhole_cons hc ?_) ?_ ?_
      · exact fun x hx => hdigits x (List.mem_of_mem_take (i := front + 1) hx)
      · rw [ne_eq, List.drop_eq_nil_iff]
        omega
      · exact fun x hx => hdigits x (List.mem_of_mem_drop hx)
    case isFalse =>
      -- before all of them, with a zero of its own in front
      exact Json.isNumber_point (Json.isWhole_singleton rfl)
        (List.append_ne_nil_of_right_ne_nil _ (List.cons_ne_nil c cs))
        (List.forall_mem_append.2 ⟨hzeros _, hdigits⟩)

theorem isNumber_scientific (d : Decimal) : Json.IsNumber d.scientific := by
  have hdigits : ∀ c ∈ Nat.toDigits 10 d.significand, c.isDigit := fun c => Text.isDigit_toDigits
  have hmark : ∃ exponent : Int, Json.IsExponent
      ('e' :: (if d.leading < 0 then '-' else '+') :: Nat.toDigits 10 d.leading.natAbs)
      (some exponent) := by
    split
    · exact ⟨_, .minus Nat.toDigits_ne_nil fun c => Text.isDigit_toDigits⟩
    · exact ⟨_, .plus Nat.toDigits_ne_nil fun c => Text.isDigit_toDigits⟩
  obtain ⟨exponent, hmark⟩ := hmark
  unfold scientific
  dsimp only
  split
  case h_1 hnil => exact absurd hnil Nat.toDigits_ne_nil
  case h_2 first hone =>
    rw [hone, List.forall_mem_singleton] at hdigits
    exact .parts (Json.isWhole_singleton hdigits) .none hmark nofun
  case h_3 first rest hrest hmore =>
    rw [hmore, List.forall_mem_cons] at hdigits
    have hne : rest ≠ [] := by
      rintro rfl
      exact hrest rfl
    exact .parts (Json.isWhole_singleton hdigits.1) (.point hne hdigits.2) hmark nofun

end Decimal

end Double

namespace Json

/-- What a text keeps of a number: that it is one, and nothing if it is not finite. -/
inductive NumberOrNull : Double → Json → Prop
  | number {d d' : Double} (h : d.IsFinite) : NumberOrNull d (.float d')
  | null {d : Double} (h : ¬ d.IsFinite) : NumberOrNull d .null

theorem exists_floatChars_finite (negative : Bool) (mantissa : Nat) (exponent : Int) :
    ∃ cs, IsNumber cs ∧
      floatChars (.finite negative mantissa exponent) = Double.signChars negative ++ cs := by
  unfold floatChars Double.json?
  dsimp only
  rw [String.toList_ofList]
  refine ⟨_, ?_, rfl⟩
  split
  case isTrue =>
    exact isNumber_point (isWhole_singleton rfl) (List.cons_ne_nil _ _)
      (List.forall_mem_singleton.2 rfl)
  case isFalse hmantissa =>
    have hpos := Double.significand_shortest_pos .toEven hmantissa exponent
    split
    · exact Double.Decimal.isNumber_positional hpos
    · exact Double.Decimal.isNumber_scientific _

/-- Every number has a text that is read as JSON. -/
theorem exists_readsAs_float (d : Double) : ∃ v, ReadsAs (floatChars d) v ∧ NumberOrNull d v := by
  cases d with
  | infinite => exact ⟨.null, readsAs_null, .null id⟩
  | nan => exact ⟨.null, readsAs_null, .null id⟩
  | finite negative mantissa exponent =>
    obtain ⟨cs, hcs, htext⟩ := exists_floatChars_finite negative mantissa exponent
    obtain ⟨d', hread⟩ := hcs.exists_readsAs negative
    exact ⟨.float d', htext ▸ hread, .number trivial⟩

end Json

end Unroll
