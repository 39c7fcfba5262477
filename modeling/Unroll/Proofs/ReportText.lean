import Mathlib.Data.List.Forall2
import Unroll.Report
import Unroll.Proofs.PlainText

/-!
# Texts of reports

A text report has two lines for each measurement, and no line has a line end in it, so that the text
can be taken apart again (`Report.split_text`). Each part of a line ends with a character that the
part itself has not: a label at the bracket, an index at the other one, a time at its unit. So two
lines are the same only if all their parts are (`Report.lines_eq_iff`).
-/

namespace Unroll

/-! ## Decimals -/

namespace Double

/-- Neither an infinity nor what is no number. -/
def IsFinite : Double → Prop
  | finite _ _ _ => True
  | infinite _ => False
  | nan => False

theorem isDigit_or_point_of_mem_placed {value places : Nat} {c : Char}
    (h : c ∈ placed value places) : c.isDigit ∨ c = '.' := by
  have hdigit : c ∈ List.replicate (places + 1 - (Nat.toDigits 10 value).length) '0' ++
      Nat.toDigits 10 value → c.isDigit := by
    intro hc
    rcases List.mem_append.1 hc with hzero | hdigits
    · obtain rfl := List.eq_of_mem_replicate hzero
      decide
    · exact Text.isDigit_toDigits hdigits
  unfold placed at h
  split at h
  · exact .inl (hdigit h)
  · rcases List.mem_append.1 h with hwhole | hrest
    · exact .inl (hdigit (List.mem_of_mem_take hwhole))
    · rcases List.mem_cons.1 hrest with hpoint | hplaces
      · exact .inr hpoint
      · exact .inl (hdigit (List.mem_of_mem_drop hplaces))

theorem isDigit_or_point_of_mem_fixedChars {places mantissa : Nat} {exponent : Int} {c : Char}
    (h : c ∈ fixedChars places mantissa exponent) : c.isDigit ∨ c = '.' := by
  have hzeros : ∀ {count : Nat}, c ∈ List.replicate count '0' → c.isDigit := by
    intro count hc
    obtain rfl := List.eq_of_mem_replicate hc
    decide
  unfold fixedChars at h
  split at h
  · simp only at h
    split at h
    · exact .inl (Text.isDigit_toDigits h)
    · rcases List.mem_append.1 h with hwhole | hrest
      · exact .inl (Text.isDigit_toDigits hwhole)
      · rcases List.mem_cons.1 hrest with hpoint | hc
        · exact .inr hpoint
        · exact .inl (hzeros hc)
  · rcases List.mem_append.1 h with hplaced | hc
    · exact isDigit_or_point_of_mem_placed hplaced
    · exact .inl (hzeros hc)

/-- A finite number is written with digits, a point and a minus sign. -/
theorem IsFinite.mem_fixed {d : Double} (hd : d.IsFinite) {places : Nat} {c : Char}
    (h : c ∈ (d.fixed places).toList) : c.isDigit ∨ c = '.' ∨ c = '-' := by
  cases d with
  | infinite => exact hd.elim
  | nan => exact hd.elim
  | finite negative mantissa exponent =>
    rw [fixed, String.toList_ofList] at h
    rcases List.mem_append.1 h with hsign | hc
    · cases negative with
      | false => cases hsign
      | true => exact .inr (.inr (List.mem_singleton.1 hsign))
    · rcases isDigit_or_point_of_mem_fixedChars hc with hdigit | hpoint
      · exact .inl hdigit
      · exact .inr (.inl hpoint)

theorem IsFinite.notMem_fixed {d : Double} (hd : d.IsFinite) (places : Nat) {c : Char}
    (hdigit : ¬ c.isDigit) (hpoint : c ≠ '.') (hminus : c ≠ '-') :
    c ∉ (d.fixed places).toList := by
  intro h
  rcases hd.mem_fixed h with h | h | h
  · exact hdigit h
  · exact hpoint h
  · exact hminus h

end Double

/-! ## The parts of a line -/

theorem Text.toDigits_inj {m n : Nat} (h : Nat.toDigits 10 m = Nat.toDigits 10 n) : m = n := by
  rw [← Nat.ofDigitChars_ten_toDigits (n := m), h, Nat.ofDigitChars_ten_toDigits]

theorem Text.notMem_toDigits {c : Char} (h : ¬ c.isDigit) (n : Nat) : c ∉ Nat.toDigits 10 n :=
  fun hc => h (isDigit_toDigits hc)

theorem Method.label_inj {m m' : Method} (h : m.label = m'.label) : m = m' := by
  cases m <;> cases m' <;> simp_all [label]

/-- A measurement has the label of its method, and its time is a number. -/
structure Measurement.IsRegular (m : Measurement) : Prop where
  label_eq : m.label = m.method.label
  isFinite : m.meanMs.IsFinite

/-- All that a text report shows of two measurements is the same. One run is not told from none, and
of the mean only some digits are seen. -/
structure Measurement.ShownAlike (precision : Nat) (m m' : Measurement) : Prop where
  method_eq : m.method = m'.method
  value_eq : m.value = m'.value
  runs_eq : m.runs = m'.runs ∨ m.runs ≤ 1 ∧ m'.runs ≤ 1
  mean_eq : m.meanMs.fixed precision = m'.meanMs.fixed precision

namespace Report

theorem toList_valueLine (n : UInt64) (m : Measurement) :
    (valueLine n m).toList = m.label.toList ++ '(' :: (Nat.toDigits 10 n.toNat ++
      ')' :: ' ' :: '=' :: ' ' :: Nat.toDigits 10 m.value.toNat) := by
  simp [valueLine, callText, String.toList_append]

/-- What is said of the runs behind the time. -/
def runsText (runs : UInt32) : String :=
  if 1 < runs then " (mean of " ++ toString runs.toNat ++ " runs)" else ""

theorem toList_timeLine (precision : Nat) (m : Measurement) :
    (timeLine precision m).toList = "Time: ".toList ++ ((m.meanMs.fixed precision).toList ++
      'm' :: 's' :: (runsText m.runs).toList) := by
  simp [timeLine, runsText, String.toList_append]

theorem runsText_of_le {runs : UInt32} (h : runs ≤ 1) : runsText runs = "" :=
  if_neg (UInt32.not_lt.2 h)

theorem toList_runsText {runs : UInt32} (h : 1 < runs) :
    (runsText runs).toList = " (mean of ".toList ++ (Nat.toDigits 10 runs.toNat ++
      ' ' :: "runs)".toList) := by
  simp [runsText, h, String.toList_append]

theorem runsText_ne_empty {runs : UInt32} (h : 1 < runs) : runsText runs ≠ "" := by
  rw [← String.toList_inj.ne, toList_runsText h]
  exact List.cons_ne_nil _ _

theorem valueLine_inj {n n' : UInt64} {m m' : Measurement} (hm : m.label = m.method.label)
    (hm' : m'.label = m'.method.label) (h : valueLine n m = valueLine n' m') :
    n = n' ∧ m.method = m'.method ∧ m.value = m'.value := by
  have hlabel : ∀ method : Method, '(' ∉ method.label.toList := by
    intro method
    cases method <;> decide
  have hbracket := Text.notMem_toDigits (c := ')') (by decide)
  rw [← String.toList_inj, toList_valueLine, toList_valueLine, hm, hm'] at h
  obtain ⟨hmethod, h⟩ := Text.append_cons_inj (hlabel _) (hlabel _) h
  obtain ⟨hn, h⟩ := Text.append_cons_inj (hbracket _) (hbracket _) h
  simp only [List.cons.injEq, true_and] at h
  exact ⟨UInt64.toNat_inj.1 (Text.toDigits_inj hn), Method.label_inj (String.toList_inj.1 hmethod),
    UInt64.toNat_inj.1 (Text.toDigits_inj h)⟩

theorem runsText_inj {runs runs' : UInt32} (h : 1 < runs) (h' : 1 < runs')
    (heq : runsText runs = runsText runs') : runs = runs' := by
  have hblank := Text.notMem_toDigits (c := ' ') (by decide)
  rw [← String.toList_inj, toList_runsText h, toList_runsText h'] at heq
  obtain ⟨hruns, -⟩ := Text.append_cons_inj (hblank _) (hblank _) (List.append_cancel_left heq)
  exact UInt32.toNat_inj.1 (Text.toDigits_inj hruns)

/-- The number of runs is only told from two on. -/
theorem runsText_eq_iff {runs runs' : UInt32} :
    runsText runs = runsText runs' ↔ runs = runs' ∨ runs ≤ 1 ∧ runs' ≤ 1 := by
  constructor
  · intro heq
    rcases UInt32.le_or_lt runs 1 with hle | hlt
    · rcases UInt32.le_or_lt runs' 1 with hle' | hlt'
      · exact .inr ⟨hle, hle'⟩
      · exact absurd (heq.symm.trans (runsText_of_le hle)) (runsText_ne_empty hlt')
    · rcases UInt32.le_or_lt runs' 1 with hle' | hlt'
      · exact absurd (heq.trans (runsText_of_le hle')) (runsText_ne_empty hlt)
      · exact .inl (runsText_inj hlt hlt' heq)
  · rintro (rfl | ⟨hle, hle'⟩)
    · rfl
    · rw [runsText_of_le hle, runsText_of_le hle']

theorem timeLine_eq_iff {precision : Nat} {m m' : Measurement} (hm : m.meanMs.IsFinite)
    (hm' : m'.meanMs.IsFinite) :
    timeLine precision m = timeLine precision m' ↔
      m.meanMs.fixed precision = m'.meanMs.fixed precision ∧
        (m.runs = m'.runs ∨ m.runs ≤ 1 ∧ m'.runs ≤ 1) := by
  rw [← runsText_eq_iff, ← String.toList_inj, toList_timeLine, toList_timeLine]
  constructor
  · intro h
    have hunit : ∀ {d : Double}, d.IsFinite → 'm' ∉ (d.fixed precision).toList :=
      fun hd => hd.notMem_fixed precision (by decide) (by decide) (by decide)
    obtain ⟨hmean, h⟩ := Text.append_cons_inj (hunit hm) (hunit hm') (List.append_cancel_left h)
    exact ⟨String.toList_inj.1 hmean, String.toList_inj.1 (List.cons.inj h).2⟩
  · rintro ⟨hmean, hruns⟩
    rw [hmean, hruns]

/-- Two measurements have the same two lines. -/
theorem twoLines_eq_iff {m m' : Measurement} (hm : m.IsRegular) (hm' : m'.IsRegular)
    (precision : Nat) (n n' : UInt64) :
    valueLine n m = valueLine n' m' ∧ timeLine precision m = timeLine precision m' ↔
      n = n' ∧ m.ShownAlike precision m' := by
  rw [timeLine_eq_iff hm.isFinite hm'.isFinite]
  constructor
  · rintro ⟨hvalue, hmean, hruns⟩
    obtain ⟨hn, hmethod, hvalue⟩ := valueLine_inj hm.label_eq hm'.label_eq hvalue
    exact ⟨hn, hmethod, hvalue, hruns, hmean⟩
  · rintro ⟨rfl, hmethod, hvalue, hruns, hmean⟩
    refine ⟨?_, hmean, hruns⟩
    rw [valueLine, valueLine, hm.label_eq, hm'.label_eq, hmethod, hvalue]

/-! ## Lines -/

theorem lines_eq_iff_forall₂ {precision : Nat} {n n' : UInt64} {ms ms' : List Measurement}
    (h : ∀ m ∈ ms, m.IsRegular) (h' : ∀ m ∈ ms', m.IsRegular) :
    (ms.flatMap fun m => [valueLine n m, timeLine precision m]) =
        (ms'.flatMap fun m => [valueLine n' m, timeLine precision m]) ↔
      List.Forall₂ (fun m m' => n = n' ∧ m.ShownAlike precision m') ms ms' := by
  induction ms generalizing ms' with
  | nil => cases ms' <;> simp
  | cons m ms ih =>
    cases ms' with
    | nil => simp
    | cons m' ms' =>
      rw [List.forall_mem_cons] at h h'
      have hfirst := twoLines_eq_iff h.1 h'.1 precision n n'
      simp only [List.flatMap_cons, List.cons_append, List.nil_append, List.cons.injEq,
        List.forall₂_cons, ← hfirst, ih h.2 h'.2, and_assoc]

/-- The lines of two reports are the same only if all is the same that they show. -/
theorem lines_eq_iff {precision : Nat} {r r' : Report} (hne : r.measurements ≠ [])
    (h : ∀ m ∈ r.measurements, m.IsRegular) (h' : ∀ m ∈ r'.measurements, m.IsRegular) :
    r.lines precision = r'.lines precision ↔
      r.n = r'.n ∧ List.Forall₂ (Measurement.ShownAlike precision) r.measurements
        r'.measurements := by
  unfold lines
  rw [lines_eq_iff_forall₂ h h']
  constructor
  · intro hall
    refine ⟨?_, hall.imp fun _ _ hm => hm.2⟩
    obtain ⟨m, ms, hms⟩ := List.exists_cons_of_ne_nil hne
    rw [hms] at hall
    obtain ⟨m', ms', ⟨hn, -⟩, -⟩ := List.forall₂_cons_left_iff.1 hall
    exact hn
  · rintro ⟨hn, hall⟩
    exact hall.imp fun _ _ hm => ⟨hn, hm⟩

theorem length_lines (r : Report) (precision : Nat) :
    (r.lines precision).length = 2 * r.measurements.length := by
  unfold lines
  induction r.measurements with
  | nil => rfl
  | cons m ms ih =>
    rw [List.flatMap_cons, List.length_append, ih, List.length_cons]
    simp only [List.length_cons, List.length_nil]
    omega

theorem lines_ne_nil {r : Report} (h : r.measurements ≠ []) (precision : Nat) :
    r.lines precision ≠ [] := by
  obtain ⟨m, ms, hms⟩ := List.exists_cons_of_ne_nil h
  simp [lines, hms]

theorem newline_notMem_valueLine {m : Measurement} (h : m.IsRegular) (n : UInt64) :
    '\n' ∉ (valueLine n m).toList := by
  have hdigits := Text.notMem_toDigits (c := '\n') (by decide)
  have hlabel : '\n' ∉ m.label.toList := by
    rw [h.label_eq]
    cases m.method <;> decide
  simp [toList_valueLine, hlabel, hdigits]

theorem newline_notMem_timeLine {m : Measurement} (h : m.IsRegular) (precision : Nat) :
    '\n' ∉ (timeLine precision m).toList := by
  have hdigits := Text.notMem_toDigits (c := '\n') (by decide)
  have hmean : '\n' ∉ (m.meanMs.fixed precision).toList :=
    h.isFinite.notMem_fixed precision (by decide) (by decide) (by decide)
  have hruns : '\n' ∉ (runsText m.runs).toList := by
    rcases UInt32.le_or_lt m.runs 1 with hle | hlt
    · simp [runsText_of_le hle]
    · simp [toList_runsText hlt, hdigits]
  simp [toList_timeLine, hmean, hruns]

/-- No line is empty or has a line end in it. -/
theorem ne_empty_of_mem_lines {precision : Nat} {r : Report}
    (h : ∀ m ∈ r.measurements, m.IsRegular) {line : String} (hline : line ∈ r.lines precision) :
    line ≠ "" ∧ '\n' ∉ line.toList := by
  obtain ⟨m, hm, hline⟩ := List.mem_flatMap.1 hline
  rw [← String.toList_inj.ne]
  simp only [List.mem_cons, List.not_mem_nil, or_false] at hline
  rcases hline with rfl | rfl
  · refine ⟨?_, newline_notMem_valueLine (h m hm) r.n⟩
    simp [toList_valueLine]
  · refine ⟨?_, newline_notMem_timeLine (h m hm) precision⟩
    simp [toList_timeLine]

/-- A text report can be taken apart at the line ends. -/
theorem split_text {precision : Nat} {r : Report} (hne : r.measurements ≠ [])
    (h : ∀ m ∈ r.measurements, m.IsRegular) :
    Text.split '\n' (r.text precision) = r.lines precision :=
  Text.split_intercalate (lines_ne_nil hne precision) fun _ hline => (ne_empty_of_mem_lines h hline).2

theorem render_text {precision : UInt64} (h : precision ≤ maxPrecision) (r : Report) :
    r.render .text precision = .ok (r.text precision.toNat) := by
  have hplaces : precision.toNat ≤ 9 := UInt64.le_iff_toNat_le.1 h
  have hfew : ¬ maxPlaces < precision.toNat := by
    unfold maxPlaces
    omega
  simp [render, hfew]

/-- With an end of line after the last line there would be an empty line behind it. -/
theorem not_newline_suffix_text {precision : Nat} {r : Report} (hne : r.measurements ≠ [])
    (h : ∀ m ∈ r.measurements, m.IsRegular) : ¬ ['\n'] <:+ (r.text precision).toList := by
  rintro ⟨cs, hcs⟩
  have hempty : "" ∈ Text.split '\n' (r.text precision) := by
    rw [Text.split, ← hcs, Text.splitChars_concat]
    simp
  rw [split_text hne h] at hempty
  exact (ne_empty_of_mem_lines h hempty).1 rfl

end Report

/-- **A text report loses only digits of the times.** Two reports with measurements have the same
text if and only if they have the same index and, one by one, the same method, value and number of
runs, where none counts as one, and means that are the same up to the places that are written. The
text has two lines for each measurement, in order, and no line end after the last. -/
theorem text_report_loses_only_times {precision : UInt64} (hprecision : precision ≤ maxPrecision)
    {r r' : Report} (hne : r.measurements ≠ []) (hne' : r'.measurements ≠ [])
    (h : ∀ m ∈ r.measurements, m.IsRegular) (h' : ∀ m ∈ r'.measurements, m.IsRegular) :
    (r.render .text precision = r'.render .text precision ↔
      r.n = r'.n ∧ List.Forall₂ (Measurement.ShownAlike precision.toNat) r.measurements
        r'.measurements) ∧
    ∃ text, r.render .text precision = .ok text ∧
      Text.split '\n' text = (r.measurements.flatMap fun m =>
        [Report.valueLine r.n m, Report.timeLine precision.toNat m]) ∧
      (Text.split '\n' text).length = 2 * r.measurements.length ∧ ¬ ['\n'] <:+ text.toList := by
  refine ⟨?_, r.text precision.toNat, r.render_text hprecision, Report.split_text hne h, ?_,
    Report.not_newline_suffix_text hne h⟩
  · rw [r.render_text hprecision, r'.render_text hprecision, ← Report.lines_eq_iff hne h h',
      Except.ok.injEq]
    constructor
    · intro htext
      rw [← Report.split_text hne h, htext, Report.split_text hne' h']
    · intro hlines
      rw [Report.text, hlines]
      rfl
  · rw [Report.split_text hne h, Report.length_lines]

/-- Reports of one run and of none, with different totals and one of them with the use of the
stack, have the same text of four lines. -/
theorem text_report_loses_only_times_stack :
    let r : Report := ⟨30, 1, [⟨.naive, "fib", 832040, 1, .zero false, .zero false, none⟩,
      ⟨.stack, "fib_stack", 832040, 3, .zero false, .finite false 1 (-1), none⟩], true⟩
    let r' : Report := ⟨30, 0, [⟨.naive, "fib", 832040, 0, .nan, .zero false, none⟩,
      ⟨.stack, "fib_stack", 832040, 3, .zero true, .finite false 2 (-2), some ⟨3, 2, 1, 1⟩⟩], false⟩
    r.render .text 2 = r'.render .text 2 ∧ ∃ text, r.render .text 2 = .ok text ∧
      (Text.split '\n' text).length = 4 := by
  intro r r'
  have h : ∀ m ∈ r.measurements, m.IsRegular :=
    List.forall_mem_cons.2 ⟨⟨rfl, trivial⟩, List.forall_mem_singleton.2 ⟨rfl, trivial⟩⟩
  have h' : ∀ m ∈ r'.measurements, m.IsRegular :=
    List.forall_mem_cons.2 ⟨⟨rfl, trivial⟩, List.forall_mem_singleton.2 ⟨rfl, trivial⟩⟩
  have hprecision : (2 : UInt64) ≤ maxPrecision := by decide
  obtain ⟨hiff, text, htext, -, hlength, -⟩ :=
    text_report_loses_only_times hprecision (List.cons_ne_nil _ _) (List.cons_ne_nil _ _) h h'
  refine ⟨hiff.2 ⟨rfl, ?_⟩, text, htext, hlength⟩
  refine .cons ⟨rfl, rfl, .inr ⟨by decide, by decide⟩, rfl⟩ (.cons ⟨rfl, rfl, .inl rfl, ?_⟩ .nil)
  decide

end Unroll
