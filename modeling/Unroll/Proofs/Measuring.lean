import Unroll.Execution
import Unroll.Proofs.Agreement
import Unroll.Proofs.Fields
import Unroll.Proofs.PendingDepth
import Unroll.Proofs.ReportText

/-!
# What is measured

However long the calls take, every run of a method gives the same Fibonacci number or the same
overflow. So the loop of `measure` ends with that number (`Measurement.outcome_runs`), and its
checks never find a difference. A method can be measured if the number fits into a word and, where
the stack is traced, the counters do (`Method.Fits`): `outcome_measure_of_fits` and
`outcome_measure_of_not_fits`. An execution goes through the methods of a configuration and stops at
the first one that cannot be measured, before anything is written. That is the first of all if there
are no runs (`outcome_execute_noRuns`).
-/

namespace Unroll

theorem Method.compute_eq (m : Method) (n : UInt64) :
    m.compute n = Checked.ofNat (fib n.toNat) := by
  cases m with
  | naive => exact fibRecursive_eq n
  | stack => exact fibUnrolled_eq n

/-! ## The runs of a method -/

namespace Measurement

variable {stopwatch : Stopwatch} {method : Method} {n v : UInt64} {runs : UInt32}

theorem outcome_timeRun (hv : method.compute n = .ok v) {tally : Tally}
    (htally : tally.value = none ∨ tally.value = some v) (run : Nat) :
    ∃ next, (timeRun stopwatch method n runs tally run).outcome = .ok next ∧
      next.value = some v := by
  unfold timeRun ofChecked
  rw [hv]
  rcases htally with hnone | hsome
  · rw [hnone]
    exact ⟨_, rfl, rfl⟩
  · refine ⟨⟨some v, tally.totalMs.add (milliseconds (stopwatch run))⟩, ?_, rfl⟩
    simp [hsome, Except.mapError]

theorem outcome_timeRun_overflow {e : Overflow} (hover : method.compute n = .error e)
    (tally : Tally) (run : Nat) :
    (timeRun stopwatch method n runs tally run).outcome = .error .overflow := by
  unfold timeRun ofChecked
  rw [hover]
  rfl

/-- Once there is a value, all further runs keep it. -/
theorem outcome_runs (hv : method.compute n = .ok v) (numbers : List Nat) {tally : Tally}
    (htally : tally.value = some v) :
    ∃ last, (numbers.foldlM (timeRun stopwatch method n runs) tally).outcome = .ok last ∧
      last.value = some v := by
  rw [Logged.outcome_foldlM]
  induction numbers generalizing tally with
  | nil => exact ⟨tally, rfl, htally⟩
  | cons run rest ih =>
    obtain ⟨next, hnext, hvalue⟩ := outcome_timeRun hv (.inr htally) run
    rw [List.foldlM_cons, hnext]
    exact ih hvalue

theorem exists_first_run (h : runs ≠ 0) :
    ∃ rest, List.range' 1 runs.toNat = 1 :: rest := by
  have hpos : runs.toNat ≠ 0 := fun hzero => h (UInt32.toNat_inj.1 hzero)
  obtain ⟨count, hcount⟩ := Nat.exists_eq_succ_of_ne_zero hpos
  exact ⟨List.range' 2 count, by rw [hcount, List.range'_succ]⟩

theorem outcome_all_runs (hv : method.compute n = .ok v) (hruns : runs ≠ 0)
    (stopwatch : Stopwatch) :
    ∃ last, ((List.range' 1 runs.toNat).foldlM (timeRun stopwatch method n runs)
      Tally.start).outcome = .ok last ∧ last.value = some v := by
  obtain ⟨rest, hrest⟩ := exists_first_run hruns
  have hstart : Tally.start.value = none ∨ Tally.start.value = some v := .inl rfl
  obtain ⟨next, hnext, hvalue⟩ := outcome_timeRun hv hstart 1
  rw [hrest, List.foldlM_cons, Logged.outcome_bind, hnext]
  exact outcome_runs hv rest hvalue

theorem outcome_all_runs_overflow {e : Overflow} (hover : method.compute n = .error e)
    (hruns : runs ≠ 0) :
    ((List.range' 1 runs.toNat).foldlM (timeRun stopwatch method n runs)
      Tally.start).outcome = .error .overflow := by
  obtain ⟨rest, hrest⟩ := exists_first_run hruns
  rw [hrest, List.foldlM_cons, Logged.outcome_bind, outcome_timeRun_overflow hover, error_bind]

/-! ## One method -/

/-- A measurement of a method at the index `n`: the method, its label, how often it ran, the value,
and the use of the stack if the method has one and it was asked for. -/
structure Shows (n : UInt64) (runs : UInt32) (trace : Bool) (method : Method)
    (m : Measurement) : Prop where
  method_eq : m.method = method
  label_eq : m.label = method.label
  runs_eq : m.runs = runs
  value_eq : m.value.toNat = fib n.toNat
  isSome_stats : m.stackStats.isSome ↔ method = .stack ∧ trace
  stats_eq : ∀ s, m.stackStats = some s →
    s.pops.toNat = 2 * fib (n.toNat + 1) - 1 ∧ s.pushes.toNat = 2 * fib (n.toNat + 1) - 2 ∧
      s.peakDepth = n.toNat / 2 + 1 ∧ s.slots = n.toNat / 2 + 1

end Measurement

open Measurement

/-- The value of a method fits into a word, and so do the counters if its stack is traced. -/
def Method.Fits (n : UInt64) (trace : Bool) (method : Method) : Prop :=
  n ≤ 93 ∧ (method = .stack → trace → n ≤ 91)

theorem Method.exists_compute {n : UInt64} (h : n ≤ 93) (method : Method) :
    ∃ v, method.compute n = .ok v ∧ v.toNat = fib n.toNat := by
  obtain ⟨v, hv, hok⟩ := Checked.ofNat_of_lt (fib_fits h)
  exact ⟨v, (method.compute_eq n).trans hok, hv⟩

theorem Method.compute_overflow {n : UInt64} (h : ¬ n ≤ 93) (method : Method) :
    method.compute n = .error .overflow := by
  have hn : 94 ≤ n := by
    rw [UInt64.le_iff_toNat_le] at h ⊢
    simp only [UInt64.reduceToNat] at h ⊢
    omega
  rw [method.compute_eq, Checked.ofNat_of_size_le (fib_overflows hn)]

theorem outcome_traceStack {n : UInt64} (h : n ≤ 91) :
    ∃ s, (traceStack n).outcome = .ok s ∧
      s.pops.toNat = 2 * fib (n.toNat + 1) - 1 ∧ s.pushes.toNat = 2 * fib (n.toNat + 1) - 2 ∧
      s.peakDepth = n.toNat / 2 + 1 ∧ s.slots = n.toNat / 2 + 1 := by
  obtain ⟨r, hr, -, hpops, hpushes⟩ := fibTraced_of_calls_fit (calls_fit h)
  have hcalls := calls_add_one n.toNat
  refine ⟨r.stats, ?_, by omega, by omega, fibTraced_depth hr⟩
  unfold traceStack ofChecked
  rw [hr]
  rfl

theorem outcome_traceStack_overflow {n : UInt64} (h : ¬ n ≤ 91) :
    (traceStack n).outcome = .error .overflow := by
  have hn : 92 ≤ n := by
    rw [UInt64.le_iff_toNat_le] at h ⊢
    simp only [UInt64.reduceToNat] at h ⊢
    omega
  unfold traceStack ofChecked
  rw [(fibTraced_of_calls_overflow (calls_overflow hn)).1]
  rfl

section Measure

variable {n : UInt64} {runs : UInt32} {trace : Bool} {method : Method}

theorem outcome_measure_of_fits (hruns : runs ≠ 0) (h : method.Fits n trace)
    (stopwatch : Stopwatch) :
    ∃ m, (measure stopwatch method n runs trace).outcome = .ok m ∧
      Shows n runs trace method m := by
  obtain ⟨v, hv, hfib⟩ := method.exists_compute h.1
  obtain ⟨last, hlast, hvalue⟩ := outcome_all_runs hv hruns stopwatch
  unfold measure
  rw [if_neg hruns, Logged.outcome_bind, hlast, ok_bind]
  by_cases htrace : method = .stack ∧ trace
  · obtain ⟨s, hs, hstats⟩ := outcome_traceStack (h.2 htrace.1 htrace.2)
    refine ⟨⟨method, method.label, v, runs, last.totalMs, last.totalMs.divNat runs.toNat, some s⟩,
      ?_, rfl, rfl, rfl, hfib, by simp [htrace], ?_⟩
    · simp [hvalue, htrace, hs]
    · intro s' hs'
      obtain rfl := Option.some.inj hs'
      exact hstats
  · refine ⟨⟨method, method.label, v, runs, last.totalMs, last.totalMs.divNat runs.toNat, none⟩,
      ?_, rfl, rfl, rfl, hfib, by simp [htrace], nofun⟩
    simp [hvalue, htrace]

theorem outcome_measure_of_not_fits (hruns : runs ≠ 0) (h : ¬ method.Fits n trace)
    (stopwatch : Stopwatch) :
    (measure stopwatch method n runs trace).outcome = .error .overflow := by
  unfold measure
  rw [if_neg hruns, Logged.outcome_bind]
  by_cases hn : n ≤ 93
  · -- the runs succeed, so it is the traced call that does not fit
    have htraced : method = .stack ∧ trace ∧ ¬ n ≤ 91 := by
      by_contra hnot
      refine h ⟨hn, fun hstack htrace => ?_⟩
      by_contra h91
      exact hnot ⟨hstack, htrace, h91⟩
    obtain ⟨v, hv, -⟩ := method.exists_compute hn
    obtain ⟨last, hlast, hvalue⟩ := outcome_all_runs hv hruns stopwatch
    rw [hlast, ok_bind]
    simp [hvalue, htraced, outcome_traceStack_overflow htraced.2.2]
  · rw [outcome_all_runs_overflow (method.compute_overflow hn) hruns, error_bind]

theorem outcome_measure_noRuns (stopwatch : Stopwatch) :
    (measure stopwatch method n 0 trace).outcome = .error .noRuns :=
  rfl

/-- The checks of the loop never fail: neither does a run give another value than the runs before,
nor is there no value in the end. -/
theorem fault_of_measure (hruns : runs ≠ 0) {stopwatch : Stopwatch} {fault : MeasureFault}
    (h : (measure stopwatch method n runs trace).outcome = .error fault) : fault = .overflow := by
  by_cases hfits : method.Fits n trace
  · obtain ⟨m, hm, -⟩ := outcome_measure_of_fits hruns hfits stopwatch
    rw [hm] at h
    cases h
  · rw [outcome_measure_of_not_fits hruns hfits] at h
    exact (Except.error.inj h).symm

end Measure

/-! ## All methods of a configuration -/

section Execute

variable {c : Config}

theorem outcome_measureMethod {stopwatch : Stopwatch} {method : Method} :
    (measureMethod c stopwatch method).outcome =
      (measure stopwatch method c.run.n c.run.runs c.tracesStack).outcome.mapError
        (.measure method) := by
  unfold measureMethod
  simp only [Logged.outcome_bind, Logged.outcome_mapError]
  cases (measure stopwatch method c.run.n c.run.runs c.tracesStack).outcome <;> rfl

theorem outcome_measureMethods (hruns : c.run.runs ≠ 0) {methods : List Method}
    (h : ∀ method ∈ methods, method.Fits c.run.n c.tracesStack) (clock : Clock) (position : Nat) :
    ∃ ms, (measureMethods c clock position methods).outcome = .ok ms ∧
      List.Forall₂ (Shows c.run.n c.run.runs c.tracesStack) methods ms := by
  induction methods generalizing position with
  | nil => exact ⟨[], rfl, .nil⟩
  | cons method rest ih =>
    rw [List.forall_mem_cons] at h
    obtain ⟨m, hm, hshows⟩ := outcome_measure_of_fits hruns h.1 (clock position)
    obtain ⟨ms, hms, hrest⟩ := ih h.2 (position + 1)
    refine ⟨m :: ms, ?_, .cons hshows hrest⟩
    rw [measureMethods]
    simp [outcome_measureMethod, hm, hms, Except.mapError]

/-- Without runs the first method ends the execution. -/
theorem outcome_measureMethods_noRuns (hruns : c.run.runs = 0) (clock : Clock) (position : Nat)
    (first : Method) (rest : List Method) :
    (measureMethods c clock position (first :: rest)).outcome =
      .error (.measure first .noRuns) := by
  rw [measureMethods]
  simp [outcome_measureMethod, hruns, outcome_measure_noRuns, Except.mapError]

/-- The first method that does not fit ends the execution, whatever comes after it. -/
theorem outcome_measureMethods_overflow (hruns : c.run.runs ≠ 0) {methods : List Method}
    (h : ∃ method ∈ methods, ¬ method.Fits c.run.n c.tracesStack) (clock : Clock) (position : Nat) :
    ∃ method ∈ methods,
      (measureMethods c clock position methods).outcome = .error (.measure method .overflow) := by
  induction methods generalizing position with
  | nil =>
    obtain ⟨method, hmem, -⟩ := h
    cases hmem
  | cons method rest ih =>
    rw [measureMethods]
    by_cases hfits : method.Fits c.run.n c.tracesStack
    · have hrest : ∃ method ∈ rest, ¬ method.Fits c.run.n c.tracesStack := by
        obtain ⟨other, hmem, hother⟩ := h
        rcases List.mem_cons.1 hmem with rfl | hmem
        · exact absurd hfits hother
        · exact ⟨other, hmem, hother⟩
      obtain ⟨m, hm, -⟩ := outcome_measure_of_fits hruns hfits (clock position)
      obtain ⟨failing, hmem, hfail⟩ := ih hrest (position + 1)
      refine ⟨failing, List.mem_cons_of_mem _ hmem, ?_⟩
      simp [outcome_measureMethod, hm, hfail, Except.mapError]
    · have hfail := outcome_measure_of_not_fits hruns hfits (clock position)
      refine ⟨method, List.mem_cons_self, ?_⟩
      simp [outcome_measureMethod, hfail, Except.mapError]

theorem exists_render (hprecision : c.output.precision ≤ maxPrecision) (r : Report) :
    ∃ text, r.render c.output.format c.output.precision = .ok text := by
  cases c.output.format with
  | json => exact ⟨_, rfl⟩
  | text => exact ⟨_, r.render_text hprecision⟩

/-- What a writer holds after an execution: the report goes behind what it held before, and a fault
comes before anything is written. -/
def Execution.writtenTo (held : String) : Except ExecuteFault Execution → String
  | .ok e => held ++ e.output
  | .error _ => held

theorem tracesStack_iff : c.tracesStack = true ↔ c.output.format = .json := by
  simp [Config.tracesStack]

theorem fits_of_mem (hn : c.run.n ≤ 93)
    (hjson : c.output.format = .json → Method.stack ∈ c.run.methods → c.run.n ≤ 91)
    {method : Method} (hmem : method ∈ c.run.methods) : method.Fits c.run.n c.tracesStack := by
  refine ⟨hn, ?_⟩
  rintro rfl htrace
  exact hjson (tracesStack_iff.1 htrace) hmem

theorem le_of_fits (hmethods : c.run.methods ≠ [])
    (h : ∀ method ∈ c.run.methods, method.Fits c.run.n c.tracesStack) :
    c.run.n ≤ 93 ∧ (c.output.format = .json → Method.stack ∈ c.run.methods → c.run.n ≤ 91) := by
  obtain ⟨first, hfirst⟩ := List.exists_mem_of_ne_nil _ hmethods
  refine ⟨(h first hfirst).1, ?_⟩
  intro hjson hstack
  exact (h .stack hstack).2 rfl (tracesStack_iff.2 hjson)

/-- What an execution reports of a configuration: a measurement for each method, in their order. -/
structure Report.Covers (c : Config) (r : Report) : Prop where
  n_eq : r.n = c.run.n
  runs_eq : r.runs = c.run.runs
  measured : List.Forall₂ (Shows c.run.n c.run.runs (c.output.format = .json)) c.run.methods
    r.measurements
  agree : r.agree = true

theorem covers_of_measured {ms : List Measurement}
    (h : List.Forall₂ (Shows c.run.n c.run.runs c.tracesStack) c.run.methods ms) :
    (Report.ofMeasurements c.run.n c.run.runs ms).Covers c := by
  have hvalues : ∀ m ∈ ms, m.value = UInt64.ofNat (fib c.run.n.toNat) := by
    generalize c.run.methods = methods at h
    induction h with
    | nil => simp
    | cons hshows _ ih =>
      refine List.forall_mem_cons.2 ⟨?_, ih⟩
      rw [← hshows.value_eq, UInt64.ofNat_toNat]
  refine ⟨rfl, rfl, h, neighboursAgree_iff.2 ?_⟩
  intro a ha b hb
  rw [hvalues a ha, hvalues b hb]

theorem outcome_execute_of_measured (hprecision : c.output.precision ≤ maxPrecision) {clock : Clock}
    {ms : List Measurement} (hms : (measureMethods c clock 0 c.run.methods).outcome = .ok ms)
    (hmeasured : List.Forall₂ (Shows c.run.n c.run.runs c.tracesStack) c.run.methods ms) :
    ∃ e text, (execute c clock).outcome = .ok e ∧ e.report.Covers c ∧
      e.report.render c.output.format c.output.precision = .ok text ∧ e.output = text ++ "\n" := by
  have hcovers := covers_of_measured hmeasured
  obtain ⟨text, htext⟩ :=
    exists_render hprecision (Report.ofMeasurements c.run.n c.run.runs ms)
  refine ⟨⟨Report.ofMeasurements c.run.n c.run.runs ms, text ++ "\n"⟩, text, ?_, hcovers, htext,
    rfl⟩
  unfold execute
  simp [hms, hcovers.agree, htext, Except.mapError]

theorem outcome_execute_of_fits (hvalid : c.validate = .ok ())
    (h : ∀ method ∈ c.run.methods, method.Fits c.run.n c.tracesStack) (clock : Clock) :
    ∃ e text, (execute c clock).outcome = .ok e ∧ e.report.Covers c ∧
      e.report.render c.output.format c.output.precision = .ok text ∧ e.output = text ++ "\n" := by
  rw [Config.validate_eq_ok_iff] at hvalid
  obtain ⟨ms, hms, hmeasured⟩ := outcome_measureMethods (hvalid .runs) h clock 0
  exact outcome_execute_of_measured (hvalid .precision) hms hmeasured

theorem outcome_execute_of_not_fits (hvalid : c.validate = .ok ())
    (h : ∃ method ∈ c.run.methods, ¬ method.Fits c.run.n c.tracesStack) (clock : Clock) :
    ∃ method ∈ c.run.methods,
      (execute c clock).outcome = .error (.measure method .overflow) := by
  rw [Config.validate_eq_ok_iff] at hvalid
  obtain ⟨method, hmem, hfail⟩ :=
    outcome_measureMethods_overflow (hvalid .runs) h clock 0
  refine ⟨method, hmem, ?_⟩
  unfold execute
  simp [hfail]

/-- Without methods nothing is measured, so it does not matter that there are no runs. -/
theorem outcome_execute_of_runs_or_nil (hn : c.run.n ≤ 91)
    (hprecision : c.output.precision ≤ maxPrecision)
    (h : c.run.runs ≠ 0 ∨ c.run.methods = []) (clock : Clock) :
    ∃ e, (execute c clock).outcome = .ok e ∧ e.report.Covers c := by
  obtain ⟨ms, hms, hmeasured⟩ : ∃ ms, (measureMethods c clock 0 c.run.methods).outcome = .ok ms ∧
      List.Forall₂ (Shows c.run.n c.run.runs c.tracesStack) c.run.methods ms := by
    rcases h with hruns | hnil
    · have hfits : ∀ method ∈ c.run.methods, method.Fits c.run.n c.tracesStack :=
        fun method => fits_of_mem (UInt64.le_trans hn (by decide)) fun _ _ => hn
      exact outcome_measureMethods hruns hfits clock 0
    · rw [hnil]
      exact ⟨[], rfl, .nil⟩
  obtain ⟨e, text, he, hcovers, -⟩ := outcome_execute_of_measured hprecision hms hmeasured
  exact ⟨e, he, hcovers⟩

theorem outcome_execute_noRuns (hruns : c.run.runs = 0) {first : Method} {rest : List Method}
    (hmethods : c.run.methods = first :: rest) (clock : Clock) :
    (execute c clock).outcome = .error (.measure first .noRuns) := by
  unfold execute
  simp [hmethods, outcome_measureMethods_noRuns hruns]

end Execute

/-- **An execution measures every method or panics before it writes.** A valid configuration can be
executed up to index 93, and up to 91 if a JSON report has to show a stack. Then the report has a
measurement for each method, in order and with repeats, with the Fibonacci number as its value and
the exact use of the stack where it is shown, and the writer gets the report and a line end. In all
other cases a sum overflows, and the writer gets nothing. -/
theorem execute_measures_every_method {c : Config} (hvalid : c.validate = .ok ()) (clock : Clock)
    (held : String) :
    ((∃ e, (execute c clock).outcome = .ok e) ↔ c.run.n ≤ 93 ∧
      (c.output.format = .json → Method.stack ∈ c.run.methods → c.run.n ≤ 91)) ∧
    (∀ fault, (execute c clock).outcome = .error fault →
      (∃ method ∈ c.run.methods, fault = .measure method .overflow) ∧ fault.isFatal ∧
        Execution.writtenTo held (execute c clock).outcome = held) ∧
    ∀ e, (execute c clock).outcome = .ok e → e.report.Covers c ∧
      ∃ text, e.report.render c.output.format c.output.precision = .ok text ∧
        Execution.writtenTo held (execute c clock).outcome = held ++ (text ++ "\n") := by
  by_cases h : ∀ method ∈ c.run.methods, method.Fits c.run.n c.tracesStack
  · obtain ⟨e, text, he, hcovers, htext, houtput⟩ := outcome_execute_of_fits hvalid h clock
    have hmethods : c.run.methods ≠ [] := Config.validate_eq_ok_iff.1 hvalid .methods
    rw [he]
    refine ⟨⟨fun _ => le_of_fits hmethods h, fun _ => ⟨e, rfl⟩⟩, nofun, ?_⟩
    intro e' he'
    obtain rfl := Except.ok.inj he'
    refine ⟨hcovers, text, htext, ?_⟩
    rw [Execution.writtenTo, houtput]
  · have hnot : ∃ method ∈ c.run.methods, ¬ method.Fits c.run.n c.tracesStack := by
      simpa using h
    obtain ⟨method, hmem, hfail⟩ := outcome_execute_of_not_fits hvalid hnot clock
    rw [hfail]
    refine ⟨⟨nofun, ?_⟩, ?_, nofun⟩
    · rintro ⟨hn, hjson⟩
      exact absurd (fun method => fits_of_mem hn hjson) h
    · intro fault hfault
      obtain rfl := Except.error.inj hfault
      exact ⟨⟨method, hmem, rfl⟩, rfl, rfl⟩

/-- The last index at which a JSON report can show a stack. -/
theorem execute_measures_every_method_91 :
    let c : Config := ⟨⟨91, [.stack, .naive, .stack], 3⟩, ⟨.json, 9⟩⟩
    c.validate = .ok () ∧ ∃ e, (execute c fun _ _ => 0).outcome = .ok e ∧ e.report.Covers c := by
  intro c
  have hvalid : c.validate = .ok () := by decide
  obtain ⟨hiff, -, hreport⟩ := execute_measures_every_method hvalid (fun _ _ => 0) ""
  obtain ⟨e, he⟩ := hiff.2 ⟨by decide, fun _ _ => by decide⟩
  exact ⟨hvalid, e, he, (hreport e he).1⟩

/-- **Unchecked, an execution can fail for one reason.** Let no check have been made of a
configuration, but let the index be at most 91 and the places be few. The execution fails if and
only if there are methods and no runs, at the first method and with nothing written. All else gives
a report, an empty one if there are no methods. The other faults that a measurement could report are
never found, at any index. -/
theorem execute_fails_without_runs {c : Config} (hn : c.run.n ≤ 91)
    (hprecision : c.output.precision ≤ maxPrecision) (clock : Clock) (held : String) :
    (∀ {stopwatch : Stopwatch} {method : Method} {n : UInt64} {runs : UInt32} {trace : Bool}
      {fault : MeasureFault}, runs ≠ 0 →
      (measure stopwatch method n runs trace).outcome = .error fault → fault = .overflow) ∧
    ((∃ fault, (execute c clock).outcome = .error fault) ↔
      c.run.runs = 0 ∧ c.run.methods ≠ []) ∧
    (∀ fault, (execute c clock).outcome = .error fault →
      ∃ first ∈ c.run.methods.head?, fault = .measure first .noRuns ∧
        ": ".intercalate fault.chain =
          "Failed to measure " ++ first.name ++ " method: runs must be at least 1" ∧
        Execution.writtenTo held (execute c clock).outcome = held) ∧
    (∀ e, (execute c clock).outcome = .ok e → e.report.Covers c) ∧
    (c.run.methods = [] → ∃ e, (execute c clock).outcome = .ok e ∧ e.report.measurements = [] ∧
      e.report.agree = true) := by
  refine ⟨fun hruns hfault => fault_of_measure hruns hfault, ?_⟩
  by_cases h : c.run.runs = 0 ∧ c.run.methods ≠ []
  · obtain ⟨hruns, hmethods⟩ := h
    obtain ⟨first, rest, hfirst⟩ := List.exists_cons_of_ne_nil hmethods
    rw [outcome_execute_noRuns hruns hfirst clock]
    refine ⟨⟨fun _ => ⟨hruns, hmethods⟩, fun _ => ⟨_, rfl⟩⟩, ?_, nofun, fun hnil =>
      absurd hnil hmethods⟩
    intro fault hfault
    obtain rfl := Except.error.inj hfault
    refine ⟨first, by rw [hfirst]; rfl, rfl, ?_, rfl⟩
    cases first <;> decide
  · have hor : c.run.runs ≠ 0 ∨ c.run.methods = [] := by
      by_contra hnot
      simp only [not_or, not_not] at hnot
      exact h hnot
    obtain ⟨e, he, hcovers⟩ := outcome_execute_of_runs_or_nil hn hprecision hor clock
    rw [he]
    refine ⟨⟨nofun, fun hfails => absurd hfails h⟩, nofun, ?_, ?_⟩
    · intro e' he'
      obtain rfl := Except.ok.inj he'
      exact hcovers
    · intro hnil
      have hmeasured := hcovers.measured
      rw [hnil] at hmeasured
      exact ⟨e, rfl, List.forall₂_nil_left_iff.1 hmeasured, hcovers.agree⟩

/-- No runs of two methods, and of none. -/
theorem execute_fails_without_runs_two :
    let failing : Config := ⟨⟨91, [.stack, .naive], 0⟩, ⟨.json, 9⟩⟩
    let empty : Config := ⟨⟨91, [], 0⟩, ⟨.text, 0⟩⟩
    (execute failing fun _ _ => 0).outcome = .error (.measure .stack .noRuns) ∧
      ∃ e, (execute empty fun _ _ => 0).outcome = .ok e ∧ e.report.measurements = [] ∧
        e.report.agree = true := by
  intro failing empty
  obtain ⟨-, hiff, hfault, -⟩ := execute_fails_without_runs (c := failing) (UInt64.le_refl _)
    (by decide) (fun _ _ => 0) ""
  obtain ⟨-, -, -, -, hempty⟩ := execute_fails_without_runs (c := empty) (UInt64.le_refl _)
    (by decide) (fun _ _ => 0) ""
  obtain ⟨fault, hfails⟩ := hiff.2 ⟨rfl, List.cons_ne_nil _ _⟩
  obtain ⟨first, hfirst, rfl, -⟩ := hfault fault hfails
  obtain rfl := Option.some.inj hfirst
  exact ⟨hfails, hempty rfl⟩

end Unroll
