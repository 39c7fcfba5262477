import Unroll.Proofs.Measuring
import Unroll.Proofs.Reprint

/-!
# The checks of a run

A configuration is checked as it comes from the layers (`Config.gather`) and once more when the
command line has replaced values. The first check that fails ends the run (`Refused`). What passes
both (`Admitted`) is printed or executed, and an execution of it can fail in one way only, by a sum
that overflows (`Config.Runnable`).
-/

namespace Unroll

namespace Logged

variable {ε α β : Type}

theorem ofExcept_ok_bind (a : α) (f : α → Logged ε β) : (ofExcept (.ok a) >>= f) = f a :=
  rfl

theorem ofExcept_error_bind (e : ε) (f : α → Logged ε β) : (ofExcept (.error e) >>= f) = .fail e :=
  rfl

end Logged

/-! ## The two checks -/

/-- What the layers make up, before it is checked. -/
def Config.gather (h : Host) (path : Option String) : Except LoadFault Config := do
  let document ← h.document path
  let tree ← (layered document h.environment).mapError .index
  (Config.ofSetting tree).mapError .setting

theorem Config.load_eq_gather (h : Host) (path : Option String) :
    Config.load h path = (gather h path).mapError .load >>= fun c =>
      c.validate.mapError .invalid >>= fun _ => .ok c := by
  unfold Config.load Config.ofLayers gather
  cases h.document path with
  | error fault => rfl
  | ok document =>
    simp only [Except.mapError, ok_bind]
    cases layered document h.environment with
    | error fault => rfl
    | ok tree =>
      simp only [ok_bind]
      cases Config.ofSetting tree <;> rfl

section Checks

variable {h : Host} {line : CommandLine}

/-- A run ends before anything is printed or computed: with the first check that fails, whatever the
command line would have replaced. -/
inductive Refused (h : Host) (line : CommandLine) : RunFault → Prop
  | unreadable {fault : LoadFault} (hgather : Config.gather h line.configPath = .error fault) :
      Refused h line (.load (.load fault))
  | loaded {c : Config} {reason : Invalid} (hgather : Config.gather h line.configPath = .ok c)
      (hinvalid : c.validate = .error reason) : Refused h line (.load (.invalid reason))
  | replaced {c : Config} {reason : Invalid} (hgather : Config.gather h line.configPath = .ok c)
      (hvalid : c.validate = .ok ()) (hinvalid : (line.apply c).validate = .error reason) :
      Refused h line (.config (.invalid reason))

/-- A configuration passes both checks, before and after the command line replaces values. -/
inductive Admitted (h : Host) (line : CommandLine) : Config → Prop
  | mk {c : Config} (hgather : Config.gather h line.configPath = .ok c)
      (hloaded : c.validate = .ok ()) (hreplaced : (line.apply c).validate = .ok ()) :
      Admitted h line (line.apply c)

theorem Refused.effectiveConfig {fault : RunFault} (hrefused : Refused h line fault) :
    effectiveConfig h line = .error fault := by
  unfold Unroll.effectiveConfig
  rw [Config.load_eq_gather]
  cases hrefused with
  | unreadable hgather =>
    rw [hgather]
    rfl
  | loaded hgather hinvalid =>
    simp [hgather, hinvalid, Except.mapError]
  | replaced hgather hvalid hinvalid =>
    simp [hgather, hvalid, hinvalid, Except.mapError]

theorem Admitted.effectiveConfig {e : Config} (hadmitted : Admitted h line e) :
    effectiveConfig h line = .ok e := by
  unfold Unroll.effectiveConfig
  rw [Config.load_eq_gather]
  cases hadmitted with
  | mk hgather hloaded hreplaced =>
    simp only [hgather, hloaded, hreplaced, Except.mapError, ok_bind]
    rfl

theorem Admitted.validate {e : Config} (hadmitted : Admitted h line e) : e.validate = .ok () := by
  cases hadmitted with
  | mk _ _ hreplaced => exact hreplaced

theorem refused_or_admitted (h : Host) (line : CommandLine) :
    (∃ fault, Refused h line fault) ∨ ∃ e, Admitted h line e := by
  cases hgather : Config.gather h line.configPath with
  | error fault => exact .inl ⟨_, .unreadable hgather⟩
  | ok c =>
    cases hloaded : c.validate with
    | error reason => exact .inl ⟨_, .loaded hgather hloaded⟩
    | ok =>
      cases hreplaced : (line.apply c).validate with
      | error reason => exact .inl ⟨_, .replaced hgather hloaded hreplaced⟩
      | ok => exact .inr ⟨_, .mk hgather hloaded hreplaced⟩

/-- The only fault of a refused run that is not reported is an index before the start of an
array. -/
theorem Refused.isFatal_iff {fault : RunFault} (hrefused : Refused h line fault) :
    fault.isFatal = true ↔
      ∃ reason, Config.gather h line.configPath = .error (.index reason) := by
  cases hrefused with
  | @unreadable fault hgather =>
    rw [hgather]
    cases fault with
    | index reason => exact ⟨fun _ => ⟨reason, rfl⟩, fun _ => rfl⟩
    | _ => exact ⟨nofun, nofun⟩
  | loaded hgather =>
    rw [hgather]
    exact ⟨nofun, nofun⟩
  | replaced hgather =>
    rw [hgather]
    exact ⟨nofun, nofun⟩

end Checks

/-! ## What follows -/

section Endings

variable {h : Host} {clock : Clock} {line : CommandLine}

/-- The end of a run whose command line could be read. -/
def endingOf (h : Host) (clock : Clock) (line : CommandLine) : Ending :=
  let result := perform h clock line
  .ofOutcome (shownLog (Log.directives (h.valueOf? "RUST_LOG") line.verbosity) result.events)
    result.outcome

theorem run_eq_endingOf {words : List String} (hline : CommandLine.parse words = .ok line) :
    run h clock words = endingOf h clock line := by
  unfold run
  rw [hline]
  rfl

theorem Refused.perform {fault : RunFault} (hrefused : Refused h line fault) :
    perform h clock line = .fail fault := by
  unfold Unroll.perform
  rw [hrefused.effectiveConfig, Logged.ofExcept_error_bind]

/-- Nothing is said before a run is refused. -/
theorem Refused.endingOf_eq {fault : RunFault} (hrefused : Refused h line fault) :
    endingOf h clock line = .ofOutcome "" (.error fault) := by
  unfold endingOf
  rw [hrefused.perform]
  rfl

theorem Admitted.perform_print {e : Config} (hadmitted : Admitted h line e)
    (hprint : line.printConfig = true) :
    perform h clock line =
      .ofExcept (e.toToml.mapError fun fault => .config (.unwritable fault)) := by
  unfold perform
  rw [hadmitted.effectiveConfig, Logged.ofExcept_ok_bind, if_pos hprint]

theorem Admitted.perform_execute {e : Config} (hadmitted : Admitted h line e)
    (hprint : line.printConfig = false) :
    perform h clock line = Execution.output <$> (execute e clock).mapError .execute := by
  unfold perform
  rw [hadmitted.effectiveConfig, Logged.ofExcept_ok_bind, hprint]
  rfl

/-- Nothing is said before a configuration is printed. -/
theorem Admitted.endingOf_print {e : Config} (hadmitted : Admitted h line e)
    (hprint : line.printConfig = true) :
    endingOf h clock line =
      match e.toToml with
      | .ok text => ⟨0, text, ""⟩
      | .error fault =>
        ⟨1, "", faultText (RunFault.config (.unwritable fault)).chain⟩ := by
  unfold endingOf
  rw [hadmitted.perform_print hprint]
  cases e.toToml with
  | ok text => rfl
  | error fault =>
    show Ending.mk 1 "" ("" ++ _) = _
    rw [String.empty_append]

theorem Admitted.stdout_execute {e : Config} (hadmitted : Admitted h line e)
    (hprint : line.printConfig = false) :
    (endingOf h clock line).stdout =
      match (execute e clock).outcome with
      | .ok execution => execution.output
      | .error _ => "" := by
  unfold endingOf
  rw [hadmitted.perform_execute hprint]
  simp only [Logged.outcome_map, Logged.outcome_mapError]
  cases (execute e clock).outcome <;> rfl

end Endings

/-- What both checks make sure of. No error of a measurement is left, only a sum that overflows. -/
structure Config.Runnable (e : Config) : Prop where
  methods_ne_nil : e.run.methods ≠ []
  one_le_runs : 1 ≤ e.run.runs.toNat
  precision_le : e.output.precision.toNat ≤ 9
  measure_fault : ∀ {stopwatch : Stopwatch} {method : Method} {trace : Bool} {fault : MeasureFault},
    (measure stopwatch method e.run.n e.run.runs trace).outcome = .error fault → fault = .overflow
  execute_fault : ∀ {clock : Clock} {fault : ExecuteFault},
    (execute e clock).outcome = .error fault → ∃ method, fault = .measure method .overflow

theorem Config.runnable_of_validate {e : Config} (h : e.validate = .ok ()) : e.Runnable := by
  have hfields := validate_eq_ok_iff.1 h
  have hruns : e.run.runs ≠ 0 := hfields .runs
  refine ⟨hfields .methods, ?_, UInt64.le_iff_toNat_le.1 (hfields .precision), ?_, ?_⟩
  · apply Nat.one_le_iff_ne_zero.2
    intro hzero
    exact hruns (UInt32.toNat_inj.1 hzero)
  · intro stopwatch method trace fault hfault
    exact fault_of_measure hruns hfault
  · intro clock fault hfault
    by_cases hfits : ∀ method ∈ e.run.methods, method.Fits e.run.n e.tracesStack
    · obtain ⟨execution, -, hexecution, -⟩ := outcome_execute_of_fits h hfits clock
      rw [hexecution] at hfault
      cases hfault
    · simp only [not_forall] at hfits
      obtain ⟨method, hmem, hnot⟩ := hfits
      obtain ⟨failing, -, hfailing⟩ := outcome_execute_of_not_fits h ⟨method, hmem, hnot⟩ clock
      rw [hfailing] at hfault
      exact ⟨failing, (Except.error.inj hfault).symm⟩

/-- With so few places, only the index can keep a configuration from being printed. -/
theorem Config.Runnable.toToml_error_iff {e : Config} (he : e.Runnable) :
    (∃ fault, e.toToml = .error fault) ↔ 2 ^ 63 - 1 < e.run.n.toNat := by
  have hprecision : e.output.precision.toNat < SignedWord.bound :=
    Nat.lt_of_le_of_lt he.precision_le (by decide)
  have hbound : SignedWord.bound = 2 ^ 63 := rfl
  by_cases hn : e.run.n.toNat < SignedWord.bound
  · rw [toToml_of_fits (forall_fits_iff.2 ⟨hn, hprecision⟩)]
    simp only [reduceCtorEq, exists_false, false_iff]
    omega
  · rw [toToml_of_not_fits fun h => hn (forall_fits_iff.1 h).1]
    constructor
    · intro _
      omega
    · intro _
      exact ⟨_, rfl⟩

end Unroll
