import Unroll.Fibonacci.Traced
import Unroll.Proofs.CallStack
import Unroll.Proofs.Walk

/-!
# The counters of a traced walk

A traced walk is a walk (`TracedWalk.toWalk_step`) whose counters keep a balance with the calls that
are still pending: `TracedWalk.Tally`. The balance says what the counters hold when the walk ends,
and it says which sum can overflow: the pushes are always ahead of the pops and of twice the total,
so the walk ends early exactly when the number of pushes does not fit (`TracedWalk.Tally.overflow`).
That happens from index 92 on, two indices before the value itself is too large.
-/

namespace Unroll

namespace TracedWalk

/-! ## What a turn does -/

/-- Everything that a counted turn can do once the call on `n` is off the stack. -/
inductive Turn (t : TracedWalk) (n : UInt64) (rest : CallStack UInt64) :
    Checked TracedWalk → Prop
  | popsOverflow (h : UInt64.size ≤ t.pops.toNat + 1) : Turn t n rest (.error .overflow)
  | totalOverflow (hn : n ≤ 1) (h : UInt64.size ≤ t.total.toNat + n.toNat) :
      Turn t n rest (.error .overflow)
  | pushesOverflow (hn : ¬ n ≤ 1) (h : UInt64.size ≤ t.pushes.toNat + 2) :
      Turn t n rest (.error .overflow)
  | base {pops total : UInt64} (hn : n ≤ 1) (hpops : t.pops.toNat + 1 = pops.toNat)
      (htotal : t.total.toNat + n.toNat = total.toNat) :
      Turn t n rest (.ok { t with pending := rest, total, pops })
  | inner {pops pushes : UInt64} (hn : ¬ n ≤ 1) (hpops : t.pops.toNat + 1 = pops.toNat)
      (hpushes : t.pushes.toNat + 2 = pushes.toNat) :
      Turn t n rest (.ok { t with
        pending := (rest.push (n - 1)).push (n - 2), pops, pushes,
        peakDepth := max t.peakDepth ((rest.push (n - 1)).push (n - 2)).depth })

theorem step_eq_none_iff {t : TracedWalk} : t.step = none ↔ t.pending.toList = [] := by
  rw [← CallStack.pop?_eq_none_iff]
  unfold step
  cases hpop : t.pending.pop? with
  | none => simp
  | some popped => simp

theorem turn_of_step {t : TracedWalk} {outcome : Checked TracedWalk} (h : t.step = some outcome) :
    ∃ n rest, t.pending.pop? = some (n, rest) ∧ Turn t n rest outcome := by
  cases hpop : t.pending.pop? with
  | none =>
    rw [step_eq_none_iff.2 (CallStack.pop?_eq_none_iff.1 hpop)] at h
    cases h
  | some popped =>
    obtain ⟨n, rest⟩ := popped
    refine ⟨n, rest, rfl, ?_⟩
    unfold step at h
    simp only [hpop] at h
    cases h
    cases hpops : checkedAdd t.pops 1 with
    | error e => exact .popsOverflow (checkedAdd_eq_error_iff.1 hpops)
    | ok pops =>
      have hpops' : t.pops.toNat + 1 = pops.toNat := checkedAdd_eq_ok_iff.1 hpops
      by_cases hn : n ≤ 1
      · simp only [bind, Except.bind, if_pos hn]
        cases htotal : checkedAdd t.total n with
        | error e => exact .totalOverflow hn (checkedAdd_eq_error_iff.1 htotal)
        | ok total => exact .base hn hpops' (checkedAdd_eq_ok_iff.1 htotal)
      · simp only [bind, Except.bind, if_neg hn]
        cases hpushes : checkedAdd t.pushes 2 with
        | error e => exact .pushesOverflow hn (checkedAdd_eq_error_iff.1 hpushes)
        | ok pushes => exact .inner hn hpops' (checkedAdd_eq_ok_iff.1 hpushes)

/-- Without its counters a traced turn is a turn of the walk. -/
theorem toWalk_step {t t' : TracedWalk} (h : t.step = some (.ok t')) :
    t.toWalk.step = some (.ok t'.toWalk) := by
  obtain ⟨n, rest, hpop, hturn⟩ := turn_of_step h
  cases hturn with
  | base hn _ htotal => exact Walk.step_base hpop hn htotal
  | inner hn => exact Walk.step_inner hpop hn

/-! ## The balance of the counters -/

/-- How the counters of a walk for `n` stand to the calls that are pending. -/
structure Tally (n : UInt64) (t : TracedWalk) : Prop where
  due : t.toWalk.due = fib n.toNat
  pops : t.pops.toNat + t.toWalk.work = calls n.toNat
  /-- Every call that was pushed was popped or is pending, and so is the first one. -/
  pushes : t.pushes.toNat + 1 = t.pops.toNat + t.pending.depth
  /-- Two calls were pushed for each one that is no base case, and a base case adds at most one. -/
  total : ∃ unrolled, t.pushes.toNat = 2 * unrolled ∧ t.total.toNat + unrolled ≤ t.pops.toNat

namespace Tally

theorem start (n : UInt64) : Tally n (.start n) := by
  refine ⟨Walk.due_start n, ?_, rfl, 0, rfl, Nat.le_refl 0⟩
  rw [← Walk.work_start]
  exact Nat.zero_add _

theorem step {n : UInt64} {t t' : TracedWalk} (h : Tally n t) (hstep : t.step = some (.ok t')) :
    Tally n t' := by
  have hdue := Walk.due_step (toWalk_step hstep)
  have hwork := Walk.work_of_step (toWalk_step hstep)
  obtain ⟨hdue₀, hpops₀, hpushes₀, unrolled, htwice, hleaves⟩ := h
  obtain ⟨v, rest, hpop, hturn⟩ := turn_of_step hstep
  have hdepth := CallStack.depth_of_pop? hpop
  cases hturn with
  | @base pops total hv hpops htotal =>
    refine ⟨hdue.trans hdue₀, ?_, ?_, unrolled, htwice, ?_⟩
    · show pops.toNat + _ = _
      omega
    · show t.pushes.toNat + 1 = pops.toNat + rest.depth
      omega
    · show total.toNat + unrolled ≤ pops.toNat
      have hv' : v.toNat ≤ 1 := le_one_iff.1 hv
      omega
  | @inner pops pushes hv hpops hpushes =>
    refine ⟨hdue.trans hdue₀, ?_, ?_, unrolled + 1, ?_, ?_⟩
    · show pops.toNat + _ = _
      omega
    · show pushes.toNat + 1 = pops.toNat + ((rest.push (v - 1)).push (v - 2)).depth
      rw [CallStack.depth_push, CallStack.depth_push]
      omega
    · show pushes.toNat = 2 * (unrolled + 1)
      omega
    · show t.total.toNat + (unrolled + 1) ≤ pops.toNat
      omega

theorem run {n : UInt64} {t t' : TracedWalk} {turns : List TracedWalk} (h : Tally n t)
    (hrun : Run TracedWalk.step t turns t') : Tally n t' :=
  hrun.invariant (I := Tally n) (fun hs hstep => hs.step hstep) h

/-- Only the pushes can overflow, at a call that is no base case, and only if the calls are too many
for a word. -/
theorem overflow {n : UInt64} {t : TracedWalk} {e : Overflow} (h : Tally n t)
    (hstep : t.step = some (.error e)) :
    UInt64.size ≤ calls n.toNat ∧ ∃ v rest, t.pending.pop? = some (v, rest) ∧ ¬ v ≤ 1 ∧
      t.pops.toNat + 1 < UInt64.size ∧ UInt64.size ≤ t.pushes.toNat + 2 := by
  obtain ⟨-, hpops, hpushes, unrolled, htwice, hleaves⟩ := h
  obtain ⟨v, rest, hpop, hturn⟩ := turn_of_step hstep
  have hdepth := CallStack.depth_of_pop? hpop
  have hlt : t.pushes.toNat < UInt64.size := t.pushes.toNat_lt_size
  have hsize : UInt64.size = 2 * 2 ^ 63 := rfl
  cases hturn with
  | popsOverflow hover =>
    -- The pushes are even and at least as many as the pops.
    omega
  | totalOverflow hv hover =>
    -- The total is at most half the pushes.
    have hv' : v.toNat ≤ 1 := le_one_iff.1 hv
    omega
  | pushesOverflow hv hover =>
    have hwork : rest.depth + 3 ≤ t.toWalk.work := by
      have hrest := Walk.length_le_callsOf rest.toList
      have hone := calls_pos (v - 1).toNat
      have htwo := calls_pos (v - 2).toNat
      rw [CallStack.length_toList] at hrest
      rw [Walk.work, CallStack.toList_of_pop? hpop, Walk.callsOf_cons, calls_unroll hv]
      omega
    exact ⟨by omega, v, rest, hpop, hv, by omega, hover⟩

/-- The counters of a walk that has come to its end. -/
theorem ended {n : UInt64} {t : TracedWalk} (h : Tally n t) (hstop : t.step = none) :
    t.total.toNat = fib n.toNat ∧ t.pops.toNat = calls n.toNat ∧
      t.pushes.toNat + 1 = calls n.toNat := by
  have hlive : t.pending.toList = [] := step_eq_none_iff.1 hstop
  have hdue := h.due
  have hpops := h.pops
  have hpushes := h.pushes
  rw [Walk.due, hlive, Walk.owed_nil] at hdue
  rw [Walk.work, hlive] at hpops
  rw [← CallStack.length_toList, hlive] at hpushes
  exact ⟨hdue, hpops, hpushes.trans hpops⟩

end Tally

/-! ## Where a traced walk ends -/

theorem finish_stopped {t : TracedWalk} (h : t.step = none) :
    t.finish = .ok ⟨t.total, ⟨t.pops, t.pushes, t.peakDepth, t.pending.capacity⟩⟩ := by
  rw [finish, h]

theorem finish_overflow {t : TracedWalk} {e : Overflow} (h : t.step = some (.error e)) :
    t.finish = .error e := by
  rw [finish, h]

theorem finish_step {t t' : TracedWalk} (h : t.step = some (.ok t')) : t'.finish = t.finish := by
  rw [finish.eq_1 t, h]

/-- The outcome of a traced walk is read off the state at which its run gets stuck. -/
theorem exists_run_finish (t : TracedWalk) :
    ∃ turns last, Run step t turns last ∧
      ((last.step = none ∧ t.finish = .ok ⟨last.total,
          ⟨last.pops, last.pushes, last.peakDepth, last.pending.capacity⟩⟩) ∨
        (last.step = some (.error .overflow) ∧ t.finish = .error .overflow)) := by
  obtain ⟨turns, last, hrun, hstuck⟩ := Run.exists_stuck work_step t
  have hfinish : last.finish = t.finish := hrun.constant finish_step
  refine ⟨turns, last, hrun, ?_⟩
  rcases hstuck with hstop | hover
  · exact .inl ⟨hstop, hfinish ▸ finish_stopped hstop⟩
  · exact .inr ⟨hover, hfinish ▸ finish_overflow hover⟩

end TracedWalk

theorem fibTraced_of_calls_fit {n : UInt64} (h : calls n.toNat < UInt64.size) :
    ∃ r, fibTraced n = .ok r ∧ r.value.toNat = fib n.toNat ∧ r.stats.pops.toNat = calls n.toNat ∧
      r.stats.pushes.toNat + 1 = calls n.toNat := by
  obtain ⟨turns, last, hrun, ⟨hstop, hfinish⟩ | ⟨hover, -⟩⟩ :=
    TracedWalk.exists_run_finish (.start n)
  · exact ⟨_, hfinish, ((TracedWalk.Tally.start n).run hrun).ended hstop⟩
  · have hsize := (((TracedWalk.Tally.start n).run hrun).overflow hover).1
    omega

/-- If there are too many calls for a word, the turn that overflows is one that pushes two calls.
Its pops still fit, and the total is not touched. -/
theorem fibTraced_of_calls_overflow {n : UInt64} (h : UInt64.size ≤ calls n.toNat) :
    fibTraced n = .error .overflow ∧
      ∃ turns t v rest, Run TracedWalk.step (.start n) turns t ∧
        t.step = some (.error .overflow) ∧ t.pending.pop? = some (v, rest) ∧ ¬ v ≤ 1 ∧
        (∃ pops, checkedAdd t.pops 1 = .ok pops) ∧ checkedAdd t.pushes 2 = .error .overflow := by
  obtain ⟨turns, last, hrun, ⟨hstop, -⟩ | ⟨hover, hfinish⟩⟩ :=
    TracedWalk.exists_run_finish (.start n)
  · have hpops := (((TracedWalk.Tally.start n).run hrun).ended hstop).2.1
    have hlt : last.pops.toNat < UInt64.size := last.pops.toNat_lt_size
    omega
  · obtain ⟨-, v, rest, hpop, hv, hpops, hpushes⟩ :=
      ((TracedWalk.Tally.start n).run hrun).overflow hover
    obtain ⟨pops, htoNat, -⟩ := Checked.ofNat_of_lt hpops
    exact ⟨hfinish, turns, last, v, rest, hrun, hover, hpop, hv,
      ⟨pops, checkedAdd_eq_ok_iff.2 htoNat.symm⟩, checkedAdd_eq_error_iff.2 hpushes⟩

theorem calls_fit_of_fibTraced {n : UInt64} {r : TracedResult} (h : fibTraced n = .ok r) :
    calls n.toNat < UInt64.size := by
  by_contra hover
  rw [(fibTraced_of_calls_overflow (Nat.not_lt.1 hover)).1] at h
  cases h

/-- **The traced walk returns exactly up to index 91**, and then with the value of the plain walk
and counters that match the calls of the recursion. From index 92 on the counter of the pushes
overflows, also where the plain walk still returns. -/
theorem traced_returns_iff_le_91 (n : UInt64) :
    ((∃ r, fibTraced n = .ok r) ↔ n ≤ 91) ∧
      (∀ r, fibTraced n = .ok r →
        fibUnrolled n = .ok r.value ∧ r.value.toNat = fib n.toNat ∧
        r.stats.pops.toNat + 1 = 2 * fib (n.toNat + 1) ∧ r.stats.pops.toNat = calls n.toNat ∧
        r.stats.pops.toNat = (CallTree.of n).made.length ∧
        (CallTree.of n).eval = fibRecursive n ∧
        r.stats.pushes.toNat + 1 = r.stats.pops.toNat) ∧
      (92 ≤ n → fibTraced n = .error .overflow ∧
        ∃ turns t v rest, Run TracedWalk.step (.start n) turns t ∧
          t.step = some (.error .overflow) ∧ t.pending.pop? = some (v, rest) ∧ ¬ v ≤ 1 ∧
          (∃ pops, checkedAdd t.pops 1 = .ok pops) ∧ checkedAdd t.pushes 2 = .error .overflow) ∧
      (92 ≤ n → n ≤ 93 → ∃ v : UInt64, fibUnrolled n = .ok v ∧ v.toNat = fib n.toNat) := by
  refine ⟨⟨?_, ?_⟩, ?_, ?_, ?_⟩
  · rintro ⟨r, hr⟩
    exact UInt64.le_iff_toNat_le.2 (calls_lt_size_iff.1 (calls_fit_of_fibTraced hr))
  · intro hn
    obtain ⟨r, hr, -⟩ := fibTraced_of_calls_fit (calls_fit hn)
    exact ⟨r, hr⟩
  · intro r hr
    have hfit : calls n.toNat < UInt64.size := calls_fit_of_fibTraced hr
    have hle : n.toNat ≤ 91 := calls_lt_size_iff.1 hfit
    have hfib : fib n.toNat < UInt64.size := fib_lt_size_iff.2 (by omega)
    obtain ⟨r', hr', hvalue, hpops, hpushes⟩ := fibTraced_of_calls_fit hfit
    obtain rfl : r' = r := Except.ok.inj (hr'.symm.trans hr)
    refine ⟨?_, hvalue, ?_, hpops, ?_, CallTree.eval_of n, hpushes.trans hpops.symm⟩
    · rw [fibUnrolled_eq, ← hvalue, Checked.ofNat_toNat]
    · rw [hpops, calls_add_one]
    · rw [CallTree.made_of hfib, CallTree.length_arguments_of, hpops]
  · intro hn
    exact fibTraced_of_calls_overflow (calls_overflow hn)
  · intro _ hn
    obtain ⟨v, hv, hok⟩ := Checked.ofNat_of_lt (fib_fits hn)
    exact ⟨v, (fibUnrolled_eq n).trans hok, hv⟩

end Unroll
