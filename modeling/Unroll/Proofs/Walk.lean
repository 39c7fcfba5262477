import Unroll.Fibonacci.Unrolled
import Unroll.Proofs.CallTree
import Unroll.Proofs.Run

/-!
# Walking the tree of calls

A walk keeps what it is due to end with (`Walk.due`): the total so far and the values of all pending
calls. Every turn keeps it (`Walk.due_step`) and uses up one call of the pending trees
(`Walk.work_of_step`), so a walk stops, and it ends with exactly what was due (`Walk.finish_eq`).
The depth of the stack plays no part in this: it goes up and down on the way.
-/

namespace Unroll

namespace Walk

/-! ## What a turn does -/

theorem step_eq_none_iff {w : Walk} : w.step = none ↔ w.pending.toList = [] := by
  rw [← CallStack.pop?_eq_none_iff]
  unfold step
  cases hpop : w.pending.pop? with
  | none => simp
  | some popped =>
    simp only [reduceCtorEq, iff_false]
    split <;> exact Option.some_ne_none _

theorem step_base {w : Walk} {n total : UInt64} {rest : CallStack UInt64}
    (hpop : w.pending.pop? = some (n, rest)) (hn : n ≤ 1)
    (ht : w.total.toNat + n.toNat = total.toNat) : w.step = some (.ok ⟨rest, total⟩) := by
  unfold step
  simp only [hpop, if_pos hn]
  rw [checkedAdd_eq_ok_iff.2 ht]
  rfl

theorem step_inner {w : Walk} {n : UInt64} {rest : CallStack UInt64}
    (hpop : w.pending.pop? = some (n, rest)) (hn : ¬ n ≤ 1) :
    w.step = some (.ok ⟨(rest.push (n - 1)).push (n - 2), w.total⟩) := by
  unfold step
  simp only [hpop, if_neg hn]

/-- Everything that a turn can do once the call on `n` is off the stack. -/
inductive Turn (w : Walk) (n : UInt64) (rest : CallStack UInt64) : Checked Walk → Prop
  | overflow (hn : n ≤ 1) (h : UInt64.size ≤ w.total.toNat + n.toNat) :
      Turn w n rest (.error .overflow)
  | base {total : UInt64} (hn : n ≤ 1) (h : w.total.toNat + n.toNat = total.toNat) :
      Turn w n rest (.ok ⟨rest, total⟩)
  | inner (hn : ¬ n ≤ 1) :
      Turn w n rest (.ok ⟨(rest.push (n - 1)).push (n - 2), w.total⟩)

theorem turn_of_step {w : Walk} {outcome : Checked Walk} (h : w.step = some outcome) :
    ∃ n rest, w.pending.pop? = some (n, rest) ∧ Turn w n rest outcome := by
  cases hpop : w.pending.pop? with
  | none =>
    rw [step_eq_none_iff.2 (CallStack.pop?_eq_none_iff.1 hpop)] at h
    cases h
  | some popped =>
    obtain ⟨n, rest⟩ := popped
    refine ⟨n, rest, rfl, ?_⟩
    by_cases hn : n ≤ 1
    · by_cases hfit : w.total.toNat + n.toNat < UInt64.size
      · obtain ⟨total, ht, -⟩ := Checked.ofNat_of_lt hfit
        rw [step_base hpop hn ht.symm] at h
        cases h
        exact .base hn ht.symm
      · have hover : UInt64.size ≤ w.total.toNat + n.toNat := Nat.not_lt.1 hfit
        unfold step at h
        simp only [hpop, if_pos hn] at h
        rw [checkedAdd_eq_error_iff.2 hover] at h
        cases h
        exact .overflow hn hover
    · rw [step_inner hpop hn] at h
      cases h
      exact .inner hn

/-! ## What a walk is due to end with -/

/-- The sum of the values of pending calls. -/
def owed (pending : List UInt64) : Nat :=
  (pending.map fun n => fib n.toNat).sum

/-- What a walk has added up and what it still owes. -/
def due (w : Walk) : Nat :=
  w.total.toNat + owed w.pending.toList

@[simp]
theorem owed_nil : owed [] = 0 :=
  rfl

@[simp]
theorem owed_cons (n : UInt64) (rest : List UInt64) :
    owed (n :: rest) = fib n.toNat + owed rest :=
  List.sum_cons

theorem due_start (n : UInt64) : (start n).due = fib n.toNat := by
  simp [due, start]

theorem due_step {w w' : Walk} (h : w.step = some (.ok w')) : w'.due = w.due := by
  obtain ⟨n, rest, hpop, hturn⟩ := turn_of_step h
  cases hturn with
  | base hn htotal =>
    unfold due
    simp only [CallStack.toList_of_pop? hpop, owed_cons, fib_base hn]
    omega
  | inner hn =>
    unfold due
    simp only [CallStack.toList_of_pop? hpop, CallStack.toList_push, owed_cons, fib_unroll hn]
    omega

/-- A turn overflows only if what is due does not fit. -/
theorem size_le_due {w : Walk} {e : Overflow} (h : w.step = some (.error e)) :
    UInt64.size ≤ w.due := by
  obtain ⟨n, rest, hpop, hturn⟩ := turn_of_step h
  cases hturn with
  | overflow hn hover =>
    unfold due
    rw [CallStack.toList_of_pop? hpop, owed_cons, fib_base hn]
    omega

theorem work_start (n : UInt64) : (start n).work = calls n.toNat := by
  simp [work, start, callsOf]

theorem length_le_callsOf (pending : List UInt64) : pending.length ≤ callsOf pending := by
  induction pending with
  | nil => exact Nat.zero_le _
  | cons n rest ih =>
    have hpos := calls_pos n.toNat
    rw [List.length_cons, callsOf_cons]
    omega

/-- A turn takes exactly one call off the trees of the pending calls. -/
theorem work_of_step {w w' : Walk} (h : w.step = some (.ok w')) : w'.work + 1 = w.work := by
  obtain ⟨n, rest, hpop, hturn⟩ := turn_of_step h
  cases hturn with
  | base hn =>
    unfold work
    simp only [CallStack.toList_of_pop? hpop, callsOf_cons, calls_base hn]
    omega
  | inner hn =>
    unfold work
    simp only [CallStack.toList_of_pop? hpop, CallStack.toList_push, callsOf_unroll hn]

/-! ## Where a walk ends -/

theorem finish_stopped {w : Walk} (h : w.step = none) : w.finish = .ok w.total := by
  rw [finish, h]

theorem finish_overflow {w : Walk} {e : Overflow} (h : w.step = some (.error e)) :
    w.finish = .error e := by
  rw [finish, h]

theorem finish_step {w w' : Walk} (h : w.step = some (.ok w')) : w'.finish = w.finish := by
  rw [finish.eq_1 w, h]

/-- The outcome of a walk is read off the state at which its run gets stuck. -/
theorem exists_run_finish (w : Walk) :
    ∃ turns last, Run step w turns last ∧
      ((last.step = none ∧ w.finish = .ok last.total) ∨
        (last.step = some (.error .overflow) ∧ w.finish = .error .overflow)) := by
  obtain ⟨turns, last, hrun, hstuck⟩ := Run.exists_stuck work_step w
  have hfinish : last.finish = w.finish := hrun.constant finish_step
  refine ⟨turns, last, hrun, ?_⟩
  rcases hstuck with hstop | hover
  · exact .inl ⟨hstop, hfinish ▸ finish_stopped hstop⟩
  · exact .inr ⟨hover, hfinish ▸ finish_overflow hover⟩

theorem due_run {w w' : Walk} {turns : List Walk} (h : Run step w turns w') : w'.due = w.due :=
  h.constant due_step

/-- A walk ends with what is due. -/
theorem finish_eq (w : Walk) : w.finish = Checked.ofNat w.due := by
  obtain ⟨turns, last, hrun, ⟨hstop, h⟩ | ⟨hover, h⟩⟩ := exists_run_finish w
  · rw [h, ← due_run hrun, due, step_eq_none_iff.1 hstop, owed_nil, Nat.add_zero,
      Checked.ofNat_toNat]
  · have hsize : UInt64.size ≤ last.due := size_le_due hover
    rw [due_run hrun] at hsize
    rw [h, Checked.ofNat_of_size_le hsize]

theorem length_run {w w' : Walk} {turns : List Walk} (h : Run step w turns w') :
    turns.length + w'.work = w.work :=
  h.length_add_measure work_of_step

/-- While what is due fits, the total fits at every state and no turn overflows. -/
theorem no_overflow {w w' : Walk} {turns : List Walk} (hfit : w.due < UInt64.size)
    (h : Run step w turns w') :
    w'.total.toNat ≤ w.due ∧ w'.step ≠ some (.error .overflow) := by
  have hdue : w'.due = w.due := due_run h
  refine ⟨hdue ▸ Nat.le_add_right _ _, fun hover => ?_⟩
  have hsize : UInt64.size ≤ w'.due := size_le_due hover
  omega

end Walk

theorem fibUnrolled_eq (n : UInt64) : fibUnrolled n = Checked.ofNat (fib n.toNat) := by
  rw [fibUnrolled, Walk.finish_eq, Walk.due_start]

/-- **The walk and the recursion have the same outcome** on every word: the Fibonacci number up to
index 93, an overflow from 94 on. The walk takes at most one turn for each call of the recursion and
comes to an end, and up to index 93 its total fits at every turn. -/
theorem unrolled_agrees_with_recursion (n : UInt64) :
    fibUnrolled n = fibRecursive n ∧
      (n ≤ 93 → ∃ v : UInt64, v.toNat = fib n.toNat ∧
        fibUnrolled n = .ok v ∧ fibRecursive n = .ok v) ∧
      (94 ≤ n → fibUnrolled n = .error .overflow ∧ fibRecursive n = .error .overflow) ∧
      (∀ turns w, Run Walk.step (.start n) turns w → turns.length ≤ calls n.toNat) ∧
      (∃ turns last, Run Walk.step (.start n) turns last ∧
        ((last.step = none ∧ fibUnrolled n = .ok last.total) ∨
          (last.step = some (.error .overflow) ∧ fibUnrolled n = .error .overflow))) ∧
      (n ≤ 93 → ∀ turns w, Run Walk.step (.start n) turns w →
        w.total.toNat ≤ fib n.toNat ∧ w.step ≠ some (.error .overflow)) := by
  rw [fibRecursive_eq, fibUnrolled_eq]
  refine ⟨rfl, ?_, ?_, ?_, ?_, ?_⟩
  · intro hn
    obtain ⟨v, hv, hok⟩ := Checked.ofNat_of_lt (fib_fits hn)
    exact ⟨v, hv, hok, hok⟩
  · intro hn
    rw [Checked.ofNat_of_size_le (fib_overflows hn)]
    exact ⟨rfl, rfl⟩
  · intro turns w hrun
    have hlength := Walk.length_run hrun
    rw [Walk.work_start] at hlength
    omega
  · rw [← fibUnrolled_eq]
    exact Walk.exists_run_finish (.start n)
  · intro hn turns w hrun
    have hfit : (Walk.start n).due < UInt64.size := by
      rw [Walk.due_start]
      exact fib_fits hn
    rw [← Walk.due_start]
    exact Walk.no_overflow hfit hrun

end Unroll
