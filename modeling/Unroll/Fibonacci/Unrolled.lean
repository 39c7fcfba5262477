import Unroll.CallStack
import Unroll.Checked
import Unroll.Fibonacci

/-!
# Fibonacci numbers by an unrolled recursion

The recursion is walked node for node with the pending calls on an explicit `CallStack`: a base case
is added to a running total, any other call is replaced by the two calls it makes. The walk ends
because every turn takes one call off the trees of calls still to be made (`Walk.work_step`).
-/

namespace Unroll

/-- A walk over a recursion tree: the calls still to be made and the sum of the base cases met. -/
structure Walk where
  pending : CallStack UInt64
  total : UInt64

namespace Walk

/-- The walk before its first turn, with the call on `n` pending. -/
def start (n : UInt64) : Walk :=
  ⟨.ofRoot n, 0⟩

/-- One turn of the walk, or nothing when no call is pending. The call on `n - 2` is made before the
one on `n - 1`. -/
def step (w : Walk) : Option (Checked Walk) :=
  match w.pending.pop? with
  | none => none
  | some (n, rest) =>
    if n ≤ 1 then
      some do
        let total ← checkedAdd w.total n
        return ⟨rest, total⟩
    else
      some (.ok ⟨(rest.push (n - 1)).push (n - 2), w.total⟩)

/-- The number of calls that a list of pending calls stands for. -/
def callsOf (pending : List UInt64) : Nat :=
  pending.foldr (fun n total => calls n.toNat + total) 0

/-- The number of turns that a walk has before it. -/
def work (w : Walk) : Nat :=
  callsOf w.pending.toList

@[simp]
theorem callsOf_cons (n : UInt64) (rest : List UInt64) :
    callsOf (n :: rest) = calls n.toNat + callsOf rest := by
  simp [callsOf]

/-- Replacing a call by the two calls it makes takes exactly that call away. -/
theorem callsOf_unroll {n : UInt64} (h : ¬ n ≤ 1) (rest : List UInt64) :
    callsOf ((n - 2) :: (n - 1) :: rest) + 1 = callsOf (n :: rest) := by
  simp only [UInt64.le_iff_toNat_le, UInt64.reduceToNat, Nat.not_le] at h
  have one : (n - 1).toNat = n.toNat - 1 :=
    UInt64.toNat_sub_of_le _ _ (by simp only [UInt64.le_iff_toNat_le, UInt64.reduceToNat]; omega)
  have two : (n - 2).toNat = n.toNat - 2 :=
    UInt64.toNat_sub_of_le _ _ (by simp only [UInt64.le_iff_toNat_le, UInt64.reduceToNat]; omega)
  simp only [callsOf_cons, one, two, calls_of_two_le (show 2 ≤ n.toNat from h)]
  omega

theorem work_step {w w' : Walk} (h : w.step = some (.ok w')) : w'.work < w.work := by
  simp only [step] at h
  split at h
  · simp at h
  · next n rest popped =>
    have live := CallStack.toList_of_pop? popped
    split at h
    · next base =>
      simp only [Option.some.injEq] at h
      cases sum : checkedAdd w.total n with
      | error e => simp [sum, bind, Except.bind] at h
      | ok total =>
        simp only [sum, bind, Except.bind, pure, Except.pure, Except.ok.injEq] at h
        subst h
        have := calls_pos n.toNat
        simp only [work, live, callsOf_cons]
        omega
    · next inner =>
      simp only [Option.some.injEq, Except.ok.injEq] at h
      subst h
      have := callsOf_unroll inner rest.toList
      simp only [work, live, CallStack.toList_push]
      omega

/-- Takes turns until no call is pending and gives the total. -/
def finish (w : Walk) : Checked UInt64 :=
  match _ : w.step with
  | none => .ok w.total
  | some (.error e) => .error e
  | some (.ok w') => w'.finish
termination_by w.work
decreasing_by exact work_step ‹_›

end Walk

/-- The `n`-th Fibonacci number by walking its recursion tree on an explicit stack. -/
def fibUnrolled (n : UInt64) : Checked UInt64 :=
  (Walk.start n).finish

end Unroll
