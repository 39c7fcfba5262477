import Unroll.Fibonacci.Unrolled

/-!
# Counting the turns of an unrolled recursion

The walk of `Unroll.Fibonacci.Unrolled` with counters beside it. The counters are checked 64-bit
words like the total, so a traced walk can overflow where the plain one does not.
-/

namespace Unroll

/-- How a walk used its stack. -/
structure StackStats where
  /-- Calls taken off the stack. -/
  pops : UInt64
  /-- Calls put on it, the first one not counted. -/
  pushes : UInt64
  /-- The largest number of calls pending at once. -/
  peakDepth : Nat
  /-- Slots allocated by the end. -/
  slots : Nat
  deriving DecidableEq, Repr

/-- A value together with the counters of the walk that found it. -/
structure TracedResult where
  value : UInt64
  stats : StackStats
  deriving DecidableEq, Repr

/-- A walk with its counters so far. -/
structure TracedWalk extends Walk where
  pops : UInt64
  pushes : UInt64
  peakDepth : Nat

namespace TracedWalk

def start (n : UInt64) : TracedWalk :=
  { Walk.start n with pops := 0, pushes := 0, peakDepth := (Walk.start n).pending.depth }

/-- One turn of the walk, counted, or nothing when no call is pending. -/
def step (t : TracedWalk) : Option (Checked TracedWalk) :=
  match t.pending.pop? with
  | none => none
  | some (n, rest) => some do
    let pops ← checkedAdd t.pops 1
    if n ≤ 1 then
      let total ← checkedAdd t.total n
      return { t with pending := rest, total, pops }
    else
      let pending := (rest.push (n - 1)).push (n - 2)
      let pushes ← checkedAdd t.pushes 2
      return { t with pending, pops, pushes, peakDepth := max t.peakDepth pending.depth }

theorem work_step {t t' : TracedWalk} (h : t.step = some (.ok t')) :
    t'.toWalk.work < t.toWalk.work := by
  simp only [step] at h
  split at h
  · simp at h
  · next n rest popped =>
    have live := CallStack.toList_of_pop? popped
    simp only [Option.some.injEq] at h
    cases pops : checkedAdd t.pops 1 with
    | error e => simp [pops, bind, Except.bind] at h
    | ok newPops =>
      simp only [pops, bind, Except.bind] at h
      split at h
      · cases sum : checkedAdd t.total n with
        | error e => simp [sum] at h
        | ok total =>
          simp only [sum, pure, Except.pure, Except.ok.injEq] at h
          subst h
          have := calls_pos n.toNat
          simp only [Walk.work, live, Walk.callsOf_cons]
          omega
      · next inner =>
        cases pushes : checkedAdd t.pushes 2 with
        | error e => simp [pushes] at h
        | ok newPushes =>
          simp only [pushes, pure, Except.pure, Except.ok.injEq] at h
          subst h
          have := Walk.callsOf_unroll inner rest.toList
          simp only [Walk.work, live, CallStack.toList_push]
          omega

/-- Takes turns until no call is pending. -/
def finish (t : TracedWalk) : Checked TracedResult :=
  match _ : t.step with
  | none =>
    .ok ⟨t.total, ⟨t.pops, t.pushes, t.peakDepth, t.pending.capacity⟩⟩
  | some (.error e) => .error e
  | some (.ok t') => t'.finish
termination_by t.toWalk.work
decreasing_by exact work_step ‹_›

end TracedWalk

/-- The `n`-th Fibonacci number by the walk of `fibUnrolled`, with the counters of the walk. -/
def fibTraced (n : UInt64) : Checked TracedResult :=
  (TracedWalk.start n).finish

end Unroll
