import Mathlib.Order.Bounds.Defs
import Unroll.Proofs.PendingDepth

/-!
# A pending call and the calls below it

A walk that has other calls pending below does what it would do without them (`Walk.Framed`): every
turn of the walk on its own is a turn of the walk on top of them (`Walk.Framed.step`), and so is
every run. A call is therefore carried out from any state as if it were alone: it takes as many
turns, adds the same value and needs as much room, and it ends with the calls that were below it.
In between each turn works above them, so that their slots stay as they are (`Walk.slots_run`).
What the other slots hold plays no part.
-/

namespace Unroll

namespace Walk

/-! ## Walks on top of other calls -/

/-- The second walk is the first one on top of further pending calls. Of the slots nothing is
said. -/
structure Framed (rest : List UInt64) (s w : Walk) : Prop where
  live : w.pending.toList = s.pending.toList ++ rest
  total_eq : w.total = s.total

namespace Framed

variable {rest : List UInt64} {s s' w : Walk}

theorem depth (h : Framed rest s w) : w.pending.depth = s.pending.depth + rest.length := by
  rw [← CallStack.length_toList, h.live, List.length_append, CallStack.length_toList]

theorem step (h : Framed rest s w) (hstep : s.step = some (.ok s')) :
    ∃ w', w.step = some (.ok w') ∧ Framed rest s' w' := by
  obtain ⟨v, below, hpop, hturn⟩ := turn_of_step hstep
  have hlive : w.pending.toList = v :: (below.toList ++ rest) := by
    rw [h.live, CallStack.toList_of_pop? hpop, List.cons_append]
  obtain ⟨below', hpop', hbelow⟩ := CallStack.pop?_of_toList hlive
  cases hturn with
  | @base total hv htotal =>
    rw [← h.total_eq] at htotal
    exact ⟨⟨below', total⟩, step_base hpop' hv htotal, hbelow, rfl⟩
  | inner hv =>
    refine ⟨_, step_inner hpop' hv, ?_, h.total_eq⟩
    simp only [CallStack.toList_push, hbelow, List.cons_append]

/-- The walk on top of other calls is deeper by their number at every state. -/
theorem map_depth {own turns : List Walk} (h : List.Forall₂ (Framed rest) own turns) :
    turns.map (fun w => w.pending.depth) = own.map fun s => s.pending.depth + rest.length := by
  induction h with
  | nil => rfl
  | cons hframed _ ih => rw [List.map_cons, List.map_cons, hframed.depth, ih]

end Framed

theorem depth_pos_of_step {w : Walk} {outcome : Checked Walk} (h : w.step = some outcome) :
    0 < w.pending.depth := by
  obtain ⟨v, below, hpop, -⟩ := turn_of_step h
  rw [← CallStack.depth_of_pop? hpop]
  exact Nat.succ_pos _

/-! ## The slots below a call -/

/-- A turn leaves the slots below the top one as they are. -/
theorem slots_step {w w' : Walk} (h : w.step = some (.ok w')) {i : Nat}
    (hi : i + 1 < w.pending.depth) : w'.pending.slots[i]? = w.pending.slots[i]? := by
  obtain ⟨v, below, hpop, hturn⟩ := turn_of_step h
  have hdepth := CallStack.depth_of_pop? hpop
  have hslots := CallStack.slots_of_pop? hpop
  cases hturn with
  | base => rw [← hslots]
  | inner =>
    rw [CallStack.getElem?_slots_push, CallStack.getElem?_slots_push, CallStack.depth_push,
      if_neg (by omega), if_neg (by omega), hslots]

/-- While all turns are taken above the first `k` slots, these slots are kept. -/
theorem slots_run {w w' : Walk} {turns : List Walk} (h : Run step w turns w') {k : Nat}
    (habove : ∀ s ∈ turns, k < s.pending.depth) :
    ∀ s ∈ turns ++ [w'], ∀ i < k, s.pending.slots[i]? = w.pending.slots[i]? := by
  induction h with
  | refl w => exact List.forall_mem_singleton.2 fun i _ => rfl
  | turn hstep _ ih =>
    rw [List.forall_mem_cons] at habove
    refine List.forall_mem_cons.2 ⟨fun i _ => rfl, ?_⟩
    intro s hs i hi
    rw [ih habove.2 s hs i hi]
    exact slots_step hstep (Nat.lt_of_le_of_lt hi habove.1)

/-! ## Where a walk stops -/

/-- A walk whose due fits takes a turn for each call that its pending calls stand for and stops with
what was due. -/
theorem exists_run_stop {w : Walk} (hfit : w.due < UInt64.size) :
    ∃ turns last, Run step w turns last ∧ last.step = none ∧ turns.length = w.work ∧
      last.total.toNat = w.due ∧ w.finish = .ok last.total := by
  obtain ⟨turns, last, hrun, ⟨hstop, hfinish⟩ | ⟨hover, -⟩⟩ := exists_run_finish w
  · have hlive : last.pending.toList = [] := step_eq_none_iff.1 hstop
    have hlength := length_run hrun
    have hdue := due_run hrun
    rw [work, hlive] at hlength
    rw [due, hlive] at hdue
    exact ⟨turns, last, hrun, hstop, hlength, hdue, hfinish⟩
  · exact absurd hover (no_overflow hfit hrun).2

theorem callsOf_eq (pending : List UInt64) :
    callsOf pending = (pending.map fun v => 2 * fib (v.toNat + 1) - 1).sum := by
  induction pending with
  | nil => rfl
  | cons v pending ih =>
    have hcalls := calls_add_one v.toNat
    rw [callsOf_cons, List.map_cons, List.sum_cons, ih]
    omega

/-! ## A call on its own -/

/-- The walk with one pending call and any total. -/
def alone (v total : UInt64) : Walk :=
  ⟨.ofRoot v, total⟩

/-- The depths on the way of a call on its own, from the first state to the last. -/
theorem isGreatest_depth_alone {v total : UInt64} {turns : List Walk} {last : Walk}
    (hrun : Run step (alone v total) turns last) (hstop : last.step = none) :
    IsGreatest {d | d ∈ (turns ++ [last]).map fun s => s.pending.depth} (v.toNat / 2 + 1) := by
  constructor
  · -- the way down is the beginning of every walk, the counters beside it having room for it
    let counted : TracedWalk := { alone v total with pops := 0, pushes := 0, peakDepth := 1 }
    have hroom : 0 + v.toNat < UInt64.size := by
      have := v.toNat_lt_size
      omega
    obtain ⟨down, deepest, hdown, hdepth⟩ :=
      TracedWalk.exists_descent (t := counted) v rfl hroom hroom
    have hfirst : counted.pending.depth = 1 := rfl
    obtain ⟨up, rfl, hup⟩ := (TracedWalk.toWalk_run hdown).rest_of_stuck hrun fun next hnext => by
      rw [hstop] at hnext
      cases hnext
    have hmem : deepest.toWalk ∈ up ++ [last] := by
      cases hup with
      | refl => exact List.mem_singleton_self _
      | turn => exact List.mem_cons_self
    refine List.mem_map.2 ⟨deepest.toWalk, ?_, by omega⟩
    rw [List.append_assoc]
    exact List.mem_append_right _ hmem
  · intro d hd
    obtain ⟨s, hs, rfl⟩ := List.mem_map.1 hd
    have hshallow := hrun.forall_mem (I := fun s => Shallow v s.pending) shallow_step
      (shallow_start v) s hs
    exact hshallow.depth_le

/-! ## A call with calls below it -/

/-- The call on `v` at the top of `w`, with the calls `rest` below it, is carried out by `turns` and
has returned at `last`. -/
structure Returns (v : UInt64) (rest : List UInt64) (w : Walk) (turns : List Walk) (last : Walk) :
    Prop where
  run : Run step w turns last
  length_eq : turns.length = 2 * fib (v.toNat + 1) - 1
  live : last.pending.toList = rest
  total_eq : last.total.toNat = w.total.toNat + fib v.toNat
  /-- Every turn pops a slot that is not below that of `v`, and pushes onto what is then left. -/
  popped : ∀ s ∈ turns, ∃ n below, s.pending.pop? = some (n, below) ∧ rest.length ≤ below.depth
  /-- The slots below that of `v` are kept at all times. -/
  slots_eq : ∀ s ∈ turns ++ [last], ∀ i < rest.length,
    s.pending.slots[i]? = w.pending.slots[i]?
  depth_greatest : IsGreatest {d | d ∈ (turns ++ [last]).map fun s => s.pending.depth}
    (rest.length + v.toNat / 2 + 1)

/-- A call at the top of any stack returns, if there is room for its value. -/
theorem exists_returns {w : Walk} {v : UInt64} {rest : List UInt64}
    (hlive : w.pending.toList = v :: rest) (hfit : w.total.toNat + fib v.toNat < UInt64.size) :
    ∃ turns last, Returns v rest w turns last := by
  have hdue : (alone v w.total).due = w.total.toNat + fib v.toNat := by
    simp [due, alone]
  have hwork : (alone v w.total).work = 2 * fib (v.toNat + 1) - 1 := by
    simp [work, alone, callsOf_eq]
  obtain ⟨own, stop, hown, hstop, hlength, htotal, -⟩ := exists_run_stop (hdue ▸ hfit)
  obtain ⟨turns, last, hrun, hall, hlast⟩ :=
    hown.simulate (R := Framed rest) Framed.step (w := w) ⟨hlive, rfl⟩
  have habove : ∀ s ∈ turns, rest.length < s.pending.depth := by
    intro s hs
    have hmem := List.mem_map_of_mem (f := fun w : Walk => w.pending.depth) hs
    rw [Framed.map_depth hall] at hmem
    obtain ⟨s₀, hs₀, hdepth⟩ := List.mem_map.1 hmem
    obtain ⟨next, hnext⟩ := hown.exists_step_of_mem hs₀
    have hpos := depth_pos_of_step hnext
    omega
  refine ⟨turns, last, hrun, ?_, ?_, ?_, ?_, slots_run hrun habove, ?_⟩
  · rw [← hall.length_eq, hlength, hwork]
  · rw [hlast.live, step_eq_none_iff.1 hstop, List.nil_append]
  · rw [hlast.total_eq, htotal, hdue]
  · intro s hs
    obtain ⟨next, hnext⟩ := hrun.exists_step_of_mem hs
    obtain ⟨n, below, hpop, -⟩ := turn_of_step hnext
    have hdepth := CallStack.depth_of_pop? hpop
    have := habove s hs
    exact ⟨n, below, hpop, by omega⟩
  · obtain ⟨hdeepest, hbound⟩ := isGreatest_depth_alone hown hstop
    rw [Framed.map_depth (List.rel_append hall (.cons hlast .nil))]
    constructor
    · obtain ⟨s, hs, hdepth⟩ := List.mem_map.1 hdeepest
      exact List.mem_map.2 ⟨s, hs, by omega⟩
    · intro d hd
      obtain ⟨s, hs, rfl⟩ := List.mem_map.1 hd
      have hle : s.pending.depth ≤ v.toNat / 2 + 1 := hbound (List.mem_map.2 ⟨s, hs, rfl⟩)
      omega

end Walk

/-- **A pending call returns to the calls below it.** From every state of a walk, whatever its slots
hold, the call at the top is carried out in one turn for each call of its tree, if its value fits on
top of the total. Then its value is in the total, and the calls that were below it are pending, as
if nothing else had happened: no turn has popped or written a slot below that of the call, and the
stack was at most half the index of the call and one deeper than they are, and once that deep. So a
walk from any state stops after the turns of all pending calls together, if their values fit. -/
theorem call_returns_to_caller (w : Walk) :
    (∀ v rest, w.pending.toList = v :: rest → w.total.toNat + fib v.toNat ≤ 2 ^ 64 - 1 →
      ∃ turns last, Walk.Returns v rest w turns last) ∧
    (w.total.toNat + (w.pending.toList.map fun v => fib v.toNat).sum ≤ 2 ^ 64 - 1 →
      ∃ turns last, Run Walk.step w turns last ∧ last.step = none ∧
        turns.length = (w.pending.toList.map fun v => 2 * fib (v.toNat + 1) - 1).sum ∧
        last.total.toNat = w.total.toNat + (w.pending.toList.map fun v => fib v.toNat).sum ∧
        w.finish = .ok last.total) := by
  constructor
  · intro v rest hlive hfit
    exact Walk.exists_returns hlive (Nat.lt_of_le_of_lt hfit (by decide))
  · intro hfit
    obtain ⟨turns, last, hrun, hstop, hlength, htotal, hfinish⟩ :=
      Walk.exists_run_stop (w := w) (Nat.lt_of_le_of_lt hfit (by decide))
    exact ⟨turns, last, hrun, hstop, hlength.trans (Walk.callsOf_eq _), htotal, hfinish⟩

/-- The call on 3 with the call on 7 below it, two stale slots above and something in the total. -/
theorem call_returns_to_caller_stale :
    let w : Walk := ⟨⟨#[7, 3, 9, 5], 2, by decide⟩, 10⟩
    (∃ turns last, Walk.Returns 3 [7] w turns last ∧ turns.length = 5 ∧ last.total.toNat = 12) ∧
      ∃ turns last, Run Walk.step w turns last ∧ last.step = none ∧ turns.length = 46 ∧
        last.total.toNat = 25 := by
  intro w
  obtain ⟨hcall, hwalk⟩ := call_returns_to_caller w
  obtain ⟨turns, last, hreturns⟩ := hcall 3 [7] rfl (by decide)
  obtain ⟨all, stop, hrun, hstop, hlength, htotal, -⟩ := hwalk (by decide)
  exact ⟨⟨turns, last, hreturns, hreturns.length_eq, hreturns.total_eq⟩,
    all, stop, hrun, hstop, hlength, htotal⟩

end Unroll
