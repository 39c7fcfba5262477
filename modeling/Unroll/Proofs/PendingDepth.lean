import Unroll.Proofs.TracedWalk

/-!
# How deep the stack of a walk gets

The calls that are pending lie apart from each other: read from the bottom of the stack to its top
they go down, and every step but the last one goes down by at least two (`Walk.Spaced`). A turn
keeps this, because the two calls it pushes lie below the call it popped. The gaps leave room for
half as many calls as the index of the first one (`Walk.Spaced.length_le`). That many are pending
after the walk has gone down its first branch (`TracedWalk.exists_descent`), so the bound is the
depth that every walk reaches, and the number of slots it leaves behind.
-/

namespace Unroll

namespace Walk

/-! ## The gaps between pending calls -/

/-- How the pending calls of a walk for `n` lie, top first. -/
structure Spaced (n : UInt64) (live : List UInt64) : Prop where
  increasing : live.Pairwise (·.toNat < ·.toNat)
  /-- The top is left out: it may lie right below the call under it. -/
  gaps : live.tail.IsChain (·.toNat + 2 ≤ ·.toNat)
  /-- The first call is alone, and whatever comes after it is below it. -/
  below : live = [n] ∨ ∀ v ∈ live, v.toNat < n.toNat

namespace Spaced

theorem start (n : UInt64) : Spaced n [n] := by
  refine ⟨List.pairwise_singleton _ _, .nil, .inl rfl⟩

theorem le {n v : UInt64} {live : List UInt64} (h : Spaced n live) (hv : v ∈ live) :
    v.toNat ≤ n.toNat := by
  rcases h.below with rfl | hbelow
  · rw [List.mem_singleton.1 hv]
  · exact Nat.le_of_lt (hbelow v hv)

/-- What lies under a call of a walk for `n` is below `n`. -/
theorem rest_lt {n v : UInt64} {rest : List UInt64} (h : Spaced n (v :: rest)) :
    ∀ u ∈ rest, u.toNat < n.toNat := by
  intro u hu
  rcases h.below with hfirst | hbelow
  · rw [(List.cons.inj hfirst).2] at hu
    cases hu
  · exact hbelow u (List.mem_cons_of_mem v hu)

theorem pop {n v : UInt64} {rest : List UInt64} (h : Spaced n (v :: rest)) : Spaced n rest :=
  ⟨h.increasing.of_cons, h.gaps.tail, .inr h.rest_lt⟩

/-- The two calls that a call makes lie below it, so the gap to the call under them is at least
two. -/
theorem unroll {n v : UInt64} {rest : List UInt64} (h : Spaced n (v :: rest)) (hv : ¬ v ≤ 1) :
    Spaced n ((v - 2) :: (v - 1) :: rest) := by
  have hle : v.toNat ≤ n.toNat := h.le List.mem_cons_self
  have hover : ∀ u ∈ rest, v.toNat < u.toNat := (List.pairwise_cons.1 h.increasing).1
  have hone := toNat_sub_one hv
  have htwo := toNat_sub_two hv
  have hpos : 1 < v.toNat := Nat.not_le.1 (mt le_one_iff.2 hv)
  refine ⟨?_, ?_, .inr ?_⟩
  · refine .cons ?_ (.cons ?_ h.increasing.of_cons)
    · intro u hu
      rcases List.mem_cons.1 hu with rfl | hu
      · omega
      · have := hover u hu
        omega
    · intro u hu
      have := hover u hu
      omega
  · refine h.gaps.cons fun u hu => ?_
    have := hover u (List.mem_of_mem_head? hu)
    omega
  · intro u hu
    rcases List.mem_cons.1 hu with rfl | hu
    · omega
    · rcases List.mem_cons.1 hu with rfl | hu
      · omega
      · exact h.rest_lt u hu

/-- Calls that lie two apart take up twice their number. -/
theorem add_length_le {m : Nat} {v : UInt64} {rest : List UInt64}
    (hgaps : (v :: rest).IsChain (·.toNat + 2 ≤ ·.toNat))
    (hle : ∀ u ∈ v :: rest, u.toNat ≤ m) : v.toNat + 2 * rest.length ≤ m := by
  induction rest generalizing v with
  | nil => exact hle v List.mem_cons_self
  | cons u rest ih =>
    obtain ⟨hgap, hrest⟩ := List.isChain_cons_cons.1 hgaps
    have := ih hrest fun x hx => hle x (List.mem_cons_of_mem v hx)
    rw [List.length_cons]
    omega

theorem length_le {n : UInt64} {live : List UInt64} (h : Spaced n live) :
    live.length ≤ n.toNat / 2 + 1 := by
  match live, h with
  | [], _ => exact Nat.zero_le _
  | [_], _ => exact Nat.le_add_left 1 _
  | top :: v :: rest, h =>
    have htop : top.toNat < v.toNat :=
      (List.pairwise_cons.1 h.increasing).1 v List.mem_cons_self
    have hv : v.toNat < n.toNat := h.rest_lt v List.mem_cons_self
    have hroom : v.toNat + 2 * rest.length ≤ n.toNat - 1 := by
      refine add_length_le h.gaps fun u hu => ?_
      have := h.rest_lt u hu
      omega
    rw [List.length_cons, List.length_cons]
    omega

end Spaced

/-- The stack of a walk for `n`: its calls lie apart, and its slots are not more than the calls that
have room. -/
structure Shallow (n : UInt64) (s : CallStack UInt64) : Prop where
  spaced : Spaced n s.toList
  capacity_le : s.capacity ≤ n.toNat / 2 + 1

theorem Shallow.depth_le {n : UInt64} {s : CallStack UInt64} (h : Shallow n s) :
    s.depth ≤ n.toNat / 2 + 1 := by
  rw [← CallStack.length_toList]
  exact h.spaced.length_le

theorem shallow_start (n : UInt64) : Shallow n (start n).pending :=
  ⟨.start n, Nat.le_add_left 1 _⟩

theorem shallow_step {n : UInt64} {w w' : Walk} (h : Shallow n w.pending)
    (hstep : w.step = some (.ok w')) : Shallow n w'.pending := by
  obtain ⟨v, rest, hpop, hturn⟩ := turn_of_step hstep
  have hspaced := h.spaced
  have hcapacity : rest.capacity ≤ n.toNat / 2 + 1 :=
    CallStack.capacity_of_pop? hpop ▸ h.capacity_le
  rw [CallStack.toList_of_pop? hpop] at hspaced
  cases hturn with
  | base => exact ⟨hspaced.pop, hcapacity⟩
  | inner hv =>
    have hunrolled := hspaced.unroll hv
    have hroom := hunrolled.length_le
    rw [List.length_cons, List.length_cons, CallStack.length_toList] at hroom
    refine ⟨?_, ?_⟩
    · rwa [CallStack.toList_push, CallStack.toList_push]
    · rw [CallStack.capacity_push, CallStack.capacity_push, CallStack.depth_push]
      omega

theorem shallow_run {n : UInt64} {turns : List Walk} {w : Walk}
    (h : Run step (start n) turns w) : Shallow n w.pending :=
  h.invariant (I := fun w => Shallow n w.pending) shallow_step (shallow_start n)

theorem capacity_le_step {w w' : Walk} (h : w.step = some (.ok w')) :
    w.pending.capacity ≤ w'.pending.capacity := by
  obtain ⟨v, rest, hpop, hturn⟩ := turn_of_step h
  rw [← CallStack.capacity_of_pop? hpop]
  cases hturn with
  | base => exact Nat.le_refl _
  | inner =>
    rw [CallStack.capacity_push, CallStack.capacity_push]
    omega

end Walk

namespace TracedWalk

theorem toWalk_run {t t' : TracedWalk} {turns : List TracedWalk} (h : Run step t turns t') :
    Run Walk.step t.toWalk (turns.map toWalk) t'.toWalk :=
  h.map toWalk_step

/-! ## The way down -/

theorem step_inner {t : TracedWalk} {n pops pushes : UInt64} {rest : CallStack UInt64}
    (hpop : t.pending.pop? = some (n, rest)) (hn : ¬ n ≤ 1)
    (hpops : t.pops.toNat + 1 = pops.toNat) (hpushes : t.pushes.toNat + 2 = pushes.toNat) :
    t.step = some (.ok { t with
      pending := (rest.push (n - 1)).push (n - 2), pops, pushes,
      peakDepth := max t.peakDepth ((rest.push (n - 1)).push (n - 2)).depth }) := by
  have hpops' : checkedAdd t.pops 1 = .ok pops := checkedAdd_eq_ok_iff.2 hpops
  have hpushes' : checkedAdd t.pushes 2 = .ok pushes := checkedAdd_eq_ok_iff.2 hpushes
  unfold step
  simp only [hpop, if_neg hn, hpops', hpushes']
  rfl

/-- From a pending call on `v` a walk goes down to a base case and has one more call pending at each
of its turns. The counters have room for this, because every turn takes two off the index. -/
theorem exists_descent (v : UInt64) {t : TracedWalk} {rest : List UInt64}
    (hlive : t.pending.toList = v :: rest) (hpops : t.pops.toNat + v.toNat < UInt64.size)
    (hpushes : t.pushes.toNat + v.toNat < UInt64.size) :
    ∃ turns t', Run step t turns t' ∧ t'.pending.depth = t.pending.depth + v.toNat / 2 := by
  induction v using fibRecursive.induct generalizing t rest with
  | case1 v hv =>
    have hv' : v.toNat ≤ 1 := le_one_iff.1 hv
    exact ⟨[], t, .refl t, by omega⟩
  | case2 v hv _ ih =>
    have htwo := toNat_sub_two hv
    have hpos : 1 < v.toNat := Nat.not_le.1 (mt le_one_iff.2 hv)
    obtain ⟨s, hpop, hs⟩ := CallStack.pop?_of_toList hlive
    have hdepth := CallStack.depth_of_pop? hpop
    obtain ⟨pops, hpops', -⟩ :=
      Checked.ofNat_of_lt (show t.pops.toNat + 1 < UInt64.size by omega)
    obtain ⟨pushes, hpushes', -⟩ :=
      Checked.ofNat_of_lt (show t.pushes.toNat + 2 < UInt64.size by omega)
    have hstep := step_inner hpop hv hpops'.symm hpushes'.symm
    obtain ⟨turns, t', hrun, hreached⟩ := ih (t := { t with
        pending := (s.push (v - 1)).push (v - 2), pops, pushes,
        peakDepth := max t.peakDepth ((s.push (v - 1)).push (v - 2)).depth })
      (CallStack.toList_push _ _) (by simp only; omega) (by simp only; omega)
    refine ⟨t :: turns, t', .turn hstep hrun, ?_⟩
    rw [hreached, CallStack.depth_push, CallStack.depth_push]
    omega

/-- On its way a walk for `n` has as many calls pending as there is room for. -/
theorem exists_deepest (n : UInt64) :
    ∃ turns t, Run step (start n) turns t ∧ t.pending.depth = n.toNat / 2 + 1 ∧
      t.pending.capacity = n.toNat / 2 + 1 := by
  have hlive : (start n).pending.toList = [n] := rfl
  have hcount : 0 + n.toNat < UInt64.size := by
    have := n.toNat_lt_size
    omega
  obtain ⟨turns, t, hrun, hdepth⟩ := exists_descent n hlive hcount hcount
  have hstart : (start n).pending.depth = 1 := rfl
  have hdeep : t.pending.depth = n.toNat / 2 + 1 := by omega
  have hfull := t.pending.depth_le
  have hcapacity : t.pending.capacity ≤ n.toNat / 2 + 1 :=
    (Walk.shallow_run (toWalk_run hrun)).capacity_le
  exact ⟨turns, t, hrun, hdeep, Nat.le_antisymm hcapacity (hdeep ▸ hfull)⟩

/-! ## The depth that is reported -/

/-- The deepest point so far is the number of slots. -/
theorem peakDepth_step {t t' : TracedWalk} (h : t.peakDepth = t.pending.capacity)
    (hstep : t.step = some (.ok t')) : t'.peakDepth = t'.pending.capacity := by
  obtain ⟨v, rest, hpop, hturn⟩ := turn_of_step hstep
  have hcapacity := CallStack.capacity_of_pop? hpop
  have hdepth := CallStack.depth_of_pop? hpop
  have hfull : t.pending.depth ≤ t.pending.capacity := t.pending.depth_le
  cases hturn with
  | base => exact h.trans hcapacity.symm
  | inner hv =>
    show max t.peakDepth ((rest.push (v - 1)).push (v - 2)).depth =
      ((rest.push (v - 1)).push (v - 2)).capacity
    rw [CallStack.capacity_push, CallStack.capacity_push, CallStack.depth_push,
      CallStack.depth_push]
    omega

theorem peakDepth_run {n : UInt64} {turns : List TracedWalk} {t : TracedWalk}
    (h : Run step (start n) turns t) : t.peakDepth = t.pending.capacity :=
  h.invariant (I := fun t => t.peakDepth = t.pending.capacity) peakDepth_step rfl

end TracedWalk

/-- The counters of a traced walk that returns show the depth that every walk reaches. -/
theorem fibTraced_depth {n : UInt64} {r : TracedResult} (h : fibTraced n = .ok r) :
    r.stats.peakDepth = n.toNat / 2 + 1 ∧ r.stats.slots = n.toNat / 2 + 1 := by
  obtain ⟨turns, last, hrun, ⟨hstop, hfinish⟩ | ⟨-, hfinish⟩⟩ :=
    TracedWalk.exists_run_finish (.start n)
  · obtain ⟨down, deepest, hdown, -, hcapacity⟩ := TracedWalk.exists_deepest n
    obtain ⟨rest, -, hrest⟩ := hdown.rest_of_stuck hrun fun next hnext => by
      rw [hstop] at hnext
      cases hnext
    have hge : deepest.pending.capacity ≤ last.pending.capacity :=
      (TracedWalk.toWalk_run hrest).invariant
        (I := fun w => deepest.pending.capacity ≤ w.pending.capacity)
        (fun hw hstep => hw.trans (Walk.capacity_le_step hstep)) (Nat.le_refl _)
    have hle := (Walk.shallow_run (TracedWalk.toWalk_run hrun)).capacity_le
    have hslots : last.pending.capacity = n.toNat / 2 + 1 :=
      Nat.le_antisymm hle (hcapacity ▸ hge)
    rw [fibTraced, hfinish] at h
    cases h
    exact ⟨(TracedWalk.peakDepth_run hrun).trans hslots, hslots⟩
  · rw [fibTraced, hfinish] at h
    cases h

/-- How the pending calls of a walk for `n` lie on its stack, read from the bottom to the top. -/
structure Descending (n : UInt64) (s : CallStack UInt64) : Prop where
  decreasing : s.toList.reverse.Pairwise (· > ·)
  /-- Neighbours other than the topmost pair are two apart. -/
  gaps : s.toList.reverse.dropLast.IsChain fun lower upper => upper.toNat + 2 ≤ lower.toNat
  le : ∀ v ∈ s.toList, v ≤ n
  depth_le : s.depth ≤ n.toNat / 2 + 1
  capacity_le : s.capacity ≤ n.toNat / 2 + 1

theorem Walk.Shallow.descending {n : UInt64} {s : CallStack UInt64} (h : Walk.Shallow n s) :
    Descending n s := by
  refine ⟨?_, ?_, ?_, h.depth_le, h.capacity_le⟩
  · rw [List.pairwise_reverse]
    exact h.spaced.increasing.imp fun hlt => UInt64.lt_iff_toNat_lt.2 hlt
  · rw [List.dropLast_reverse, List.isChain_reverse]
    exact h.spaced.gaps
  · intro v hv
    exact UInt64.le_iff_toNat_le.2 (h.spaced.le hv)

/-- **The stack of a walk gets half as deep as the index.** At every state of a walk, counted or
not, the pending calls go down from the bottom of the stack to its top, by two or more but for the
topmost pair, and neither the calls nor the slots are more than half the index and one. Every walk
that comes to an end, by an overflow or not, goes through one and the same state with that many
calls and slots, and a traced walk that returns reports this number twice. -/
theorem depth_is_half_index (n : UInt64) :
    (∀ turns w, Run Walk.step (.start n) turns w → Descending n w.pending) ∧
      (∀ turns t, Run TracedWalk.step (.start n) turns t → Descending n t.pending) ∧
      (∃ down w, Run Walk.step (.start n) down w ∧ w.pending.depth = n.toNat / 2 + 1 ∧
        w.pending.capacity = n.toNat / 2 + 1 ∧
        ∀ turns last, Run Walk.step (.start n) turns last → (∀ next, last.step ≠ some (.ok next)) →
          ∃ rest, turns = down ++ rest ∧ Run Walk.step w rest last) ∧
      (∃ down t, Run TracedWalk.step (.start n) down t ∧ t.pending.depth = n.toNat / 2 + 1 ∧
        t.pending.capacity = n.toNat / 2 + 1 ∧
        ∀ turns last, Run TracedWalk.step (.start n) turns last →
          (∀ next, last.step ≠ some (.ok next)) →
          ∃ rest, turns = down ++ rest ∧ Run TracedWalk.step t rest last) ∧
      (∀ r, fibTraced n = .ok r →
        r.stats.peakDepth = n.toNat / 2 + 1 ∧ r.stats.slots = n.toNat / 2 + 1) := by
  obtain ⟨down, t, hdown, hdepth, hcapacity⟩ := TracedWalk.exists_deepest n
  refine ⟨?_, ?_, ?_, ?_, fun r => fibTraced_depth⟩
  · intro turns w hrun
    exact (Walk.shallow_run hrun).descending
  · intro turns t hrun
    exact (Walk.shallow_run (TracedWalk.toWalk_run hrun)).descending
  · refine ⟨_, _, TracedWalk.toWalk_run hdown, hdepth, hcapacity, ?_⟩
    intro turns last hrun hstuck
    exact (TracedWalk.toWalk_run hdown).rest_of_stuck hrun hstuck
  · refine ⟨down, t, hdown, hdepth, hcapacity, ?_⟩
    intro turns last hrun hstuck
    exact hdown.rest_of_stuck hrun hstuck

end Unroll
