import Unroll.Proofs.CallStack
import Unroll.Proofs.Walk

/-!
# The order in which a walk makes the calls

A walk makes the calls of the recursion, each as often as the recursion does, in the preorder of the
mirrored tree: the later of two calls comes off the stack first. `Walk.run_call` says so of a single
pending call, on top of any stack and with any total that leaves room for its value. The calls below
it wait until it is done, which is what its induction needs for the two calls that a call makes.
-/

namespace Unroll

namespace Walk

/-- The argument of the call that the next turn takes off the stack. -/
def next? (w : Walk) : Option UInt64 :=
  w.pending.pop?.map Prod.fst

/-- A pending call is carried out in the mirrored preorder of its tree, its value is added to the
total, and the calls below it are pending as before. -/
theorem run_call (n : UInt64) {w : Walk} {rest : List UInt64} (hlive : w.pending.toList = n :: rest)
    (hfit : w.total.toNat + fib n.toNat < UInt64.size) :
    ∃ turns last, Run step w turns last ∧
      turns.map next? = (CallTree.of n).mirror.arguments.map some ∧
      last.pending.toList = rest ∧ last.total.toNat = w.total.toNat + fib n.toNat := by
  induction n using fibRecursive.induct generalizing w rest with
  | case1 n hn =>
    obtain ⟨s, hpop, hs⟩ := CallStack.pop?_of_toList hlive
    rw [fib_base hn] at hfit ⊢
    obtain ⟨total, htotal, -⟩ := Checked.ofNat_of_lt hfit
    refine ⟨[w], ⟨s, total⟩, .turn (step_base hpop hn htotal.symm) (.refl _), ?_, hs, htotal⟩
    rw [CallTree.mirror_arguments_base hn, List.map_singleton, List.map_singleton, next?, hpop]
    rfl
  | case2 n hn ih₁ ih₂ =>
    obtain ⟨s, hpop, hs⟩ := CallStack.pop?_of_toList hlive
    rw [fib_unroll hn] at hfit ⊢
    -- The call on `n - 2` runs to its end before the one on `n - 1` is looked at.
    let unrolled : Walk := ⟨(s.push (n - 1)).push (n - 2), w.total⟩
    have hunrolled : unrolled.pending.toList = (n - 2) :: (n - 1) :: rest := by
      rw [CallStack.toList_push, CallStack.toList_push, hs]
    have hbelow : unrolled.total.toNat + fib (n - 2).toNat < UInt64.size := by
      show w.total.toNat + _ < _
      omega
    obtain ⟨turns₂, mid, hrun₂, hcalls₂, hmid, htotal₂⟩ := ih₂ hunrolled hbelow
    have htotal₂' : mid.total.toNat = w.total.toNat + fib (n - 2).toNat := htotal₂
    have habove : mid.total.toNat + fib (n - 1).toNat < UInt64.size := by omega
    obtain ⟨turns₁, last, hrun₁, hcalls₁, hlast, htotal₁⟩ := ih₁ hmid habove
    refine ⟨w :: (turns₂ ++ turns₁), last, .turn (step_inner hpop hn) (hrun₂.trans hrun₁), ?_,
      hlast, by omega⟩
    rw [CallTree.mirror_arguments_inner hn, List.map_cons, List.map_cons, List.map_append,
      List.map_append, hcalls₁, hcalls₂, next?, hpop]
    rfl

end Walk

/-- **A walk up to index 93 makes the calls in mirrored preorder**: the values it takes off the
stack, from the first turn to the last, are the arguments in the mirrored tree of the recursion's
calls, and every run of the walk is a part of this one. They are the arguments of the calls that the
recursion makes, so each stands as often as in its tree. -/
theorem calls_in_mirrored_preorder {n : UInt64} (hn : n ≤ 93) :
    (∀ k, (CallTree.of k).eval = fibRecursive k ∧
      (CallTree.of k).mirror.arguments =
        if k ≤ 1 then [k]
        else [k] ++ (CallTree.of (k - 2)).mirror.arguments ++
          (CallTree.of (k - 1)).mirror.arguments) ∧
      ∃ turns last popped, Run Walk.step (.start n) turns last ∧ last.step = none ∧
        fibUnrolled n = .ok last.total ∧ turns.map Walk.next? = popped.map some ∧
        popped = (CallTree.of n).mirror.arguments ∧ popped.Perm (CallTree.of n).made ∧
        (∀ turns' w, Run Walk.step (.start n) turns' w → turns' <+: turns) ∧
        (1 ≤ n → (∀ k, 1 ≤ k → k ≤ n → popped.count k = fib (n.toNat - k.toNat + 1)) ∧
          popped.count 0 = fib (n.toNat - 1)) := by
  have hfit : fib n.toNat < UInt64.size := fib_fits hn
  refine ⟨?_, ?_⟩
  · intro k
    refine ⟨CallTree.eval_of k, ?_⟩
    split
    · next hk => exact CallTree.mirror_arguments_base hk
    · next hk => exact CallTree.mirror_arguments_inner hk
  · have hperm := CallTree.mirror_arguments_perm (CallTree.of n)
    have hlive : (Walk.start n).pending.toList = [n] := rfl
    have hzero : (Walk.start n).total.toNat = 0 := rfl
    obtain ⟨turns, last, hrun, hcalls, hlast, htotal⟩ := Walk.run_call n hlive (by omega)
    have hstop : last.step = none := Walk.step_eq_none_iff.2 hlast
    refine ⟨turns, last, _, hrun, hstop, ?_, hcalls, rfl, CallTree.made_of hfit ▸ hperm, ?_, ?_⟩
    · rw [fibUnrolled_eq, ← Checked.ofNat_toNat, htotal, hzero, Nat.zero_add]
    · intro turns' w h
      refine h.initial_of_stuck hrun fun next hnext => ?_
      rw [hstop] at hnext
      cases hnext
    · intro hpos
      refine ⟨?_, ?_⟩
      · intro k hk hkn
        have hle : k.toNat ≤ n.toNat := UInt64.le_iff_toNat_le.1 hkn
        rw [hperm.count_eq, CallTree.count_of (UInt64.le_iff_toNat_le.1 hk), Nat.sub_add_comm hle]
      · rw [hperm.count_eq, CallTree.count_zero_of (UInt64.le_iff_toNat_le.1 hpos)]

/-- The walk on 4 takes the right half of the tree off the stack before the left one. -/
theorem calls_in_mirrored_preorder_four :
    (4 : UInt64) ≤ 93 ∧ ∃ turns last, Run Walk.step (.start 4) turns last ∧ last.step = none ∧
      turns.map Walk.next? = [4, 2, 0, 1, 3, 1, 2, 0, 1].map some := by
  have h4 : (4 : UInt64) ≤ 93 := by decide
  obtain ⟨-, turns, last, popped, hrun, hstop, -, hpopped, rfl, -⟩ := calls_in_mirrored_preorder h4
  refine ⟨h4, turns, last, hrun, hstop, hpopped.trans ?_⟩
  simp [CallTree.of, CallTree.mirror, CallTree.arguments]

end Unroll
