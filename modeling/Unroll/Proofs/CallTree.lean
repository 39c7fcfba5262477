import Unroll.Proofs.Recursion

/-!
# The tree of calls

`CallTree.of n` is the tree of the calls that the recursion on `n` makes: evaluating it is the
recursion (`CallTree.eval_of`). Two lists of arguments are read off a tree. `arguments` walks it in
preorder; `made` stops where an overflow ends the recursion, and is all of `arguments` when there
is none (`CallTree.made_of_eval`). Exchanging the two calls of every call (`mirror`) changes their
order only. In the tree of `n` the call on `k` stands `fib (n - k + 1)` times (`CallTree.count_of`).
-/

namespace Unroll

/-- A tree of calls, each with its argument. -/
inductive CallTree where
  /-- A call that makes no further call. -/
  | base (n : UInt64)
  /-- A call and the two calls it makes, in the order in which it makes them. -/
  | inner (n : UInt64) (above below : CallTree)

namespace CallTree

/-- The calls that the recursion on `n` makes. -/
def of (n : UInt64) : CallTree :=
  if h : n ≤ 1 then
    .base n
  else
    .inner n (of (n - 1)) (of (n - 2))
termination_by n.toNat
decreasing_by
  · rw [toNat_sub_one h]
    rw [le_one_iff] at h
    omega
  · rw [toNat_sub_two h]
    rw [le_one_iff] at h
    omega

/-- What the call at the root returns. -/
def eval : CallTree → Checked UInt64
  | base n => .ok n
  | inner _ above below => do checkedAdd (← above.eval) (← below.eval)

/-- The arguments of all calls, each call before the ones it makes. -/
def arguments : CallTree → List UInt64
  | base n => [n]
  | inner n above below => n :: (above.arguments ++ below.arguments)

/-- The arguments of the calls that are really made: after an overflow there is no further one. -/
def made : CallTree → List UInt64
  | base n => [n]
  | inner n above below =>
    n :: (above.made ++ match above.eval with
      | .ok _ => below.made
      | .error _ => [])

/-- The tree with the two calls of every call exchanged. -/
def mirror : CallTree → CallTree
  | base n => .base n
  | inner n above below => .inner n below.mirror above.mirror

theorem of_base {n : UInt64} (h : n ≤ 1) : of n = .base n := by
  rw [of, dif_pos h]

theorem of_inner {n : UInt64} (h : ¬ n ≤ 1) : of n = .inner n (of (n - 1)) (of (n - 2)) := by
  rw [of, dif_neg h]

/-- The tree is that of the recursion: evaluating it is calling the recursion. -/
theorem eval_of (n : UInt64) : (of n).eval = fibRecursive n := by
  induction n using fibRecursive.induct with
  | case1 n h => rw [of_base h, eval, fibRecursive_base h]
  | case2 n h ih₁ ih₂ => rw [of_inner h, eval, ih₁, ih₂, fibRecursive_inner h]

/-- Without an overflow every call of the tree is made. -/
theorem made_of_eval {t : CallTree} {v : UInt64} (h : t.eval = .ok v) : t.made = t.arguments := by
  induction t generalizing v with
  | base n => rfl
  | inner n above below ih₁ ih₂ =>
    rw [eval] at h
    cases ha : above.eval with
    | error e => rw [ha] at h; cases h
    | ok a =>
      cases hb : below.eval with
      | error e => rw [ha, hb] at h; cases h
      | ok b =>
        simp only [made, arguments, ha]
        rw [ih₁ ha, ih₂ hb]

/-- The recursion on `n` makes every call of its tree if the value fits. -/
theorem made_of {n : UInt64} (h : fib n.toNat < UInt64.size) : (of n).made = (of n).arguments := by
  obtain ⟨v, -, hok⟩ := Checked.ofNat_of_lt h
  rw [← fibRecursive_eq, ← eval_of] at hok
  exact made_of_eval hok

theorem mirror_arguments_perm (t : CallTree) : t.mirror.arguments.Perm t.arguments := by
  induction t with
  | base n => exact .refl _
  | inner n above below ih₁ ih₂ =>
    exact (List.perm_append_comm.trans (ih₁.append ih₂)).cons n

/-! ## The mirrored walk -/

theorem mirror_arguments_base {n : UInt64} (h : n ≤ 1) : (of n).mirror.arguments = [n] := by
  rw [of_base h, mirror, arguments]

theorem mirror_arguments_inner {n : UInt64} (h : ¬ n ≤ 1) :
    (of n).mirror.arguments =
      n :: ((of (n - 2)).mirror.arguments ++ (of (n - 1)).mirror.arguments) := by
  rw [of_inner h, mirror, arguments]

/-! ## How often each call is made -/

theorem arguments_inner {n : UInt64} (h : ¬ n ≤ 1) :
    (of n).arguments = n :: ((of (n - 1)).arguments ++ (of (n - 2)).arguments) := by
  rw [of_inner h, arguments]

theorem length_arguments_of (n : UInt64) : (of n).arguments.length = calls n.toNat := by
  induction n using fibRecursive.induct with
  | case1 n h => rw [of_base h, arguments, List.length_singleton, calls_base h]
  | case2 n h ih₁ ih₂ =>
    rw [arguments_inner h, List.length_cons, List.length_append, ih₁, ih₂, calls_unroll h]

/-- How often a call stands in the tree of `n`, by the trees of the two calls that `n` makes. -/
theorem count_inner {n : UInt64} (h : ¬ n ≤ 1) (k : UInt64) :
    (of n).arguments.count k = (of (n - 1)).arguments.count k + (of (n - 2)).arguments.count k +
      if n.toNat = k.toNat then 1 else 0 := by
  rw [arguments_inner h, List.count_cons, List.count_append]
  simp only [beq_iff_eq, UInt64.toNat_inj]

/-- The call on `k`, unless `k` is zero, stands `fib (n - k + 1)` times in the tree of `n`, and not
at all if `n` is below `k`. -/
theorem count_of {k : UInt64} (hk : 1 ≤ k.toNat) (n : UInt64) :
    (of n).arguments.count k = fib (n.toNat + 1 - k.toNat) := by
  induction n using fibRecursive.induct with
  | case1 n h =>
    rw [of_base h, arguments, List.count_singleton]
    rw [le_one_iff] at h
    by_cases e : n = k
    · subst e
      rw [beq_self_eq_true, if_pos rfl, Nat.add_sub_cancel_left]
      rfl
    · have hne : n.toNat ≠ k.toNat := mt UInt64.toNat_inj.1 e
      rw [beq_eq_false_iff_ne.2 e, show n.toNat + 1 - k.toNat = 0 by omega]
      rfl
  | case2 n h ih₁ ih₂ =>
    rw [count_inner h, ih₁, ih₂, toNat_sub_one h, toNat_sub_two h]
    rw [le_one_iff] at h
    exact (fib_distance hk (by omega)).symm

/-- The call on zero stands `fib (n - 1)` times in the tree of `n`. -/
theorem count_zero_of {n : UInt64} (hn : 1 ≤ n.toNat) :
    (of n).arguments.count 0 = fib (n.toNat - 1) := by
  induction n using fibRecursive.induct with
  | case1 n h =>
    obtain rfl : n = 1 := UInt64.toNat_inj.1 (Nat.le_antisymm (le_one_iff.1 h) hn)
    rw [of_base h]
    rfl
  | case2 n h ih₁ ih₂ =>
    have hone := toNat_sub_one h
    have htwo := toNat_sub_two h
    have hzero : (0 : UInt64).toNat = 0 := rfl
    rw [count_inner h, if_neg (by omega), Nat.add_zero]
    rw [le_one_iff] at h
    rw [ih₁ (by omega), hone]
    by_cases e : n.toNat = 2
    · -- The call on `2` is the only one that makes the call on `0` itself.
      have hlast : n - 2 = 0 := UInt64.toNat_inj.1 (by omega)
      rw [hlast, of_base (by decide), e]
      rfl
    · rw [ih₂ (by omega), htwo, fib_of_two_le (show 2 ≤ n.toNat - 1 by omega)]
      congr 2

end CallTree

end Unroll
