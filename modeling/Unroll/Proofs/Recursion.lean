import Mathlib.Data.Nat.Fib.Basic
import Mathlib.Tactic.NormNum.NatFib
import Unroll.Fibonacci
import Unroll.Fibonacci.Recursive

/-!
# What the recursion computes

`fib` is `Nat.fib` (`fib_eq`), which gives the last index whose value fits into a word
(`fib_lt_size_iff`) and the last one whose number of calls does (`calls_lt_size_iff`).
`Checked.ofNat m` is the outcome of a computation of exactly `m`: a word if `m` fits, else an
overflow. Checked sums are of this form, and so is the recursion on words: `fibRecursive_eq`.
-/

namespace Unroll

/-! ## The sequence and its bounds -/

theorem fib_eq (n : Nat) : fib n = Nat.fib n := by
  induction n using fib.induct with
  | case1 => rfl
  | case2 => rfl
  | case3 n ih₁ ih₂ => rw [fib, ih₁, ih₂, Nat.fib_add_two, Nat.add_comm]

theorem fib_mono {m n : Nat} (h : m ≤ n) : fib m ≤ fib n := by
  rw [fib_eq, fib_eq]
  exact Nat.fib_mono h

theorem fib_of_le_one {n : Nat} (h : n ≤ 1) : fib n = n := by
  obtain rfl | rfl := Nat.le_one_iff_eq_zero_or_eq_one.1 h <;> rfl

theorem fib_of_two_le {n : Nat} (h : 2 ≤ n) : fib n = fib (n - 1) + fib (n - 2) := by
  obtain ⟨k, rfl⟩ : ∃ k, n = k + 2 := ⟨n - 2, by omega⟩
  rfl

/-- The recurrence at the distance from a fixed `k`. At `k` itself the two earlier distances are
zero, and the sequence is set off by one. -/
theorem fib_distance {n k : Nat} (hk : 1 ≤ k) (hn : 2 ≤ n) :
    fib (n + 1 - k) = fib (n - 1 + 1 - k) + fib (n - 2 + 1 - k) + if n = k then 1 else 0 := by
  rcases Nat.lt_trichotomy n k with hlt | rfl | hgt
  · rw [if_neg (by omega), show n + 1 - k = 0 by omega, show n - 1 + 1 - k = 0 by omega,
      show n - 2 + 1 - k = 0 by omega]
    rfl
  · rw [if_pos rfl, show n + 1 - n = 1 by omega, show n - 1 + 1 - n = 0 by omega,
      show n - 2 + 1 - n = 0 by omega]
    rfl
  · have hfib := fib_of_two_le (show 2 ≤ n + 1 - k by omega)
    rw [show n + 1 - k - 1 = n - 1 + 1 - k by omega,
      show n + 1 - k - 2 = n - 2 + 1 - k by omega] at hfib
    rw [if_neg (by omega)]
    exact hfib

/-- The number of calls in terms of the sequence itself. -/
theorem calls_add_one (n : Nat) : calls n + 1 = 2 * fib (n + 1) := by
  induction n using calls.induct with
  | case1 => rfl
  | case2 => rfl
  | case3 n ih₁ ih₂ =>
    rw [calls, fib]
    omega

theorem fib_lt_size_iff {n : Nat} : fib n < UInt64.size ↔ n ≤ 93 := by
  constructor
  · intro h
    by_contra hn
    have hle : fib 94 ≤ fib n := fib_mono (by omega)
    have h94 : UInt64.size ≤ fib 94 := by rw [fib_eq]; norm_num [UInt64.size]
    omega
  · intro h
    have hle : fib n ≤ fib 93 := fib_mono h
    have h93 : fib 93 < UInt64.size := by rw [fib_eq]; norm_num [UInt64.size]
    omega

theorem calls_lt_size_iff {n : Nat} : calls n < UInt64.size ↔ n ≤ 91 := by
  have hcalls := calls_add_one n
  constructor
  · intro h
    by_contra hn
    have hle : fib 93 ≤ fib (n + 1) := fib_mono (by omega)
    have h93 : UInt64.size < 2 * fib 93 := by rw [fib_eq]; norm_num [UInt64.size]
    omega
  · intro h
    have hle : fib (n + 1) ≤ fib 92 := fib_mono (by omega)
    have h92 : 2 * fib 92 ≤ UInt64.size := by rw [fib_eq]; norm_num [UInt64.size]
    omega

/-! ## The calls that a call makes -/

theorem le_one_iff {n : UInt64} : n ≤ 1 ↔ n.toNat ≤ 1 :=
  UInt64.le_iff_toNat_le

theorem toNat_sub_one {n : UInt64} (h : ¬ n ≤ 1) : (n - 1).toNat = n.toNat - 1 := by
  have hn : 1 < n.toNat := Nat.not_le.1 (mt le_one_iff.2 h)
  exact UInt64.toNat_sub_of_le n 1 (UInt64.le_iff_toNat_le.2 (Nat.le_of_lt hn))

theorem toNat_sub_two {n : UInt64} (h : ¬ n ≤ 1) : (n - 2).toNat = n.toNat - 2 := by
  have hn : 1 < n.toNat := Nat.not_le.1 (mt le_one_iff.2 h)
  exact UInt64.toNat_sub_of_le n 2 (UInt64.le_iff_toNat_le.2 hn)

/-- The value of a call that is no base case is the sum of the values of the calls it makes. -/
theorem fib_unroll {n : UInt64} (h : ¬ n ≤ 1) :
    fib n.toNat = fib (n - 1).toNat + fib (n - 2).toNat := by
  rw [toNat_sub_one h, toNat_sub_two h]
  rw [le_one_iff] at h
  exact fib_of_two_le (by omega)

/-- The number of calls below a call that is no base case. -/
theorem calls_unroll {n : UInt64} (h : ¬ n ≤ 1) :
    calls n.toNat = calls (n - 1).toNat + calls (n - 2).toNat + 1 := by
  rw [toNat_sub_one h, toNat_sub_two h]
  rw [le_one_iff] at h
  exact calls_of_two_le (by omega)

theorem fib_base {n : UInt64} (h : n ≤ 1) : fib n.toNat = n.toNat :=
  fib_of_le_one (le_one_iff.1 h)

theorem calls_base {n : UInt64} (h : n ≤ 1) : calls n.toNat = 1 := by
  obtain h0 | h1 := Nat.le_one_iff_eq_zero_or_eq_one.1 (le_one_iff.1 h)
  · rw [h0]; rfl
  · rw [h1]; rfl

theorem fib_fits {n : UInt64} (h : n ≤ 93) : fib n.toNat < UInt64.size :=
  fib_lt_size_iff.2 (UInt64.le_iff_toNat_le.1 h)

theorem fib_overflows {n : UInt64} (h : 94 ≤ n) : UInt64.size ≤ fib n.toNat := by
  have hn : 94 ≤ n.toNat := UInt64.le_iff_toNat_le.1 h
  exact Nat.not_lt.1 fun hfit => absurd (fib_lt_size_iff.1 hfit) (by omega)

theorem calls_fit {n : UInt64} (h : n ≤ 91) : calls n.toNat < UInt64.size :=
  calls_lt_size_iff.2 (UInt64.le_iff_toNat_le.1 h)

theorem calls_overflow {n : UInt64} (h : 92 ≤ n) : UInt64.size ≤ calls n.toNat := by
  have hn : 92 ≤ n.toNat := UInt64.le_iff_toNat_le.1 h
  exact Nat.not_lt.1 fun hfit => absurd (calls_lt_size_iff.1 hfit) (by omega)

/-! ## Outcomes -/

namespace Checked

/-- The outcome of computing exactly `m`. -/
def ofNat (m : Nat) : Checked UInt64 :=
  if m < UInt64.size then .ok (UInt64.ofNat m) else .error .overflow

theorem ofNat_of_size_le {m : Nat} (h : UInt64.size ≤ m) : ofNat m = .error .overflow :=
  if_neg (Nat.not_lt.2 h)

@[simp]
theorem ofNat_toNat (v : UInt64) : ofNat v.toNat = .ok v := by
  rw [ofNat, if_pos v.toNat_lt, UInt64.ofNat_toNat]

/-- The outcome of a number that fits is a word. -/
theorem ofNat_of_lt {m : Nat} (h : m < UInt64.size) : ∃ v, v.toNat = m ∧ ofNat m = .ok v :=
  ⟨UInt64.ofNat m, UInt64.toNat_ofNat_of_lt h, if_pos h⟩

theorem checkedAdd_eq (a b : UInt64) : checkedAdd a b = ofNat (a.toNat + b.toNat) := by
  by_cases h : a.toNat + b.toNat < UInt64.size
  · obtain ⟨v, hv, hok⟩ := ofNat_of_lt h
    rw [hok, checkedAdd_eq_ok_iff, hv]
  · rw [ofNat_of_size_le (Nat.not_lt.1 h), checkedAdd_eq_error_iff]
    exact Nat.not_lt.1 h

/-- A sum of two outcomes overflows if one of them does or the sum itself. -/
theorem ofNat_add (a b : Nat) :
    (do checkedAdd (← ofNat a) (← ofNat b)) = ofNat (a + b) := by
  by_cases ha : a < UInt64.size
  · obtain ⟨x, rfl, hx⟩ := ofNat_of_lt ha
    by_cases hb : b < UInt64.size
    · obtain ⟨y, rfl, hy⟩ := ofNat_of_lt hb
      rw [hx, hy]
      exact checkedAdd_eq x y
    · rw [hx, ofNat_of_size_le (Nat.not_lt.1 hb), ofNat_of_size_le (m := x.toNat + b) (by omega)]
      rfl
  · rw [ofNat_of_size_le (Nat.not_lt.1 ha), ofNat_of_size_le (m := a + b) (by omega)]
    rfl

end Checked

/-! ## The recursion on words -/

theorem fibRecursive_base {n : UInt64} (h : n ≤ 1) : fibRecursive n = .ok n := by
  rw [fibRecursive, if_pos h]

theorem fibRecursive_inner {n : UInt64} (h : ¬ n ≤ 1) :
    fibRecursive n = (do checkedAdd (← fibRecursive (n - 1)) (← fibRecursive (n - 2))) := by
  rw [fibRecursive, if_neg h]

/-- The recursion computes the Fibonacci number of its argument. -/
theorem fibRecursive_eq (n : UInt64) : fibRecursive n = Checked.ofNat (fib n.toNat) := by
  induction n using fibRecursive.induct with
  | case1 n h => rw [fibRecursive_base h, fib_base h, Checked.ofNat_toNat]
  | case2 n h ih₁ ih₂ => rw [fibRecursive_inner h, ih₁, ih₂, Checked.ofNat_add, ← fib_unroll h]

end Unroll
