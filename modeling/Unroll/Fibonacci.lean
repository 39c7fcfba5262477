/-!
# Fibonacci numbers and the size of their recursion

`fib` is the sequence itself, on natural numbers. `calls n` counts the calls that the defining
recursion makes on `n`, the first one included; it bounds every way of walking that recursion.
-/

namespace Unroll

/-- The Fibonacci numbers 0, 1, 1, 2, 3, 5, 8, … -/
def fib : Nat → Nat
  | 0 => 0
  | 1 => 1
  | n + 2 => fib (n + 1) + fib n

/-- The number of calls in the recursion tree of `fib n`. -/
def calls : Nat → Nat
  | 0 => 1
  | 1 => 1
  | n + 2 => calls (n + 1) + calls n + 1

theorem calls_pos : ∀ n, 0 < calls n
  | 0 => Nat.zero_lt_one
  | 1 => Nat.zero_lt_one
  | _ + 2 => Nat.succ_pos _

/-- A call that is no base case makes two further calls, for the two indices below it. -/
theorem calls_of_two_le {n : Nat} (h : 2 ≤ n) : calls n = calls (n - 1) + calls (n - 2) + 1 := by
  obtain ⟨k, rfl⟩ : ∃ k, n = k + 2 := ⟨n - 2, by omega⟩
  rfl

end Unroll
