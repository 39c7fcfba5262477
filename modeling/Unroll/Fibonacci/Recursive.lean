import Unroll.Checked

/-!
# Fibonacci numbers by recursion

The defining recursion on 64-bit words, every sum checked.
-/

namespace Unroll

/-- The `n`-th Fibonacci number by direct recursion. -/
def fibRecursive (n : UInt64) : Checked UInt64 :=
  if n ≤ 1 then
    .ok n
  else do
    let above ← fibRecursive (n - 1)
    let below ← fibRecursive (n - 2)
    checkedAdd above below
termination_by n.toNat
decreasing_by
  all_goals
    rename_i h
    simp only [UInt64.le_iff_toNat_le, UInt64.reduceToNat, Nat.not_le] at h
    rw [UInt64.toNat_sub_of_le _ _
      (by simp only [UInt64.le_iff_toNat_le, UInt64.reduceToNat]; omega)]
    simp only [UInt64.reduceToNat]
    omega

end Unroll
