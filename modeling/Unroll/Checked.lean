/-!
# Checked arithmetic on 64-bit words

Sums that leave the 64-bit range are an outcome of their own, never a wrapped word.
-/

namespace Unroll

/-- A sum left the 64-bit range. -/
inductive Overflow where
  | overflow
  deriving DecidableEq, Repr

/-- The outcome of a computation on 64-bit words. -/
abbrev Checked := Except Overflow

@[simp]
theorem ok_bind {ε α β : Type} (a : α) (f : α → Except ε β) : (Except.ok a >>= f) = f a :=
  rfl

@[simp]
theorem error_bind {ε α β : Type} (e : ε) (f : α → Except ε β) :
    (Except.error e >>= f) = .error e :=
  rfl

theorem mapM_eq_ok {ε α β γ : Type} {f : α → Except ε β} {g : γ → α} {k : γ → β} {xs : List γ}
    (h : ∀ x ∈ xs, f (g x) = .ok (k x)) : (xs.map g).mapM f = .ok (xs.map k) := by
  induction xs with
  | nil => rfl
  | cons x xs ih =>
    rw [List.forall_mem_cons] at h
    rw [List.map_cons, List.mapM_cons, h.1, ok_bind, ih h.2]
    rfl

/-- The sum of two words, if it fits. -/
def checkedAdd (a b : UInt64) : Checked UInt64 :=
  let sum := a + b
  if sum < a then .error .overflow else .ok sum

theorem checkedAdd_eq_ok_iff {a b c : UInt64} :
    checkedAdd a b = .ok c ↔ a.toNat + b.toNat = c.toNat := by
  have ha := a.toNat_lt
  have hb := b.toNat_lt
  have hc := c.toNat_lt
  simp only [checkedAdd, UInt64.lt_iff_toNat_lt, UInt64.toNat_add]
  split
  · simp only [reduceCtorEq, false_iff]
    omega
  · simp only [Except.ok.injEq, ← UInt64.toNat_inj, UInt64.toNat_add]
    omega

theorem checkedAdd_eq_error_iff {a b : UInt64} :
    checkedAdd a b = .error .overflow ↔ UInt64.size ≤ a.toNat + b.toNat := by
  have ha := a.toNat_lt
  have hb := b.toNat_lt
  simp only [checkedAdd, UInt64.lt_iff_toNat_lt, UInt64.toNat_add, UInt64.size]
  split
  · simp only [true_iff]
    omega
  · simp only [reduceCtorEq, false_iff]
    omega

end Unroll
