/-!
# Call stacks with reused slots

The arguments of pending calls are kept in an array of slots below a cursor. Popping only moves the
cursor down, so the slots above it hold whatever earlier pushes left there; pushing overwrites such
a slot and grows the array only when the cursor stands at its end.

What a stack *is* is the list of its live entries, top first (`toList`); the stale slots show
only in `capacity` and in the written form `describe`. Each operation has one equation through
`toList`.
-/

namespace Unroll

universe u

/-- A stack of pending values. The live entries are the first `depth` slots. -/
structure CallStack (α : Type u) where
  slots : Array α
  depth : Nat
  depth_le : depth ≤ slots.size

namespace CallStack

variable {α : Type u}

/-- The stack that holds exactly one pending value. -/
def ofRoot (root : α) : CallStack α :=
  ⟨#[root], 1, Nat.le_refl 1⟩

/-- The number of slots, live or stale. -/
def capacity (s : CallStack α) : Nat :=
  s.slots.size

def isEmpty (s : CallStack α) : Bool :=
  s.depth == 0

/-- The index of the slot at the top, if there is a live entry. -/
def top? (s : CallStack α) : Option Nat :=
  if s.depth = 0 then none else some (s.depth - 1)

/-- Puts `value` into the slot at the cursor, a fresh one if there is none, and moves the cursor
up. -/
def push : CallStack α → α → CallStack α
  | ⟨slots, depth, h⟩, value =>
    if full : depth = slots.size then
      ⟨slots.push value, depth + 1, by simp [full]⟩
    else
      ⟨slots.set depth value (by omega), depth + 1, by simp; omega⟩

/-- The top entry and the stack with the cursor below it. The slot keeps its value. -/
def pop? : CallStack α → Option (α × CallStack α)
  | ⟨slots, depth, _⟩ =>
    if empty : depth = 0 then
      none
    else
      some (slots[depth - 1], ⟨slots, depth - 1, by omega⟩)

/-- The live entries, top first. -/
def toList (s : CallStack α) : List α :=
  (s.slots.toList.take s.depth).reverse

theorem depth_of_pop? {s t : CallStack α} {v : α} (h : s.pop? = some (v, t)) :
    t.depth + 1 = s.depth := by
  obtain ⟨slots, depth, hd⟩ := s
  simp only [pop?] at h
  split at h
  · simp at h
  · simp only [Option.some.injEq, Prod.mk.injEq] at h
    obtain ⟨_, rfl⟩ := h
    simp only
    omega

/-- Pops until the stack is empty. Gives the popped values in order and the emptied stack, which
keeps its slots. -/
def drain (s : CallStack α) : List α × CallStack α :=
  match _ : s.pop? with
  | none => ([], s)
  | some (v, t) =>
    let (vs, rest) := t.drain
    (v :: vs, rest)
termination_by s.depth
decreasing_by
  have := depth_of_pop? ‹_›
  omega

/-- The written form of a stack: every slot, stale ones too, and the cursor. -/
def describe [ToString α] (s : CallStack α) : String :=
  "CallStack \x7b slots: [" ++ ", ".intercalate (s.slots.toList.map toString) ++ "], depth: " ++
    toString s.depth ++ " \x7d"

/-! ## The operations through the live entries -/

@[simp]
theorem toList_ofRoot (root : α) : (ofRoot root).toList = [root] := rfl

@[simp]
theorem length_toList (s : CallStack α) : s.toList.length = s.depth := by
  have := s.depth_le
  simp [toList]
  omega

@[simp]
theorem toList_push (s : CallStack α) (v : α) : (s.push v).toList = v :: s.toList := by
  obtain ⟨slots, depth, h⟩ := s
  simp only [push]
  split
  · next full =>
    subst full
    simp only [toList, Array.toList_push]
    rw [show slots.size = slots.toList.length by simp, List.take_length]
    rw [List.take_of_length_le (by simp)]
    simp
  · next notFull =>
    have hlt : depth < slots.toList.length := by simp; omega
    simp only [toList, Array.toList_set]
    rw [List.take_succ_eq_append_getElem (by simpa using hlt)]
    simp [List.take_set_of_le (Nat.le_refl depth)]

theorem pop?_eq_none_iff {s : CallStack α} : s.pop? = none ↔ s.toList = [] := by
  rw [← List.length_eq_zero_iff, length_toList]
  obtain ⟨slots, depth, h⟩ := s
  simp only [pop?]
  split <;> simp_all

theorem toList_of_pop? {s t : CallStack α} {v : α} (h : s.pop? = some (v, t)) :
    s.toList = v :: t.toList := by
  obtain ⟨slots, depth, hd⟩ := s
  simp only [pop?] at h
  split at h
  · simp at h
  · next notEmpty =>
    simp only [Option.some.injEq, Prod.mk.injEq] at h
    obtain ⟨rfl, rfl⟩ := h
    obtain ⟨d, rfl⟩ : ∃ d, depth = d + 1 := ⟨depth - 1, by omega⟩
    simp only [toList, Nat.add_sub_cancel]
    rw [List.take_succ_eq_append_getElem (by simp; omega)]
    simp

end CallStack

end Unroll
