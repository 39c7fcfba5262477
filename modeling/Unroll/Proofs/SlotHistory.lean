import Mathlib.Data.List.Forall2
import Mathlib.Order.Bounds.Defs
import Unroll.Proofs.CallStack

/-!
# What the slots of a call stack remember

The stale slots of a stack depend on everything that was ever pushed. `Past` lists the moves that
were made with one stack, latest first, and reads three things off them without looking at a stack:
the depth (`Past.depth`), the greatest depth on the way (`Past.peak`) and the value that was pushed
last at a depth (`Past.pushedAt`). These are the cursor, the number of slots and the content of the
slots (`Recorded`). Each operation keeps this, so it holds after every history of commands, of the
stack that is worked on and of all its saved copies. A copy has the past of the stack that it was
made from (`Lineage`).
-/

namespace Unroll

universe u

namespace CallStack

variable {α : Type u}

/-- What can be done to one stack. Draining it is popping until nothing comes. -/
inductive Move (α : Type u) where
  | push (value : α)
  | pop

/-- The moves of one stack from its root on, latest first. -/
abbrev Past (α : Type u) := List (Move α)

namespace Past

def depth : Past α → Nat
  | [] => 1
  | .push _ :: past => depth past + 1
  | .pop :: past => depth past - 1

/-- The greatest depth ever reached. -/
def peak : Past α → Nat
  | [] => 1
  | move :: past => max (peak past) (depth (move :: past))

/-- The value of the latest push at a depth. The root counts as pushed at depth zero. -/
def pushedAt (root : α) : Past α → Nat → Option α
  | [], i => if i = 0 then some root else none
  | .push v :: past, i => if i = depth past then some v else pushedAt root past i
  | .pop :: past, i => pushedAt root past i

/-- The written form of a stack with the given past. -/
def describe [ToString α] (root : α) (past : Past α) : String :=
  "CallStack \x7b slots: [" ++
    ", ".intercalate (((List.range past.peak).filterMap (pushedAt root past)).map toString) ++
    "], depth: " ++ toString past.depth ++ " \x7d"

theorem depth_le_peak (past : Past α) : past.depth ≤ past.peak := by
  cases past with
  | nil => exact Nat.le_refl 1
  | cons move past => exact Nat.le_max_right _ _

theorem peak_pop (past : Past α) : peak (.pop :: past) = past.peak := by
  have hdepth := past.depth_le_peak
  simp only [peak, depth]
  omega

theorem isGreatest_peak (past : Past α) :
    IsGreatest {d | ∃ earlier : Past α, earlier <:+ past ∧ earlier.depth = d} past.peak := by
  induction past with
  | nil =>
    refine ⟨⟨[], List.suffix_rfl, rfl⟩, ?_⟩
    rintro d ⟨earlier, hearlier, rfl⟩
    rw [List.suffix_nil.1 hearlier]
    exact Nat.le_refl 1
  | cons move past ih =>
    obtain ⟨⟨highest, hhighest, hpeak⟩, hbound⟩ := ih
    constructor
    · rcases Nat.le_total (peak past) (depth (move :: past)) with hle | hle
      · exact ⟨move :: past, List.suffix_rfl, by rw [peak, Nat.max_eq_right hle]⟩
      · refine ⟨highest, hhighest.trans (List.suffix_cons _ _), ?_⟩
        rw [peak, Nat.max_eq_left hle, hpeak]
    · rintro d ⟨earlier, hearlier, rfl⟩
      rcases List.suffix_cons_iff.1 hearlier with rfl | hearlier
      · exact Nat.le_max_right _ _
      · exact Nat.le_trans (hbound ⟨earlier, hearlier, rfl⟩) (Nat.le_max_left _ _)

end Past

/-! ## One stack -/

/-- The stack is what its past says. -/
structure Recorded (root : α) (past : Past α) (s : CallStack α) : Prop where
  depth_eq : s.depth = past.depth
  capacity_eq : s.capacity = past.peak
  slot_eq : ∀ i, s.slots[i]? = past.pushedAt root i

/-- The stack that moves lead to. -/
def Past.stack (root : α) : Past α → CallStack α
  | [] => ofRoot root
  | .push v :: past => (stack root past).push v
  | .pop :: past =>
    match (stack root past).pop? with
    | none => stack root past
    | some (_, rest) => rest

namespace Recorded

variable {root : α} {past : Past α} {s t : CallStack α}

theorem start (root : α) : Recorded root [] (ofRoot root) := by
  refine ⟨rfl, rfl, ?_⟩
  intro i
  cases i with
  | zero => rfl
  | succ i => simp [ofRoot, Past.pushedAt]

theorem push (h : Recorded root past s) (v : α) : Recorded root (.push v :: past) (s.push v) := by
  refine ⟨?_, ?_, ?_⟩
  · rw [depth_push, h.depth_eq, Past.depth]
  · rw [capacity_push, h.capacity_eq, h.depth_eq, Past.peak, Past.depth]
  · intro i
    rw [getElem?_slots_push, h.slot_eq, h.depth_eq, Past.pushedAt]

theorem pop {v : α} (h : Recorded root past s) (hpop : s.pop? = some (v, t)) :
    Recorded root (.pop :: past) t := by
  have hdepth := depth_of_pop? hpop
  refine ⟨?_, ?_, ?_⟩
  · rw [Past.depth, ← h.depth_eq]
    omega
  · rw [capacity_of_pop? hpop, h.capacity_eq, Past.peak_pop]
  · intro i
    rw [slots_of_pop? hpop, h.slot_eq, Past.pushedAt]

/-- A pop that finds nothing is a move too. -/
theorem pop_empty (h : Recorded root past s) (hpop : s.pop? = none) :
    Recorded root (.pop :: past) s := by
  have hdepth : s.depth = 0 := by
    rw [← length_toList, pop?_eq_none_iff.1 hpop, List.length_nil]
  refine ⟨?_, ?_, h.slot_eq⟩
  · rw [Past.depth, ← h.depth_eq, hdepth]
  · rw [h.capacity_eq, Past.peak_pop]

theorem stack (root : α) (past : Past α) : Recorded root past (past.stack root) := by
  induction past with
  | nil => exact .start root
  | cons move past ih =>
    cases move with
    | push v => exact ih.push v
    | pop =>
      rw [Past.stack]
      split
      · next hpop => exact ih.pop_empty hpop
      · next hpop => exact ih.pop hpop

theorem drain (h : Recorded root past s) :
    Recorded root (List.replicate (s.depth + 1) .pop ++ past) s.drain.2 := by
  induction s using CallStack.drain.induct generalizing past with
  | case1 s hpop =>
    have hdepth : s.depth = 0 := by
      rw [← length_toList, pop?_eq_none_iff.1 hpop, List.length_nil]
    rw [CallStack.drain, hpop, hdepth]
    exact h.pop_empty hpop
  | case2 s v t hpop _ _ _ ih =>
    rw [CallStack.drain, hpop, ← depth_of_pop? hpop, List.replicate_succ', List.append_assoc]
    exact ih (h.pop hpop)

/-- There is a slot for every depth up to the greatest one, so the past also gives the list of all
slots. -/
theorem toList_slots (h : Recorded root past s) :
    s.slots.toList = (List.range past.peak).filterMap (past.pushedAt root) := by
  have hsize : s.slots.size = past.peak := h.capacity_eq
  have hsome : s.slots.toList.map some = (List.range past.peak).map (past.pushedAt root) := by
    apply List.ext_getElem
    · simp [hsize]
    · intro i hi _
      rw [List.length_map, Array.length_toList] at hi
      simp [← h.slot_eq, hi]
  calc s.slots.toList = (s.slots.toList.map some).filterMap id := by simp
    _ = (List.range past.peak).filterMap (past.pushedAt root) := by
      rw [hsome, List.filterMap_map, Function.id_comp]

end Recorded

/-- What the past of a stack tells of it: its depth, and how many slots it has and why. -/
structure Remembers [ToString α] (root : α) (past : Past α) (s : CallStack α) : Prop where
  depth_eq : s.depth = past.depth
  /-- The stack has as many slots as it ever was deep. -/
  capacity_greatest :
    IsGreatest {d | ∃ earlier : Past α, earlier <:+ past ∧ earlier.depth = d} s.capacity
  /-- A push adds one slot if it takes the stack deeper than ever before, and otherwise none. -/
  capacity_push : ∀ v,
    ((∀ earlier : Past α, earlier <:+ past → earlier.depth < (s.push v).depth) ∧
        (s.push v).capacity = s.capacity + 1) ∨
      ((∃ earlier : Past α, earlier <:+ past ∧ (s.push v).depth ≤ earlier.depth) ∧
        (s.push v).capacity = s.capacity)
  capacity_pop : ∀ v t, s.pop? = some (v, t) → t.capacity = s.capacity
  /-- Every slot, live or stale, holds the value that was pushed last at its depth. -/
  slot_eq : ∀ i, i < s.capacity → ∃ v, past.pushedAt root i = some v ∧ s.slots[i]? = some v
  describe_eq : s.describe = past.describe root

theorem Recorded.remembers [ToString α] {root : α} {past : Past α} {s : CallStack α}
    (h : Recorded root past s) : Remembers root past s := by
  have hgreatest := past.isGreatest_peak
  rw [← h.capacity_eq] at hgreatest
  refine ⟨h.depth_eq, hgreatest, ?_, fun v t hpop => capacity_of_pop? hpop, ?_, ?_⟩
  · intro v
    obtain ⟨⟨highest, hhighest, hcapacity⟩, hbound⟩ := hgreatest
    have hroom : s.depth ≤ s.capacity := s.depth_le
    rw [CallStack.capacity_push, depth_push]
    by_cases hnew : s.depth = s.capacity
    · refine .inl ⟨?_, by omega⟩
      intro earlier hearlier
      have hle : earlier.depth ≤ s.capacity := hbound ⟨earlier, hearlier, rfl⟩
      omega
    · exact .inr ⟨⟨highest, hhighest, by omega⟩, by omega⟩
  · intro i hi
    have hslot : s.slots[i]? = some s.slots[i] := Array.getElem?_eq_getElem hi
    exact ⟨s.slots[i], by rw [← h.slot_eq, hslot], hslot⟩
  · unfold CallStack.describe Past.describe
    rw [h.toList_slots, h.depth_eq]

/-! ## Stacks and their copies -/

/-- The past of the stack that is worked on, and those of its saved copies, latest first. -/
structure Lineage (α : Type u) where
  current : Past α
  saved : List (Past α)

namespace Lineage

def ofRoot : Lineage α :=
  ⟨[], []⟩

/-- What a command adds to the past. A copy starts out with the past of its original. -/
def note (l : Lineage α) : Command α → Lineage α
  | .push value => { l with current := .push value :: l.current }
  | .pop => { l with current := .pop :: l.current }
  | .drain => { l with current := List.replicate (l.current.depth + 1) .pop ++ l.current }
  | .describe => l
  | .save => { l with saved := l.current :: l.saved }
  | .restore =>
    match l.saved with
    | [] => l
    | latest :: earlier => ⟨latest, earlier⟩

/-- The stack and all its copies are what their pasts say. -/
def Tells (root : α) (l : Lineage α) (c : Checkpointed α) : Prop :=
  List.Forall₂ (Recorded root) (l.current :: l.saved) (c.current :: c.saved)

theorem Tells.run [ToString α] {root : α} {l : Lineage α} {c : Checkpointed α}
    (h : l.Tells root c) (command : Command α) :
    (l.note command).Tells root (c.run command).2 := by
  obtain ⟨current, saved⟩ := c
  obtain ⟨hcurrent, hsaved⟩ := List.forall₂_cons.1 h
  cases command with
  | push value => exact .cons (hcurrent.push value) hsaved
  | pop =>
    cases hpop : current.pop? with
    | none =>
      simp only [Checkpointed.run, hpop]
      exact .cons (hcurrent.pop_empty hpop) hsaved
    | some popped =>
      simp only [Checkpointed.run, hpop]
      exact .cons (hcurrent.pop hpop) hsaved
  | drain =>
    have hdrained := hcurrent.drain
    rw [hcurrent.depth_eq] at hdrained
    exact .cons hdrained hsaved
  | describe => exact h
  | save => exact .cons hcurrent (.cons hcurrent hsaved)
  | restore =>
    obtain ⟨past, pasts⟩ := l
    cases hsaved with
    | nil => exact .cons hcurrent .nil
    | cons hlatest hearlier => exact .cons hlatest hearlier

end Lineage

/-- The stack and its copies after a history. -/
def Checkpointed.after [ToString α] (c : Checkpointed α) (commands : List (Command α)) :
    Checkpointed α :=
  commands.foldl (fun c command => (c.run command).2) c

/-- The pasts after a history. -/
def Lineage.after (l : Lineage α) (commands : List (Command α)) : Lineage α :=
  commands.foldl note l

theorem Lineage.Tells.after [ToString α] {root : α} {l : Lineage α} {c : Checkpointed α}
    (h : l.Tells root c) (commands : List (Command α)) :
    (l.after commands).Tells root (c.after commands) := by
  induction commands generalizing l c with
  | nil => exact h
  | cons command rest ih => exact ih (h.run command)

/-- **The slots remember the latest pushes.** Whatever was pushed and popped from a root on, a stack
has as many slots as it ever was deep, and each slot, live or stale, holds the value that was pushed
last at its depth, or the root. So the past alone gives the written form, stale slots included. This
stays so under all commands: the stack that is worked on and each of its saved copies is told by its
own past, which for a copy begins with the past of its original. -/
theorem slots_keep_latest_pushes [ToString α] (root : α) :
    (∀ past : Past α, Remembers root past (past.stack root)) ∧
    ∀ commands : List (Command α),
      let pasts := Lineage.ofRoot.after commands
      let state := (Checkpointed.ofRoot root).after commands
      List.Forall₂ (Remembers root) (pasts.current :: pasts.saved)
        (state.current :: state.saved) := by
  refine ⟨fun past => (Recorded.stack root past).remembers, ?_⟩
  intro commands
  have hstart : Lineage.ofRoot.Tells root (Checkpointed.ofRoot root) :=
    .cons (.start root) .nil
  exact (hstart.after commands).imp fun _ _ h => h.remembers

end CallStack

end Unroll
