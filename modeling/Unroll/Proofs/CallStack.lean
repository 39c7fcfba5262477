import Unroll.CallStack.History

/-!
# A call stack is a list

`Plain` is a stack kept as a list, with its saved copies, and `Checkpointed.view` forgets the stale
slots of a call stack and of its checkpoints. Every command commutes with the view
(`Checkpointed.run_view`), so a history shows of a call stack what it shows of a list
(`Checkpointed.replay_view`), except in the written form of the stack. What the stale slots hold
does not matter, and no operation reads or writes a slot that is not there (`CallStack.inBounds`).
-/

namespace Unroll

universe u

namespace CallStack

variable {α : Type u}

/-! ## The slots that an operation touches -/

theorem pop?_of_toList {s : CallStack α} {v : α} {rest : List α} (h : s.toList = v :: rest) :
    ∃ t, s.pop? = some (v, t) ∧ t.toList = rest := by
  cases hpop : s.pop? with
  | none =>
    rw [pop?_eq_none_iff.1 hpop] at h
    cases h
  | some popped =>
    obtain ⟨v', t⟩ := popped
    rw [toList_of_pop? hpop, List.cons.injEq] at h
    obtain ⟨rfl, ht⟩ := h
    exact ⟨t, rfl, ht⟩

@[simp]
theorem depth_push (s : CallStack α) (v : α) : (s.push v).depth = s.depth + 1 := by
  rw [← length_toList, toList_push, List.length_cons, length_toList]

/-- Pushing writes the slot at the cursor and no other one. -/
theorem getElem?_slots_push (s : CallStack α) (v : α) (i : Nat) :
    (s.push v).slots[i]? = if i = s.depth then some v else s.slots[i]? := by
  obtain ⟨slots, depth, h⟩ := s
  simp only [push]
  split
  · next full =>
    subst full
    rw [Array.getElem?_push]
  · next hfull =>
    rw [Array.getElem?_set]
    by_cases hi : i = depth
    · subst hi
      simp
    · rw [if_neg (Ne.symm hi), if_neg hi]

/-- Pushing adds a slot only if the cursor gets higher than ever before. -/
@[simp]
theorem capacity_push (s : CallStack α) (v : α) :
    (s.push v).capacity = max s.capacity (s.depth + 1) := by
  obtain ⟨slots, depth, h⟩ := s
  simp only [push, capacity]
  split
  · next full =>
    rw [Array.size_push, full]
    omega
  · next notFull =>
    rw [Array.size_set]
    omega

/-- Popping leaves all slots as they are. -/
theorem slots_of_pop? {s t : CallStack α} {v : α} (h : s.pop? = some (v, t)) :
    t.slots = s.slots := by
  obtain ⟨slots, depth, hd⟩ := s
  simp only [pop?] at h
  split at h
  · cases h
  · cases h
    rfl

theorem capacity_of_pop? {s t : CallStack α} {v : α} (h : s.pop? = some (v, t)) :
    t.capacity = s.capacity :=
  congrArg Array.size (slots_of_pop? h)

/-- The slots that popping reads and pushing writes are there. -/
structure InBounds (s : CallStack α) : Prop where
  /-- Popping reads the slot at the top. -/
  read : ∀ {i}, s.top? = some i → i < s.capacity ∧ s.pop?.map Prod.fst = s.slots[i]?
  /-- Pushing writes the slot at the cursor, which is there or is the one that is added. -/
  written : ∀ v, s.depth < (s.push v).capacity ∧
    ∀ i, (s.push v).slots[i]? = if i = s.depth then some v else s.slots[i]?

theorem inBounds (s : CallStack α) : s.InBounds := by
  refine ⟨?_, fun v => ⟨?_, getElem?_slots_push s v⟩⟩
  · intro i hi
    obtain ⟨slots, depth, h⟩ := s
    simp only [top?] at hi
    split at hi
    · cases hi
    · next hdepth =>
      cases hi
      have hlt : depth - 1 < slots.size := by omega
      refine ⟨hlt, ?_⟩
      rw [pop?, dif_neg hdepth, Array.getElem?_eq_getElem hlt]
      rfl
  · have hdepth : (s.push v).depth ≤ (s.push v).capacity := (s.push v).depth_le
    rwa [depth_push] at hdepth

/-- Draining gives all live entries, top first, and leaves none. -/
theorem drain_eq (s : CallStack α) : s.drain.1 = s.toList ∧ s.drain.2.toList = [] := by
  induction s using drain.induct with
  | case1 s h =>
    have hnil : s.toList = [] := pop?_eq_none_iff.1 h
    rw [drain, h]
    exact ⟨hnil.symm, hnil⟩
  | case2 s v t h _ _ _ ih =>
    rw [drain, h, toList_of_pop? h]
    exact ⟨congrArg (v :: ·) ih.1, ih.2⟩

/-! ## What is seen of a stack -/

/-- The answer to a command without the written form of the stack, which shows stale slots. -/
def Reply.masked : Reply α → Reply α
  | .described _ => .done
  | reply => reply

/-- What can be seen after a command. -/
structure Sight (α : Type u) where
  reply : Reply α
  depth : Nat
  top? : Option Nat
  isEmpty : Bool

namespace Sight

def ofStack : Reply α × CallStack α → Sight α
  | (reply, s) => ⟨reply.masked, s.depth, s.top?, s.isEmpty⟩

/-- What is seen of a list, its head being the top. -/
def ofList : Reply α × List α → Sight α
  | (reply, []) => ⟨reply, 0, none, true⟩
  | (reply, _ :: rest) => ⟨reply, rest.length + 1, some rest.length, false⟩

/-- Of a stack only the live entries are seen. -/
theorem ofStack_eq (reply : Reply α) (s : CallStack α) :
    ofStack (reply, s) = ofList (reply.masked, s.toList) := by
  have hlength : s.toList.length = s.depth := length_toList s
  rw [ofStack, CallStack.top?, CallStack.isEmpty]
  cases hlist : s.toList with
  | nil =>
    rw [hlist, List.length_nil] at hlength
    rw [← hlength]
    rfl
  | cons v rest =>
    rw [hlist, List.length_cons] at hlength
    rw [← hlength]
    rfl

end Sight

/-! ## Stacks kept as lists -/

/-- A list of pending values, top first, together with its saved copies, latest first. -/
structure Plain (α : Type u) where
  current : List α
  saved : List (List α)

namespace Plain

def ofRoot (root : α) : Plain α :=
  ⟨[root], []⟩

def run : Plain α → Command α → Reply α × Plain α
  | ⟨values, saved⟩, .push value => (.done, ⟨value :: values, saved⟩)
  | ⟨[], saved⟩, .pop => (.popped none, ⟨[], saved⟩)
  | ⟨value :: rest, saved⟩, .pop => (.popped (some value), ⟨rest, saved⟩)
  | ⟨values, saved⟩, .drain => (.drained values, ⟨[], saved⟩)
  | p, .describe => (.done, p)
  | ⟨values, saved⟩, .save => (.done, ⟨values, values :: saved⟩)
  | ⟨values, []⟩, .restore => (.restored false, ⟨values, []⟩)
  | ⟨_, latest :: earlier⟩, .restore => (.restored true, ⟨latest, earlier⟩)

/-- What each command of a history answers, with the list it leaves. -/
def replay (p : Plain α) : List (Command α) → List (Reply α × List α)
  | [] => []
  | command :: rest =>
    let (reply, next) := p.run command
    (reply, next.current) :: next.replay rest

end Plain

namespace Checkpointed

/-- The live entries of a stack and of its checkpoints. -/
def view (c : Checkpointed α) : Plain α :=
  ⟨c.current.toList, c.saved.map toList⟩

/-- A command does to the live entries, and answers, what it does to lists. -/
theorem run_view [ToString α] (c : Checkpointed α) (command : Command α) :
    (c.run command).1.masked = (c.view.run command).1 ∧
      (c.run command).2.view = (c.view.run command).2 := by
  obtain ⟨current, saved⟩ := c
  cases command with
  | push value => simp [run, view, Plain.run, Reply.masked]
  | pop =>
    cases hpop : current.pop? with
    | none =>
      have hlive := pop?_eq_none_iff.1 hpop
      simp [run, view, Plain.run, Reply.masked, hpop, hlive]
    | some popped =>
      have hlive := toList_of_pop? hpop
      simp [run, view, Plain.run, Reply.masked, hpop, hlive]
  | drain =>
    obtain ⟨hvalues, hrest⟩ := drain_eq current
    simp only [run, view, Plain.run, Reply.masked, hvalues, hrest, and_self]
  | describe => exact ⟨rfl, rfl⟩
  | save => exact ⟨rfl, rfl⟩
  | restore =>
    cases saved with
    | nil => exact ⟨rfl, rfl⟩
    | cons latest earlier => exact ⟨rfl, rfl⟩

/-- A whole history shows of a stack what it shows of its live entries. -/
theorem replay_view [ToString α] (c : Checkpointed α) (commands : List (Command α)) :
    (c.replay commands).map Sight.ofStack = (c.view.replay commands).map Sight.ofList := by
  induction commands generalizing c with
  | nil => rfl
  | cons command rest ih =>
    obtain ⟨hreply, hnext⟩ := run_view c command
    simp only [replay, Plain.replay, List.map_cons]
    rw [Sight.ofStack_eq, hreply, ih, ← hnext]
    rfl

end Checkpointed

/-- **A call stack is a list.** From a root on, every history shows of a call stack exactly what it
shows of a list that starts with the root alone, and leaves the cursor within the slots. No
operation goes beyond the slots, in the middle of draining neither. The stale slots are not seen:
histories of stacks with the same live entries look alike, whatever the other slots hold. Popping an
empty stack changes nothing. -/
theorem replay_shows_list [ToString α] (root : α) (commands : List (Command α)) :
    let seen := (Reply.done, ofRoot root) :: (Checkpointed.ofRoot root).replay commands
    let plain := (Reply.done, [root]) :: (Plain.ofRoot root).replay commands
    seen.map Sight.ofStack = plain.map Sight.ofList ∧
      (∀ p ∈ seen, p.2.depth ≤ p.2.capacity) ∧
      (∀ s : CallStack α, s.InBounds) ∧
      (∀ c d : Checkpointed α, c.view = d.view →
        (c.replay commands).map Sight.ofStack = (d.replay commands).map Sight.ofStack) ∧
      (∀ c : Checkpointed α, c.current.isEmpty = true → c.run .pop = (.popped none, c)) := by
  refine ⟨?_, fun p _ => p.2.depth_le, inBounds, fun c d h => ?_, fun c h => ?_⟩
  · rw [List.map_cons, List.map_cons, Checkpointed.replay_view]
    rfl
  · rw [Checkpointed.replay_view, Checkpointed.replay_view, h]
  · have hdepth : c.current.depth = 0 := beq_iff_eq.1 h
    have hpop : c.current.pop? = none := by
      rw [pop?_eq_none_iff, ← List.length_eq_zero_iff, length_toList, hdepth]
    simp only [Checkpointed.run, hpop]

end CallStack

end Unroll
