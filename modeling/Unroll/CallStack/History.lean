import Unroll.CallStack

/-!
# Histories of a call stack

A history is a list of commands given to one stack. Besides pushing, popping and draining it can
save the stack as a checkpoint and go back to the latest one; a checkpoint keeps the stale slots of
the stack it was made from. `Checkpointed.run` carries out one command and says what it answered,
`Checkpointed.replay` lists what is seen after each command of a history.
-/

namespace Unroll

universe u

namespace CallStack

/-- A command to a stack with checkpoints. -/
inductive Command (α : Type u) where
  | push (value : α)
  | pop
  | drain
  | describe
  | save
  | restore

/-- What a command answers. -/
inductive Reply (α : Type u) where
  | done
  | popped (value : Option α)
  | drained (values : List α)
  | described (text : String)
  | restored (found : Bool)

/-- A stack together with its checkpoints, latest first. -/
structure Checkpointed (α : Type u) where
  current : CallStack α
  saved : List (CallStack α)

namespace Checkpointed

variable {α : Type u}

/-- A stack holding one value, with no checkpoint. -/
def ofRoot (root : α) : Checkpointed α :=
  ⟨CallStack.ofRoot root, []⟩

/-- Carries out one command. Popping an empty stack and restoring without a checkpoint change
nothing. -/
def run [ToString α] (c : Checkpointed α) : Command α → Reply α × Checkpointed α
  | .push value => (.done, { c with current := c.current.push value })
  | .pop =>
    match c.current.pop? with
    | none => (.popped none, c)
    | some (value, rest) => (.popped (some value), { c with current := rest })
  | .drain =>
    let (values, rest) := c.current.drain
    (.drained values, { c with current := rest })
  | .describe => (.described c.current.describe, c)
  | .save => (.done, { c with saved := c.current :: c.saved })
  | .restore =>
    match c.saved with
    | [] => (.restored false, c)
    | latest :: earlier => (.restored true, ⟨latest, earlier⟩)

/-- What each command of a history answers, with the stack it leaves. -/
def replay [ToString α] (c : Checkpointed α) : List (Command α) → List (Reply α × CallStack α)
  | [] => []
  | command :: rest =>
    let (reply, next) := c.run command
    (reply, next.current) :: next.replay rest

end Checkpointed

end CallStack

end Unroll
