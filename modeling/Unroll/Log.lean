/-!
# Log lines

What a program says while it runs. `Logged` is a computation with its log: a failure keeps what was
said before it. The outcome of a computation does not depend on its log, and `outcome_bind` says so.
-/

namespace Unroll

/-- How important an event is, the most important first. -/
inductive Level where
  | error
  | warn
  | info
  | debug
  | trace
  deriving DecidableEq, Repr

/-- The part of a program that says something. -/
inductive Target where
  | program
  | timing
  | unrolling
  deriving DecidableEq, Repr

/-- A line of the log. -/
structure Event where
  level : Level
  target : Target
  message : String
  deriving DecidableEq, Repr

namespace Level

/-- The place of a level, from one. -/
def rank : Level → Nat
  | error => 1
  | warn => 2
  | info => 3
  | debug => 4
  | trace => 5

def name : Level → String
  | error => "ERROR"
  | warn => "WARN"
  | info => "INFO"
  | debug => "DEBUG"
  | trace => "TRACE"

end Level

/-- The path by which a filter selects a part. -/
def Target.path : Target → String
  | program => "fibstack_cli"
  | timing => "fibstack_cli::bench"
  | unrolling => "fibonacci_rs::fibonacci"

def Event.line (e : Event) : String :=
  e.level.name ++ " " ++ e.message

/-- A computation that may fail, with the events on its way. -/
structure Logged (ε α : Type) where
  events : List Event
  outcome : Except ε α

namespace Logged

variable {ε φ α β : Type}

def ofExcept (outcome : Except ε α) : Logged ε α :=
  ⟨[], outcome⟩

def fail (e : ε) : Logged ε α :=
  ⟨[], .error e⟩

/-- Says something. -/
def say (level : Level) (target : Target) (message : String) : Logged ε Unit :=
  ⟨[{ level, target, message }], .ok ()⟩

def mapError (f : ε → φ) (x : Logged ε α) : Logged φ α :=
  ⟨x.events, x.outcome.mapError f⟩

protected def bind (x : Logged ε α) (f : α → Logged ε β) : Logged ε β :=
  match x.outcome with
  | .ok a => ⟨x.events ++ (f a).events, (f a).outcome⟩
  | .error e => ⟨x.events, .error e⟩

instance : Monad (Logged ε) where
  pure a := ⟨[], .ok a⟩
  bind := Logged.bind

@[simp]
theorem outcome_pure (a : α) : (pure a : Logged ε α).outcome = .ok a :=
  rfl

@[simp]
theorem outcome_ofExcept (x : Except ε α) : (ofExcept x).outcome = x :=
  rfl

@[simp]
theorem outcome_fail (e : ε) : (fail e : Logged ε α).outcome = .error e :=
  rfl

@[simp]
theorem outcome_say (level : Level) (target : Target) (message : String) :
    (say level target message : Logged ε Unit).outcome = .ok () :=
  rfl

@[simp]
theorem outcome_mapError (f : ε → φ) (x : Logged ε α) :
    (x.mapError f).outcome = x.outcome.mapError f :=
  rfl

/-- The outcome of two computations in turn is that of their outcomes in turn. -/
@[simp]
theorem outcome_bind (x : Logged ε α) (f : α → Logged ε β) :
    (x >>= f).outcome = x.outcome >>= fun a => (f a).outcome := by
  change (Logged.bind x f).outcome = _
  unfold Logged.bind
  cases x.outcome <;> rfl

@[simp]
theorem outcome_map (f : α → β) (x : Logged ε α) : (f <$> x).outcome = f <$> x.outcome := by
  change (x >>= fun a => pure (f a)).outcome = _
  rw [outcome_bind]
  cases x.outcome <;> rfl

/-- The outcome of a loop is that of the outcomes of its rounds. -/
theorem outcome_foldlM (f : β → α → Logged ε β) (b : β) (xs : List α) :
    (xs.foldlM f b).outcome = xs.foldlM (fun b a => (f b a).outcome) b := by
  induction xs generalizing b with
  | nil => rfl
  | cons x xs ih =>
    simp only [List.foldlM_cons, outcome_bind, ih]

end Logged

end Unroll
