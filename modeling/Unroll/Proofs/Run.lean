import Mathlib.Data.List.Forall2
import Unroll.Checked

/-!
# Runs of a machine that may overflow

A machine is what one turn does to a state: `step s` is nothing when the machine has stopped at `s`,
and otherwise the next state or an overflow. `Run step s turns t` lists the states at which turns
were taken on the way from `s` to `t`. Nothing here depends on what the states are: what one turn
keeps, a run keeps (`Run.invariant`, `Run.constant`), at all of its states (`Run.forall_mem`), and
what follows one turn follows a run (`Run.simulate`). What one turn uses up bounds the length of a
run (`Run.length_add_measure`), so there is one that cannot go on (`Run.exists_stuck`), and it
contains every other one from the same state (`Run.initial_of_stuck`), which goes on to the same end
(`Run.rest_of_stuck`).
-/

namespace Unroll

variable {σ β : Type} {step : σ → Option (Checked σ)}

/-- From `s` the machine takes a turn at each state of `turns`, in this order, and then stands at
`t`. -/
inductive Run (step : σ → Option (Checked σ)) : σ → List σ → σ → Prop
  | refl (s : σ) : Run step s [] s
  | turn {s next t : σ} {turns : List σ} (hstep : step s = some (.ok next))
      (h : Run step next turns t) : Run step s (s :: turns) t

namespace Run

theorem trans {s t u : σ} {first second : List σ} (h₁ : Run step s first t)
    (h₂ : Run step t second u) : Run step s (first ++ second) u := by
  induction h₁ with
  | refl => exact h₂
  | turn hstep _ ih => exact .turn hstep (ih h₂)

/-- What every turn keeps, a run keeps. -/
theorem invariant {I : σ → Prop} (hI : ∀ {s s'}, I s → step s = some (.ok s') → I s')
    {s t : σ} {turns : List σ} (h : Run step s turns t) (hs : I s) : I t := by
  induction h with
  | refl => exact hs
  | turn hstep _ ih => exact ih (hI hs hstep)

/-- What every turn keeps holds at every state of a run. -/
theorem forall_mem {I : σ → Prop} (hI : ∀ {s s'}, I s → step s = some (.ok s') → I s')
    {s t : σ} {turns : List σ} (h : Run step s turns t) (hs : I s) : ∀ u ∈ turns ++ [t], I u := by
  induction h with
  | refl s => exact List.forall_mem_singleton.2 hs
  | turn hstep _ ih => exact List.forall_mem_cons.2 ⟨hs, ih (hI hs hstep)⟩

theorem exists_step_of_mem {s t u : σ} {turns : List σ} (h : Run step s turns t)
    (hu : u ∈ turns) : ∃ next, step u = some (.ok next) := by
  induction h with
  | refl => cases hu
  | turn hstep _ ih =>
    rcases List.mem_cons.1 hu with rfl | hu
    · exact ⟨_, hstep⟩
    · exact ih hu

theorem constant {f : σ → β} (hf : ∀ {s s'}, step s = some (.ok s') → f s' = f s)
    {s t : σ} {turns : List σ} (h : Run step s turns t) : f t = f s :=
  h.invariant (I := fun u => f u = f s) (fun hu hstep => (hf hstep).trans hu) rfl

/-- A run of a machine shows as a run of a simpler one if its turns do. -/
theorem map {τ : Type} {step' : τ → Option (Checked τ)} {f : σ → τ}
    (hf : ∀ {s s'}, step s = some (.ok s') → step' (f s) = some (.ok (f s')))
    {s t : σ} {turns : List σ} (h : Run step s turns t) :
    Run step' (f s) (turns.map f) (f t) := by
  induction h with
  | refl s => exact .refl (f s)
  | turn hstep _ ih => exact .turn (hf hstep) ih

/-- A run of a machine is followed by another one, state by state, if its turns are. -/
theorem simulate {τ : Type} {step' : τ → Option (Checked τ)} {R : σ → τ → Prop}
    (hR : ∀ {s s' w}, R s w → step s = some (.ok s') → ∃ w', step' w = some (.ok w') ∧ R s' w')
    {s t : σ} {turns : List σ} (h : Run step s turns t) {w : τ} (hw : R s w) :
    ∃ turns' w', Run step' w turns' w' ∧ List.Forall₂ R turns turns' ∧ R t w' := by
  induction h generalizing w with
  | refl s => exact ⟨[], w, .refl w, .nil, hw⟩
  | turn hstep _ ih =>
    obtain ⟨next, hnext, hrel⟩ := hR hw hstep
    obtain ⟨turns', w', hrun, hall, hlast⟩ := ih hrel
    exact ⟨w :: turns', w', .turn hnext hrun, .cons hw hall, hlast⟩

/-- If every turn uses up one unit of `m`, a run is as long as the units it used up. -/
theorem length_add_measure {m : σ → Nat} (hm : ∀ {s s'}, step s = some (.ok s') → m s' + 1 = m s)
    {s t : σ} {turns : List σ} (h : Run step s turns t) : turns.length + m t = m s := by
  induction h with
  | refl => simp
  | turn hstep _ ih =>
    have := hm hstep
    rw [List.length_cons]
    omega

/-- If every turn uses something up, the machine stops or overflows. -/
theorem exists_stuck {m : σ → Nat} (hm : ∀ {s s'}, step s = some (.ok s') → m s' < m s) (s : σ) :
    ∃ turns last, Run step s turns last ∧
      (step last = none ∨ step last = some (.error .overflow)) := by
  induction hs : m s using Nat.strongRecOn generalizing s with
  | _ k ih =>
    cases hstep : step s with
    | none => exact ⟨[], s, .refl s, .inl hstep⟩
    | some outcome =>
      cases outcome with
      | error e => exact ⟨[], s, .refl s, .inr hstep⟩
      | ok next =>
        obtain ⟨turns, last, hrun, hlast⟩ := ih (m next) (hs ▸ hm hstep) next rfl
        exact ⟨s :: turns, last, .turn hstep hrun, hlast⟩

/-- A run that ends where no turn succeeds goes on from where any other run from its first state
stands. -/
theorem rest_of_stuck {s t u : σ} {turns all : List σ} (h : Run step s turns t)
    (hall : Run step s all u) (hu : ∀ next, step u ≠ some (.ok next)) :
    ∃ rest, all = turns ++ rest ∧ Run step t rest u := by
  induction h generalizing all with
  | refl => exact ⟨all, rfl, hall⟩
  | @turn s next t turns hstep _ ih =>
    cases hall with
    | refl => exact absurd hstep (hu _)
    | turn hstep' hrest =>
      rw [hstep, Option.some.injEq, Except.ok.injEq] at hstep'
      subst hstep'
      obtain ⟨rest, rfl, hgoes⟩ := ih hrest
      exact ⟨rest, rfl, hgoes⟩

/-- A run that ends where no turn succeeds starts like every other run from its first state. -/
theorem initial_of_stuck {s t u : σ} {turns all : List σ} (h : Run step s turns t)
    (hall : Run step s all u) (hu : ∀ next, step u ≠ some (.ok next)) : turns <+: all := by
  obtain ⟨rest, rfl, -⟩ := h.rest_of_stuck hall hu
  exact List.prefix_append turns rest

end Run

end Unroll
