import Mathlib.Logic.Basic

/-!
# Runs of a transition system

A system has initial states and labelled steps. A state is reachable under a condition on steps
when some run from an initial state reaches it and every step of that run meets the condition;
the condition sees the state before the step and its label. An invariant of the steps that meet
the condition holds in every state such runs reach.
-/
namespace Aipass

/-- A labelled transition system. -/
structure System (σ α : Type) where
  /-- The states a run starts from. -/
  init : σ → Prop
  /-- What a step does. -/
  step : σ → α → σ → Prop

namespace System

variable {σ α : Type} (system : System σ α)

/-- The states reached by runs whose steps all meet a condition. -/
inductive Reachable (allowed : σ → α → Prop) : σ → Prop where
  /-- A run starts in an initial state. -/
  | start {state} (initial : system.init state) : Reachable allowed state
  /-- A run goes on by a step that meets the condition. -/
  | step {state label next} (reached : Reachable allowed state) (meets : allowed state label)
    (stepped : system.step state label next) : Reachable allowed next

/-- The states reached by any run. -/
abbrev Reached : σ → Prop := system.Reachable fun _ _ => True

variable {system}

/-- A property of the initial states that allowed steps preserve holds in every state they
reach. -/
theorem Reachable.invariant {allowed : σ → α → Prop} (inv : σ → Prop)
    (initially : ∀ state, system.init state → inv state)
    (preserved : ∀ state label next, inv state → allowed state label →
      system.step state label next → inv next)
    {state : σ} (reached : system.Reachable allowed state) : inv state := by
  induction reached with
  | start initial => exact initially _ initial
  | step _ meets stepped held => exact preserved _ _ _ held meets stepped

/-- A run under a condition is a run under any weaker one. -/
theorem Reachable.mono {allowed allowed' : σ → α → Prop} {state : σ}
    (reached : system.Reachable allowed state)
    (weaker : ∀ state label, allowed state label → allowed' state label) :
    system.Reachable allowed' state := by
  induction reached with
  | start initial => exact .start initial
  | step _ meets stepped ih => exact .step ih (weaker _ _ meets) stepped

/-- The state after a series of steps, if all of them are possible. -/
def after (step : σ → α → Option σ) (state : σ) : List α → Option σ
  | [] => some state
  | label :: rest => (step state label).bind fun next => after step next rest

/-- A series of steps that are allowed goes on with a run. -/
theorem Reachable.after {allowed : σ → α → Prop} {step : σ → α → Option σ}
    (steps : ∀ state label next, step state label = some next →
      allowed state label ∧ system.step state label next) {labels : List α} {state next : σ}
    (reached : system.Reachable allowed state) (went : System.after step state labels = some next) :
    system.Reachable allowed next := by
  induction labels generalizing state with
  | nil =>
    cases went
    exact reached
  | cons label labels ih =>
    obtain ⟨middle, stepped, rest⟩ := Option.bind_eq_some_iff.mp went
    obtain ⟨meets, stepped⟩ := steps _ _ _ stepped
    exact ih (.step reached meets stepped) rest

end System
end Aipass
