import Rimz.Lib.Names

/-!
# Runs of a transition system

The states a labelled step relation reaches, and the one induction every invariant needs.
-/

namespace Rimz.Lib

section Run
variable {σ α : Type*} {init : σ → Prop} {step : σ → α → σ → Prop}

/-- The states of all runs that start in `init` and follow `step`. -/
inductive Reachable (init : σ → Prop) (step : σ → α → σ → Prop) : σ → Prop where
  | start {s : σ} : init s → Reachable init step s
  | next {s s' : σ} {a : α} : Reachable init step s → step s a s' → Reachable init step s'

/-- An invariant of the initial states and of every step holds in every reachable state. -/
lemma Reachable.invariant {P : σ → Prop} (h0 : ∀ s, init s → P s)
    (hs : ∀ s a s', Reachable init step s → P s → step s a s' → P s') {s}
    (h : Reachable init step s) : P s := by
  induction h with
  | start h => exact h0 _ h
  | next hr st ih => exact hs _ _ _ hr ih st

/-- A run of a smaller step relation is a run of a larger one. -/
lemma Reachable.mono {step'} (hsub : ∀ s a s', step s a s' → step' s a s') {s}
    (h : Reachable init step s) : Reachable init step' s := by
  induction h with
  | start h => exact .start h
  | next _ st ih => exact .next ih (hsub _ _ _ st)

end Run

end Rimz.Lib
