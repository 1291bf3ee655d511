import Mathlib

/-!
# Runs of a transition system

A system is a set of initial states and a step relation labelled by actions.  A *run* is a
finite sequence of actions taken from an initial state, recorded oldest first.  Every result
about "any order of calls" is the induction of this file: what one step preserves, a whole run
preserves.
-/

namespace Runs

variable {S A : Type*}

/-- `Run Init Step tr s`: the actions `tr`, oldest first, lead from an initial state to `s`. -/
inductive Run (Init : S → Prop) (Step : S → A → S → Prop) : List A → S → Prop
  | init {s : S} (h : Init s) : Run Init Step [] s
  | step {tr : List A} {s s' : S} {a : A} (hr : Run Init Step tr s) (hs : Step s a s') :
      Run Init Step (tr ++ [a]) s'

variable {Init : S → Prop} {Step : S → A → S → Prop}

/-- **The invariant rule.**  What holds of every initial state with the empty history, and is
kept by every step taken at the end of a run, holds at the end of every run. -/
theorem Run.invariant {I : List A → S → Prop} (hinit : ∀ s, Init s → I [] s)
    (hstep : ∀ tr s a s', Run Init Step tr s → I tr s → Step s a s' → I (tr ++ [a]) s')
    {tr : List A} {s : S} (h : Run Init Step tr s) : I tr s := by
  induction h with
  | init h => exact hinit _ h
  | step hr hs ih => exact hstep _ _ _ _ hr ih hs

/-- The invariant rule for a property of the state alone. -/
theorem Run.stateInvariant {I : S → Prop} (hinit : ∀ s, Init s → I s)
    (hstep : ∀ s a s', I s → Step s a s' → I s') {tr : List A} {s : S}
    (h : Run Init Step tr s) : I s :=
  h.invariant (I := fun _ s => I s) hinit fun _ s a s' _ hi hs => hstep s a s' hi hs

/-- A run of one step relation is a run of a weaker one. -/
theorem Run.mono {Step' : S → A → S → Prop} (h : ∀ s a s', Step s a s' → Step' s a s')
    {tr : List A} {s : S} (hr : Run Init Step tr s) : Run Init Step' tr s := by
  induction hr with
  | init h => exact .init h
  | step _ hs ih => exact .step ih (h _ _ _ hs)

/-- The rule for runs whose every step meets a condition on the state before it. -/
theorem Run.invariant_of_condition {C : S → A → Prop} {I : S → Prop}
    (hinit : ∀ s, Init s → I s)
    (hstep : ∀ s a s', I s → C s a → Step s a s' → I s') {tr : List A} {s : S}
    (h : Run Init (fun s a s' => C s a ∧ Step s a s') tr s) : I s :=
  h.stateInvariant hinit fun s a s' hi hs => hstep s a s' hi hs.1 hs.2

/-! ## The states of a run -/

/-- A run that also records the state each action was taken in. -/
abbrev Traced (Init : S → Prop) (Step : S → A → S → Prop) : List (S × A) → S → Prop :=
  Run Init fun s p s' => p.1 = s ∧ Step s p.2 s'

/-- Every run passes through some states. -/
theorem Run.traced {tr : List A} {s : S} (h : Run Init Step tr s) :
    ∃ history, Traced Init Step history s ∧ history.map Prod.snd = tr := by
  induction h with
  | init h => exact ⟨[], .init h, rfl⟩
  | @step tr s s' a _ hs ih =>
      obtain ⟨history, hhistory, rfl⟩ := ih
      exact ⟨history ++ [(s, a)], hhistory.step ⟨rfl, hs⟩, List.map_append⟩

end Runs
