import Mathlib.Data.Nat.Notation

/-!
# Work that is submitted at most once

A process has jobs to submit to a party that does not tell it what became of a submission that
raised.  It keeps the stage of each job in its state and takes a job, with its state stored, before
it submits it; only a job that is ready is taken, and a job is settled after it was submitted.  An
`Outbox` is what there is to see of this, the stages and how often each job was submitted.

`Safe` is the invariant: a stage says how often its job has been submitted.  There is one rule for
each kind of step: those that move jobs up to being taken, or settle submitted ones
(`Safe.advances`), and the submission of a job that is taken (`Safe.submits`).
-/

namespace Outboxes

/-- How far a job is. -/
inductive Stage
  | new
  | ready
  | taken
  | settled
  deriving DecidableEq

namespace Stage

def rank : Stage → ℕ
  | new => 0
  | ready => 1
  | taken => 2
  | settled => 3

instance : LE Stage := ⟨fun a b => a.rank ≤ b.rank⟩

instance : DecidableLE Stage := fun a b => inferInstanceAs (Decidable (a.rank ≤ b.rank))

lemma le_refl (a : Stage) : a ≤ a := Nat.le_refl a.rank

lemma le_settled (a : Stage) : a ≤ settled := by
  cases a <;> decide

/-- Above a stage that is left, it is left. -/
lemma ne_new_of_le {a b : Stage} (h : a ≤ b) (ha : a ≠ new) : b ≠ new := by
  cases a with
  | new => exact absurd rfl ha
  | _ =>
      rintro rfl
      exact absurd h (by decide)

lemma ne_ready_of_le {a b : Stage} (h : a ≤ b) (hnew : a ≠ new) (hready : a ≠ ready) :
    b ≠ ready := by
  cases a with
  | new => exact absurd rfl hnew
  | ready => exact absurd rfl hready
  | _ =>
      rintro rfl
      exact absurd h (by decide)

/-- How often a job at this stage can have been submitted. -/
def Allows : Stage → ℕ → Prop
  | new, n => n = 0
  | ready, n => n = 0
  | taken, n => n ≤ 1
  | settled, n => n = 1

/-- A stage moves up, at most to the job being taken. -/
def Advances (a b : Stage) : Prop := b = a ∨ (a ≤ b ∧ a ≤ ready ∧ b ≤ taken)

lemma Advances.refl (a : Stage) : a.Advances a := .inl rfl

lemma Advances.le {a b : Stage} (h : a.Advances b) : a ≤ b := by
  rcases h with rfl | h
  · exact le_refl b
  · exact h.1

lemma new_advances_ready : new.Advances ready := .inr (by decide)

lemma ready_advances_taken : ready.Advances taken := .inr (by decide)

/-- A job that is taken stays there. -/
lemma Advances.eq_taken {b : Stage} (h : taken.Advances b) : b = taken := by
  rcases h with hb | h
  · exact hb
  · exact absurd h.2.1 (by decide)

lemma Allows.le_one {a : Stage} {n : ℕ} (h : a.Allows n) : n ≤ 1 := by
  cases a with
  | new => exact Nat.le_trans (Nat.le_of_eq h) (Nat.zero_le 1)
  | ready => exact Nat.le_trans (Nat.le_of_eq h) (Nat.zero_le 1)
  | taken => exact h
  | settled => exact Nat.le_of_eq h

lemma Allows.eq_zero {a : Stage} {n : ℕ} (h : a.Allows n) (ha : a ≤ ready) : n = 0 := by
  cases a with
  | new => exact h
  | ready => exact h
  | taken => exact absurd ha (by decide)
  | settled => exact absurd ha (by decide)

lemma allows_zero {a : Stage} (ha : a ≤ taken) : a.Allows 0 := by
  cases a with
  | new => rfl
  | ready => rfl
  | taken => exact Nat.zero_le 1
  | settled => exact absurd ha (by decide)

lemma Allows.advances {a b : Stage} {n : ℕ} (h : a.Allows n) (hab : a.Advances b) :
    b.Allows n := by
  rcases hab with rfl | ⟨-, ha, hb⟩
  · exact h
  · rw [h.eq_zero ha]
    exact allows_zero hb

end Stage

/-- What there is to see of the jobs in a state. -/
structure Outbox (S K : Type*) where
  stage : S → K → Stage
  submissions : S → K → ℕ

namespace Outbox

variable {S K : Type*} (o : Outbox S K)

/-- The stages say how often the jobs were submitted. -/
def Safe (s : S) : Prop := ∀ k, (o.stage s k).Allows (o.submissions s k)

/-- A job is taken, and still to be submitted. -/
structure Fresh (k : K) (s : S) : Prop where
  stage : o.stage s k = .taken
  submissions : o.submissions s k = 0

/-- A step that submits nothing, and settles only jobs of which `Mine` holds. -/
structure Advances (Mine : K → Prop) (s s' : S) : Prop where
  submissions : ∀ k, o.submissions s' k = o.submissions s k
  stage : ∀ k, (o.stage s k).Advances (o.stage s' k) ∨ (Mine k ∧ o.stage s' k = .settled)

/-- A step that submits a job. -/
structure Submits (k : K) (s s' : S) : Prop where
  stage : ∀ k', o.stage s' k' = o.stage s k'
  submitted : o.submissions s' k = o.submissions s k + 1
  submissions : ∀ k', k' ≠ k → o.submissions s' k' = o.submissions s k'

variable {o} {Mine : K → Prop} {k : K} {s s' : S}

/-- No step goes back. -/
lemma Advances.le (h : o.Advances Mine s s') (k : K) : o.stage s k ≤ o.stage s' k := by
  rcases h.stage k with hadvances | ⟨-, hsettled⟩
  · exact hadvances.le
  · rw [hsettled]
    exact Stage.le_settled _

/-- **Steps within.**  What is settled must have been submitted. -/
lemma Safe.advances (h : o.Safe s) (hadvances : o.Advances Mine s s')
    (hmine : ∀ k, Mine k → o.submissions s k = 1) : o.Safe s' := by
  intro k
  rw [hadvances.submissions k]
  rcases hadvances.stage k with hstage | ⟨hk, hsettled⟩
  · exact (h k).advances hstage
  · rw [hsettled]
    exact hmine k hk

/-- A job that was ready and is taken is to be submitted. -/
lemma Safe.fresh (h : o.Safe s) (hadvances : o.Advances Mine s s') (hready : o.stage s k = .ready)
    (htaken : o.stage s' k = .taken) : o.Fresh k s' where
  stage := htaken
  submissions := by
    rw [hadvances.submissions k]
    exact (h k).eq_zero (hready ▸ Stage.le_refl _)

lemma Fresh.advances (h : o.Fresh k s) (hadvances : o.Advances Mine s s') (hmine : ¬ Mine k) :
    o.Fresh k s' where
  stage := by
    rcases hadvances.stage k with hstage | ⟨hk, -⟩
    · rw [h.stage] at hstage
      exact hstage.eq_taken
    · exact absurd hk hmine
  submissions := (hadvances.submissions k).trans h.submissions

/-- **Submission.**  It happens once. -/
lemma Safe.submits (h : o.Safe s) (hfresh : o.Fresh k s) (hsubmits : o.Submits k s s') :
    o.Safe s' ∧ o.submissions s' k = 1 := by
  have hone : o.submissions s' k = 1 := by rw [hsubmits.submitted, hfresh.submissions]
  refine ⟨fun k' => ?_, hone⟩
  rw [hsubmits.stage k']
  by_cases hk : k' = k
  · rw [hk, hone, hfresh.stage]
    exact Nat.le_refl 1
  · rw [hsubmits.submissions k' hk]
    exact h k'

/-- A job whose submission is safe is taken. -/
lemma Safe.stage_of_submits (h : o.Safe s) (h' : o.Safe s') (hsubmits : o.Submits k s s') :
    o.stage s k = .taken := by
  have hbefore := h k
  have hafter := h' k
  rw [hsubmits.stage k, hsubmits.submitted] at hafter
  cases hstage : o.stage s k with
  | new =>
      rw [hstage] at hafter
      exact absurd hafter (Nat.succ_ne_zero _)
  | ready =>
      rw [hstage] at hafter
      exact absurd hafter (Nat.succ_ne_zero _)
  | taken => rfl
  | settled =>
      rw [hstage] at hbefore hafter
      have hone : o.submissions s k = 1 := hbefore
      have hzero : o.submissions s k = 0 := Nat.succ.inj hafter
      rw [hone] at hzero
      exact absurd hzero Nat.one_ne_zero

end Outbox

end Outboxes
