import Mathlib.Data.Nat.Notation
import Mathlib.Logic.Relation

/-!
# Programs with effects, and crashes

A program is a tree of calls to the outside world: it returns, raises, or makes a call and goes on
with what the call returned or raised.  A call may take effect and raise all the same, the world
moves on its own between the calls, and the process that runs the program may stop at any point and
start over from the world as it is then.

`Holds` says that an assertion is kept by every call of a program, in whatever way the world moves,
and what is true where the program ends.  It has one rule for each way programs are put together
(`holds_bind`, `holds_tryCatch`, `holds_perform`, `Holds.forEach`).  `Running.invariant` is what it
is for: an assertion that the world's moves keep, and that the program keeps wherever it starts,
holds in every state of every run, crashes included.
-/

namespace Effects

universe u

/-- A program whose calls are `Op`, with responses `Resp`, that raises `ε` or returns `α`. -/
inductive Prog (Op : Type u) (Resp : Op → Type) (ε α : Type)
  | pure (a : α)
  | throw (e : ε)
  | call (o : Op) (next : Except ε (Resp o) → Prog Op Resp ε α)

namespace Prog

variable {Op : Type u} {Resp : Op → Type} {ε α β : Type}

def bind : Prog Op Resp ε α → (α → Prog Op Resp ε β) → Prog Op Resp ε β
  | pure a, f => f a
  | throw e, _ => throw e
  | call o next, f => call o fun r => (next r).bind f

def tryCatch : Prog Op Resp ε α → (ε → Prog Op Resp ε α) → Prog Op Resp ε α
  | pure a, _ => pure a
  | throw e, handler => handler e
  | call o next, handler => call o fun r => (next r).tryCatch handler

instance : Monad (Prog Op Resp ε) where
  pure := pure
  bind := bind

instance : MonadExcept ε (Prog Op Resp ε) where
  throw := throw
  tryCatch := tryCatch

/-- One call; what it raises is raised. -/
def perform (o : Op) : Prog Op Resp ε (Resp o) :=
  call o fun
    | .ok r => pure r
    | .error e => throw e

/-- A computation without effects. -/
def lift : Except ε α → Prog Op Resp ε α
  | .ok a => pure a
  | .error e => throw e

/-- A loop over a list. -/
def forEach (f : β → Prog Op Resp ε Unit) : List β → Prog Op Resp ε Unit
  | [] => pure ()
  | b :: bs => (f b).bind fun _ => forEach f bs

/-- All calls a program can make satisfy `P`. -/
def Calls (P : Op → Prop) : Prog Op Resp ε α → Prop
  | pure _ => True
  | throw _ => True
  | call o next => P o ∧ ∀ r, (next r).Calls P

variable {P : Op → Prop}

lemma calls_bind {p : Prog Op Resp ε α} {f : α → Prog Op Resp ε β} (hp : p.Calls P)
    (hf : ∀ a, (f a).Calls P) : (p >>= f).Calls P := by
  induction p with
  | pure a => exact hf a
  | throw e => trivial
  | call o next ih => exact ⟨hp.1, fun r => ih r (hp.2 r)⟩

lemma calls_perform {o : Op} (ho : P o) : (perform o : Prog Op Resp ε (Resp o)).Calls P := by
  refine ⟨ho, fun r => ?_⟩
  cases r with
  | ok r => trivial
  | error e => trivial

lemma calls_lift {x : Except ε α} : (lift x : Prog Op Resp ε α).Calls P := by
  cases x with
  | ok a => trivial
  | error e => trivial

lemma calls_tryCatch {p : Prog Op Resp ε α} {handler : ε → Prog Op Resp ε α} (hp : p.Calls P)
    (hhandler : ∀ e, (handler e).Calls P) : (p.tryCatch handler).Calls P := by
  induction p with
  | pure a => trivial
  | throw e => exact hhandler e
  | call o next ih => exact ⟨hp.1, fun r => ih r (hp.2 r)⟩

lemma calls_forEach {f : β → Prog Op Resp ε Unit} (hf : ∀ b, (f b).Calls P) (bs : List β) :
    (forEach f bs).Calls P := by
  induction bs with
  | nil => trivial
  | cons b bs ih => exact calls_bind (hf b) fun _ => ih

lemma Calls.mono {P' : Op → Prop} {p : Prog Op Resp ε α} (hp : p.Calls P)
    (h : ∀ o, P o → P' o) : p.Calls P' := by
  induction p with
  | pure a => trivial
  | throw e => trivial
  | call o next ih => exact ⟨h o hp.1, fun r => ih r (hp.2 r)⟩

lemma calls_true (p : Prog Op Resp ε α) : p.Calls fun _ => True := by
  induction p with
  | pure a => trivial
  | throw e => trivial
  | call o next ih => exact ⟨trivial, ih⟩

end Prog

open Prog

/-- A world: what a call may do, with its response, and what may happen between the calls. -/
structure World (Op : Type u) (Resp : Op → Type) (ε S : Type) where
  Does : S → (o : Op) → Except ε (Resp o) → S → Prop
  Moves : S → S → Prop

variable {Op : Type u} {Resp : Op → Type} {ε α β S : Type}

/-- Any number of moves. -/
abbrev World.Waits (W : World Op Resp ε S) : S → S → Prop := Relation.ReflTransGen W.Moves

/-- The world in which calls and moves meet a condition on the state before. -/
def World.when (W : World Op Resp ε S) (C : S → (o : Op) → Except ε (Resp o) → Prop) :
    World Op Resp ε S where
  Does s o r s' := C s o r ∧ W.Does s o r s'
  Moves := W.Moves

/-- The world in which nothing happens between the calls. -/
def World.still (W : World Op Resp ε S) : World Op Resp ε S where
  Does := W.Does
  Moves _ _ := False

/-! ## Assertions -/

/-- The calls of a program started in `s` keep `I`, and its end satisfies `Q`. -/
def Holds (W : World Op Resp ε S) (I : S → Prop) :
    Prog Op Resp ε α → (Except ε α → S → Prop) → S → Prop
  | .pure a, Q, s => Q (.ok a) s
  | .throw e, Q, s => Q (.error e) s
  | .call o next, Q, s =>
      ∀ s₁, W.Waits s s₁ → ∀ r s₂, W.Does s₁ o r s₂ → I s₂ ∧ Holds W I (next r) Q s₂

section Rules

variable {W : World Op Resp ε S} {I : S → Prop} {Q Q' : Except ε α → S → Prop} {s s' : S}

@[simp] lemma holds_pure {a : α} :
    Holds W I (Pure.pure a : Prog Op Resp ε α) Q s ↔ Q (.ok a) s := Iff.rfl

@[simp] lemma holds_throw {e : ε} :
    Holds W I (Prog.throw e : Prog Op Resp ε α) Q s ↔ Q (.error e) s := Iff.rfl

/-- **Consequence.** -/
lemma Holds.mono {p : Prog Op Resp ε α} (h : Holds W I p Q s) (hQ : ∀ r s, Q r s → Q' r s) :
    Holds W I p Q' s := by
  induction p generalizing s with
  | pure a => exact hQ _ _ h
  | throw e => exact hQ _ _ h
  | call o next ih =>
      intro s₁ hwait r s₂ hdoes
      obtain ⟨hi, hnext⟩ := h s₁ hwait r s₂ hdoes
      exact ⟨hi, ih r hnext⟩

/-- **Sequence.** -/
lemma holds_bind {p : Prog Op Resp ε β} {f : β → Prog Op Resp ε α} :
    Holds W I (p >>= f) Q s ↔
      Holds W I p
        (fun r s =>
          match r with
          | .ok b => Holds W I (f b) Q s
          | .error e => Q (.error e) s) s := by
  induction p generalizing s with
  | pure b => exact Iff.rfl
  | throw e => exact Iff.rfl
  | call o next ih =>
      refine forall_congr' fun s₁ => forall_congr' fun _ => forall_congr' fun r =>
        forall_congr' fun s₂ => forall_congr' fun _ => and_congr_right fun _ => ih r

/-- **Handlers.** -/
lemma holds_tryCatch {p : Prog Op Resp ε α} {handler : ε → Prog Op Resp ε α} :
    Holds W I (p.tryCatch handler) Q s ↔
      Holds W I p
        (fun r s =>
          match r with
          | .ok a => Q (.ok a) s
          | .error e => Holds W I (handler e) Q s) s := by
  induction p generalizing s with
  | pure a => exact Iff.rfl
  | throw e => exact Iff.rfl
  | call o next ih =>
      refine forall_congr' fun s₁ => forall_congr' fun _ => forall_congr' fun r =>
        forall_congr' fun s₂ => forall_congr' fun _ => and_congr_right fun _ => ih r

/-- **One call.** -/
lemma holds_perform {o : Op} {Q : Except ε (Resp o) → S → Prop} :
    Holds W I (perform o) Q s ↔
      ∀ s₁, W.Waits s s₁ → ∀ r s₂, W.Does s₁ o r s₂ → I s₂ ∧ Q r s₂ := by
  constructor
  · intro h s₁ hwait r s₂ hdoes
    obtain ⟨hi, hq⟩ := h s₁ hwait r s₂ hdoes
    cases r with
    | ok r => exact ⟨hi, hq⟩
    | error e => exact ⟨hi, hq⟩
  · intro h s₁ hwait r s₂ hdoes
    obtain ⟨hi, hq⟩ := h s₁ hwait r s₂ hdoes
    cases r with
    | ok r => exact ⟨hi, hq⟩
    | error e => exact ⟨hi, hq⟩

@[simp] lemma holds_lift {x : Except ε α} :
    Holds W I (Prog.lift x : Prog Op Resp ε α) Q s ↔ Q x s := by
  cases x with
  | ok a => exact Iff.rfl
  | error e => exact Iff.rfl

/-- **Loops.**  What every round keeps, whether it raises or not, the loop keeps. -/
lemma Holds.forEach {J : S → Prop} {f : β → Prog Op Resp ε Unit} {bs : List β}
    (h : ∀ b ∈ bs, ∀ s, J s → Holds W I (f b) (fun _ => J) s) (hs : J s) :
    Holds W I (Prog.forEach f bs) (fun _ => J) s := by
  induction bs generalizing s with
  | nil => exact hs
  | cons b bs ih =>
      refine holds_bind.2 ((h b (by simp) s hs).mono ?_)
      intro r s hj
      cases r with
      | ok _ => exact ih (fun b hb => h b (by simp [hb])) hj
      | error e => exact hj

/-- **Calls of one kind.**  What every such call keeps, the program keeps. -/
lemma Holds.of_calls {P : Op → Prop} {J : S → Prop} {p : Prog Op Resp ε α} (hp : p.Calls P)
    (hmoves : ∀ s s', J s → W.Moves s s' → J s')
    (hdoes : ∀ s o r s', P o → J s → W.Does s o r s' → I s' ∧ J s') (hs : J s) :
    Holds W I p (fun _ => J) s := by
  induction p generalizing s with
  | pure a => exact hs
  | throw e => exact hs
  | call o next ih =>
      intro s₁ hwait r s₂ hcall
      have hs₁ : J s₁ := by
        clear hcall
        induction hwait with
        | refl => exact hs
        | tail _ hmove ih => exact hmoves _ _ ih hmove
      obtain ⟨hi, hj⟩ := hdoes s₁ o r s₂ hp.1 hs₁ hcall
      exact ⟨hi, ih r (hp.2 r) hj⟩

/-- What both parts keep. -/
lemma Holds.seq {J : S → Prop} {p : Prog Op Resp ε β} {f : β → Prog Op Resp ε α}
    (hp : Holds W I p (fun _ => J) s) (hf : ∀ b s, J s → Holds W I (f b) (fun _ => J) s) :
    Holds W I (p >>= f) (fun _ => J) s := by
  refine holds_bind.2 (hp.mono ?_)
  intro r s' hj
  cases r with
  | ok b => exact hf b s' hj
  | error e => exact hj

/-- What a program and its handler keep. -/
lemma Holds.handle {J : S → Prop} {p : Prog Op Resp ε α} {handler : ε → Prog Op Resp ε α}
    (hp : Holds W I p (fun _ => J) s)
    (hhandler : ∀ e s, J s → Holds W I (handler e) (fun _ => J) s) :
    Holds W I (p.tryCatch handler) (fun _ => J) s := by
  refine holds_tryCatch.2 (hp.mono ?_)
  intro r s' hj
  cases r with
  | ok a => exact hj
  | error e => exact hhandler e s' hj

end Rules

/-! ### Results -/

/-- The calls of a program keep `I`, and what it returns satisfies `Q`. -/
def Ensures (W : World Op Resp ε S) (I : S → Prop) (p : Prog Op Resp ε α) (Q : α → S → Prop) :
    S → Prop :=
  Holds W I p fun r s => ∀ a, r = .ok a → Q a s

section Results

variable {W : World Op Resp ε S} {I : S → Prop} {Q Q' : α → S → Prop} {s : S}

@[simp] lemma ensures_pure {a : α} :
    Ensures W I (Pure.pure a : Prog Op Resp ε α) Q s ↔ Q a s := by
  simp [Ensures]

@[simp] lemma ensures_throw {e : ε} :
    Ensures W I (MonadExcept.throw e : Prog Op Resp ε α) Q s := by
  intro a ha
  cases ha

@[simp] lemma ensures_lift {x : Except ε α} :
    Ensures W I (Prog.lift x : Prog Op Resp ε α) Q s ↔ ∀ a, x = .ok a → Q a s := by
  rw [Ensures, holds_lift]

lemma Ensures.mono {p : Prog Op Resp ε α} (h : Ensures W I p Q s) (hQ : ∀ a s, Q a s → Q' a s) :
    Ensures W I p Q' s := by
  apply Holds.mono h
  intro r s hq a ha
  exact hQ a s (hq a ha)

lemma Ensures.bind {p : Prog Op Resp ε β} {f : β → Prog Op Resp ε α} {R : β → S → Prop}
    (h : Ensures W I p R s) (hf : ∀ b s, R b s → Ensures W I (f b) Q s) :
    Ensures W I (p >>= f) Q s := by
  apply holds_bind.2
  apply Holds.mono h
  intro r s hr
  cases r with
  | ok b => exact hf b s (hr b rfl)
  | error e =>
      intro a ha
      cases ha

lemma ensures_perform {o : Op} {Q : Resp o → S → Prop}
    (h : ∀ s₁, W.Waits s s₁ → ∀ r s₂, W.Does s₁ o r s₂ → I s₂ ∧ ∀ a, r = .ok a → Q a s₂) :
    Ensures W I (perform o) Q s :=
  holds_perform.2 h

end Results

/-! ## Deterministic runs -/

section Handlers

variable {M : Type}

/-- The world of a handler: each call meets some moment. -/
def World.ofHandler (handle : M → S → (o : Op) → Except ε (Resp o) × S) (Moves : S → S → Prop) :
    World Op Resp ε S where
  Does s o r s' := ∃ m, handle m s o = (r, s')
  Moves := Moves

/-- Run a program; the first call meets the first moment, and so on. -/
def Prog.eval (handle : M → S → (o : Op) → Except ε (Resp o) × S) :
    Prog Op Resp ε α → (ℕ → M) → S → Except ε α × S
  | .pure a, _, s => (.ok a, s)
  | .throw e, _, s => (.error e, s)
  | .call o next, env, s =>
      (next (handle (env 0) s o).1).eval handle (fun n => env (n + 1)) (handle (env 0) s o).2

variable {handle : M → S → (o : Op) → Except ε (Resp o) × S} {env : ℕ → M} {s : S}

@[simp] lemma eval_pure {a : α} :
    (Pure.pure a : Prog Op Resp ε α).eval handle env s = (.ok a, s) := rfl

@[simp] lemma eval_throw {e : ε} :
    (MonadExcept.throw e : Prog Op Resp ε α).eval handle env s = (.error e, s) := rfl

@[simp] lemma eval_lift_bind {x : Except ε β} {f : β → Prog Op Resp ε α} :
    (Prog.lift x >>= f).eval handle env s =
      match x with
      | .ok b => (f b).eval handle env s
      | .error e => (.error e, s) := by
  cases x with
  | ok b => rfl
  | error e => rfl

/-- **One call and the rest.** -/
lemma eval_perform_bind {o : Op} {f : Resp o → Prog Op Resp ε α} :
    (perform o >>= f).eval handle env s =
      match handle (env 0) s o with
      | (.ok a, s') => (f a).eval handle (fun n => env (n + 1)) s'
      | (.error e, s') => (.error e, s') := by
  rcases h : handle (env 0) s o with ⟨r, s'⟩
  cases r with
  | ok a =>
      show ((match (handle (env 0) s o).1 with
        | .ok r => (Prog.pure r : Prog Op Resp ε (Resp o))
        | .error e => Prog.throw e).bind f).eval handle _ (handle (env 0) s o).2 = _
      rw [h]
      rfl
  | error e =>
      show ((match (handle (env 0) s o).1 with
        | .ok r => (Prog.pure r : Prog Op Resp ε (Resp o))
        | .error e => Prog.throw e).bind f).eval handle _ (handle (env 0) s o).2 = _
      rw [h]
      rfl

/-- **Sequence.**  The second program meets the moments after those of the first. -/
lemma eval_bind {p : Prog Op Resp ε β} {f : β → Prog Op Resp ε α} :
    ∃ n, (p >>= f).eval handle env s =
      match p.eval handle env s with
      | (.ok b, s') => (f b).eval handle (fun i => env (i + n)) s'
      | (.error e, s') => (.error e, s') := by
  induction p generalizing env s with
  | pure b => exact ⟨0, rfl⟩
  | throw e => exact ⟨0, rfl⟩
  | call o next ih =>
      obtain ⟨n, h⟩ := @ih (handle (env 0) s o).1 (fun i => env (i + 1)) (handle (env 0) s o).2
      refine ⟨n + 1, h.trans ?_⟩
      simp only [Nat.add_assoc]
      rfl

/-- When the first program returns. -/
lemma eval_bind_of_ok {p : Prog Op Resp ε β} {f : β → Prog Op Resp ε α} {b : β} {s' : S}
    (h : p.eval handle env s = (.ok b, s')) :
    ∃ n, (p >>= f).eval handle env s = (f b).eval handle (fun i => env (i + n)) s' := by
  obtain ⟨n, hbind⟩ := @eval_bind _ _ _ _ _ _ _ handle env s p f
  exact ⟨n, by rw [hbind, h]⟩

/-- What the calls of a program keep, a run of it keeps. -/
lemma eval_keeps {p : Prog Op Resp ε α} {P : Op → Prop} (hp : p.Calls P) {I : S → Prop}
    (h : ∀ m s o, P o → I s → I (handle m s o).2) (hs : I s) : I (p.eval handle env s).2 := by
  induction p generalizing env s with
  | pure a => exact hs
  | throw e => exact hs
  | call o next ih => exact ih _ (hp.2 _) (h (env 0) s o hp.1 hs)

end Handlers

/-! ## Runs -/

/-- A process: the world, and what is left of the program while it runs. -/
structure Process (Op : Type u) (Resp : Op → Type) (ε S : Type) where
  world : S
  running : Option (Prog Op Resp ε Unit)

/-- What happens to a process that runs `main` over and over. -/
inductive Process.Step (W : World Op Resp ε S) (main : Prog Op Resp ε Unit) :
    Process Op Resp ε S → Process Op Resp ε S → Prop
  | start (s : S) : Step W main ⟨s, none⟩ ⟨s, some main⟩
  | call {s s' : S} {o : Op} {next : Except ε (Resp o) → Prog Op Resp ε Unit}
      {r : Except ε (Resp o)} (does : W.Does s o r s') :
      Step W main ⟨s, some (.call o next)⟩ ⟨s', some (next r)⟩
  | done (s : S) : Step W main ⟨s, some (.pure ())⟩ ⟨s, none⟩
  | raised (s : S) (e : ε) : Step W main ⟨s, some (.throw e)⟩ ⟨s, none⟩
  | crash (s : S) (p : Prog Op Resp ε Unit) : Step W main ⟨s, some p⟩ ⟨s, none⟩
  | move {s s' : S} (moves : W.Moves s s') (running : Option (Prog Op Resp ε Unit)) :
      Step W main ⟨s, running⟩ ⟨s', running⟩

lemma Process.Step.of_still {W : World Op Resp ε S} {main : Prog Op Resp ε Unit}
    {c c' : Process Op Resp ε S} (h : c.Step W.still main c') : c.Step W main c' := by
  cases h with
  | start s => exact .start s
  | call does => exact .call does
  | done s => exact .done s
  | raised s e => exact .raised s e
  | crash s p => exact .crash s p
  | move moves => exact absurd moves id

/-- The states a process reaches from a world in `Init` in which nothing runs. -/
inductive Running (W : World Op Resp ε S) (main : Prog Op Resp ε Unit) (Init : S → Prop) :
    Process Op Resp ε S → Prop
  | init {s : S} (h : Init s) : Running W main Init ⟨s, none⟩
  | step {c c' : Process Op Resp ε S} (h : Running W main Init c) (hs : c.Step W main c') :
      Running W main Init c'

lemma Running.waits {W : World Op Resp ε S} {main : Prog Op Resp ε Unit} {Init : S → Prop}
    {s s' : S} {running : Option (Prog Op Resp ε Unit)} (h : Running W main Init ⟨s, running⟩)
    (hwait : W.Waits s s') : Running W main Init ⟨s', running⟩ := by
  induction hwait with
  | refl => exact h
  | tail _ hmove ih => exact .step ih (.move hmove running)

/-- A run under a condition is a run. -/
lemma Running.of_when {W : World Op Resp ε S} {main : Prog Op Resp ε Unit} {Init : S → Prop}
    {C : S → (o : Op) → Except ε (Resp o) → Prop} {c : Process Op Resp ε S}
    (h : Running (W.when C) main Init c) : Running W main Init c := by
  induction h with
  | init h => exact .init h
  | step _ hs ih =>
      apply Running.step ih
      cases hs with
      | start s => exact .start s
      | call does => exact .call does.2
      | done s => exact .done s
      | raised s e => exact .raised s e
      | crash s p => exact .crash s p
      | move moves running => exact @Process.Step.move _ _ _ _ W _ _ _ moves running

/-- What is left of a program makes calls of the program. -/
lemma Running.calls {W : World Op Resp ε S} {main : Prog Op Resp ε Unit} {Init : S → Prop}
    {P : Op → Prop} (hmain : main.Calls P) {c : Process Op Resp ε S} (h : Running W main Init c) :
    ∀ p, c.running = some p → p.Calls P := by
  induction h with
  | init h => exact fun p hp => absurd hp (by simp)
  | step _ hs ih =>
      intro p hp
      cases hs with
      | start s => exact Option.some.inj hp ▸ hmain
      | @call s s' o next r does => exact Option.some.inj hp ▸ (ih _ rfl).2 r
      | done s => cases hp
      | raised s e => cases hp
      | crash s p => cases hp
      | @move s s' moves running => exact ih p hp

/-- A program can run to its end, in any way its calls can go. -/
lemma Process.steps_evalOf {M : Type} {W : World Op Resp ε S}
    {handle : M → S → (o : Op) → Except ε (Resp o) × S}
    (hhandle : ∀ m s o, W.Does s o (handle m s o).1 (handle m s o).2)
    {main p : Prog Op Resp ε Unit} {env : ℕ → M} {s : S} :
    Relation.ReflTransGen (Process.Step W main) ⟨s, some p⟩ ⟨(p.eval handle env s).2, none⟩ := by
  induction p generalizing env s with
  | pure u => exact .single (.done s)
  | throw e => exact .single (.raised s e)
  | call o next ih => exact .head (.call (hhandle (env 0) s o)) (ih _)

/-- A program that runs can run to its end, in any way its calls can go. -/
lemma Running.evalOf {M : Type} {W : World Op Resp ε S}
    {handle : M → S → (o : Op) → Except ε (Resp o) × S}
    (hhandle : ∀ m s o, W.Does s o (handle m s o).1 (handle m s o).2)
    {main p : Prog Op Resp ε Unit} {Init : S → Prop} {env : ℕ → M} {s : S}
    (h : Running W main Init ⟨s, some p⟩) :
    Running W main Init ⟨(p.eval handle env s).2, none⟩ := by
  induction p generalizing env s with
  | pure u => exact .step h (.done s)
  | throw e => exact .step h (.raised s e)
  | call o next ih => exact ih _ (.step h (.call (hhandle (env 0) s o)))

/-- In the world of a handler, a program can run as the handler says. -/
lemma Running.eval {M : Type} {handle : M → S → (o : Op) → Except ε (Resp o) × S}
    {Moves : S → S → Prop} {main p : Prog Op Resp ε Unit} {Init : S → Prop} {env : ℕ → M} {s : S}
    (h : Running (World.ofHandler handle Moves) main Init ⟨s, some p⟩) :
    Running (World.ofHandler handle Moves) main Init ⟨(p.eval handle env s).2, none⟩ :=
  @Running.evalOf _ _ _ _ _ (World.ofHandler handle Moves) handle (fun m _ _ => ⟨m, rfl⟩)
    main p Init env s h

/-- **Invariants of a process.**  What the moves of the world keep, and the program keeps from
wherever it starts, holds throughout every run. -/
theorem Running.invariant {W : World Op Resp ε S} {main : Prog Op Resp ε Unit} {Init I : S → Prop}
    (hinit : ∀ s, Init s → I s) (hmoves : ∀ s s', I s → W.Moves s s' → I s')
    (hmain : ∀ s, I s → Holds W I main (fun _ _ => True) s) {c : Process Op Resp ε S}
    (h : Running W main Init c) : I c.world := by
  -- while a program runs, it keeps the assertion from some state not long ago
  suffices hboth : I c.world ∧ ∀ p, c.running = some p →
      ∃ s, W.Waits s c.world ∧ Holds W I p (fun _ _ => True) s from hboth.1
  induction h with
  | init h => exact ⟨hinit _ h, by simp⟩
  | step _ hs ih =>
      obtain ⟨hi, hrunning⟩ := ih
      cases hs with
      | start s =>
          refine ⟨hi, ?_⟩
          rintro p ⟨⟩
          exact ⟨s, .refl, hmain s hi⟩
      | @call s s' o next r does =>
          obtain ⟨s₀, hwait, hholds⟩ := hrunning _ rfl
          obtain ⟨hi', hnext⟩ := hholds s hwait r s' does
          refine ⟨hi', ?_⟩
          rintro p ⟨⟩
          exact ⟨s', .refl, hnext⟩
      | done s => exact ⟨hi, by simp⟩
      | raised s e => exact ⟨hi, by simp⟩
      | crash s p => exact ⟨hi, by simp⟩
      | @move s s' moves running =>
          refine ⟨hmoves s s' hi moves, ?_⟩
          intro p hp
          obtain ⟨s₀, hwait, hholds⟩ := hrunning p hp
          exact ⟨s₀, hwait.tail moves, hholds⟩

end Effects
