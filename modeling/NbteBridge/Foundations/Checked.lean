import Mathlib

/-!
# Checked computations

A call that may be refused returns `Except ε α`: `.error e` refuses and leaves no state behind,
`.ok a` is the result.  This file has the one guard such calls are written with, `require`, and
the inversion rules that take a successful call apart step by step, so that no later proof
unfolds the monad.
-/

namespace Checked

universe u v

variable {ε : Type u} {α β : Type v}

/-- Refuse with `e` unless `c` holds. -/
def require (c : Prop) [Decidable c] (e : ε) : Except ε Unit :=
  if c then .ok () else .error e

/-- Refuse with `e` when there is no value. -/
def orError (o : Option α) (e : ε) : Except ε α :=
  match o with
  | some a => .ok a
  | none => .error e

/-! ## Inversion -/

@[simp] lemma require_eq_ok {c : Prop} [Decidable c] {e : ε} {u : Unit} :
    require c e = .ok u ↔ c := by
  unfold require
  by_cases h : c <;> simp [h]

lemma require_of {c : Prop} [Decidable c] {e : ε} (h : c) : require c e = .ok () :=
  require_eq_ok.2 h

@[simp] lemma orError_eq_ok {o : Option α} {e : ε} {a : α} :
    orError o e = .ok a ↔ o = some a := by
  cases o <;> simp [orError]

/-- A sequence succeeds exactly when its first call does and the rest succeeds on its result. -/
@[simp] lemma bind_eq_ok {x : Except ε α} {f : α → Except ε β} {b : β} :
    (x >>= f) = .ok b ↔ ∃ a, x = .ok a ∧ f a = .ok b := by
  rcases x with e | a
  · simp only [bind, Except.bind, reduceCtorEq, false_and, exists_false]
  · simp only [bind, Except.bind, Except.ok.injEq, exists_eq_left']

@[simp] lemma pure_eq_ok {a b : α} : (pure a : Except ε α) = .ok b ↔ a = b :=
  Except.ok.injEq a b ▸ Iff.rfl

@[simp] lemma ok_bind {a : α} {f : α → Except ε β} :
    ((Except.ok a : Except ε α) >>= f) = f a := rfl

/-- A call made for its effect alone has one possible result. -/
@[simp] lemma exists_unit {p : Unit → Prop} : (∃ u, p u) ↔ p () :=
  ⟨fun ⟨(), h⟩ => h, fun h => ⟨(), h⟩⟩

/-- A sequence is refused when its first call is, or the rest is on its result. -/
lemma bind_eq_error {x : Except ε α} {f : α → Except ε β} {e : ε} :
    (x >>= f) = .error e ↔ x = .error e ∨ ∃ a, x = .ok a ∧ f a = .error e := by
  cases x with
  | error e' => simp [bind, Except.bind]
  | ok a => simp [bind, Except.bind]

lemma require_eq_error {c : Prop} [Decidable c] {e e' : ε} :
    require c e = .error e' ↔ ¬ c ∧ e = e' := by
  unfold require
  by_cases h : c <;> simp [h]

lemma orError_eq_error {o : Option α} {e e' : ε} :
    orError o e = .error e' ↔ o = none ∧ e = e' := by
  cases o <;> simp [orError]

/-- A loop that succeeds has a result for each of its rounds. -/
lemma forall₂_of_mapM_ok {f : α → Except ε β} {as : List α} {bs : List β}
    (h : as.mapM f = .ok bs) : List.Forall₂ (fun a b => f a = .ok b) as bs := by
  induction as generalizing bs with
  | nil =>
      obtain rfl := pure_eq_ok.1 h
      exact List.Forall₂.nil
  | cons a as ih =>
      simp only [List.mapM_cons, bind_eq_ok, pure_eq_ok] at h
      obtain ⟨b, hb, bs, hbs, rfl⟩ := h
      exact List.Forall₂.cons hb (ih hbs)

/-- A loop that reads the items of a list in order reads the list. -/
lemma mapM_range_eq_ok {bs : List β} {f : ℕ → Except ε β}
    (h : ∀ (i : ℕ) (b : β), bs[i]? = some b → f i = .ok b) :
    (List.range bs.length).mapM f = .ok bs := by
  induction bs generalizing f with
  | nil => rfl
  | cons b bs ih =>
      have hrest : (List.range bs.length).mapM (f ∘ Nat.succ) = .ok bs :=
        ih fun i c hc => h (i + 1) c hc
      rw [List.length_cons, List.range_succ_eq_map, List.mapM_cons, h 0 b rfl, ok_bind,
        List.mapM_map, hrest, ok_bind]
      rfl

/-- A computation that evaluates to a success has a result. -/
lemma exists_ok_of_isOk {x : Except ε α} (h : x.isOk = true) : ∃ a, x = .ok a := by
  cases x with
  | error e => exact absurd h (by simp [Except.isOk, Except.toBool])
  | ok a => exact ⟨a, rfl⟩

lemma pure_ne_error {a : α} {e : ε} : (pure a : Except ε α) ≠ .error e := by
  intro h
  cases h

end Checked
