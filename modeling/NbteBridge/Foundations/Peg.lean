import Mathlib

/-!
# Pegged supplies

An asset held in custody is represented by a token, `divisor` units of the token for one of the
asset.  Units of the asset are *accepted* into custody and minted, or *released* from it and
burned; holders may also burn tokens for nothing.  `Peg.Solvent` is the accounting identity, kept
by every move, and it bounds what is released by what was accepted.
-/

/-- The accounts of one pegged asset: the token supply, and the totals accepted into custody,
released from it (both in units of the asset) and burned for nothing (in units of the token). -/
structure Peg where
  divisor : ℕ
  supply : ℕ
  accepted : ℕ
  released : ℕ
  burned : ℕ

namespace Peg

/-- Nothing accepted yet. -/
def empty (divisor : ℕ) : Peg := ⟨divisor, 0, 0, 0, 0⟩

/-- The moves of a pegged asset. -/
inductive Move (p : Peg) : Peg → Prop
  | idle : Move p p
  | accept (n : ℕ) :
      Move p { p with supply := p.supply + n * p.divisor, accepted := p.accepted + n }
  | release (n s : ℕ) (h : s + n * p.divisor = p.supply) :
      Move p { p with supply := s, released := p.released + n }
  | burn (k s : ℕ) (h : s + k = p.supply) :
      Move p { p with supply := s, burned := p.burned + k }

/-- Every token unit ever minted is in circulation, was redeemed, or was burned. -/
def Solvent (p : Peg) : Prop :=
  p.supply + p.divisor * p.released + p.burned = p.divisor * p.accepted

lemma solvent_empty (d : ℕ) : (empty d).Solvent := by simp [Solvent, empty]

/-- **Solvency is kept by every move.** -/
theorem Solvent.move {p q : Peg} (h : p.Solvent) (hm : Move p q) : q.Solvent := by
  unfold Solvent at *
  cases hm with
  | idle => exact h
  | accept n =>
      show p.supply + n * p.divisor + p.divisor * p.released + p.burned =
        p.divisor * (p.accepted + n)
      calc p.supply + n * p.divisor + p.divisor * p.released + p.burned
          = (p.supply + p.divisor * p.released + p.burned) + n * p.divisor := by ring
        _ = p.divisor * (p.accepted + n) := by rw [h]; ring
  | release n s hs =>
      show s + p.divisor * (p.released + n) + p.burned = p.divisor * p.accepted
      calc s + p.divisor * (p.released + n) + p.burned
          = (s + n * p.divisor) + p.divisor * p.released + p.burned := by ring
        _ = p.divisor * p.accepted := by rw [hs, h]
  | burn k s hs =>
      show s + p.divisor * p.released + (p.burned + k) = p.divisor * p.accepted
      calc s + p.divisor * p.released + (p.burned + k)
          = (s + k) + p.divisor * p.released + p.burned := by ring
        _ = p.divisor * p.accepted := by rw [hs, h]

/-- No more is released than was accepted. -/
theorem Solvent.released_le {p : Peg} (h : p.Solvent) (hd : 0 < p.divisor) :
    p.released ≤ p.accepted := by
  have hle : p.divisor * p.released ≤ p.divisor * p.accepted := by
    unfold Solvent at h
    omega
  exact Nat.le_of_mul_le_mul_left hle hd

end Peg
