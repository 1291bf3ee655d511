import NbteBridge.Contracts.Evm
import NbteBridge.Foundations.Bech32

/-!
# The checksum register on words

Two contracts run the bech32 register on 256-bit words, each with a step function of its own.
`IsPolymodStep` is what such a function must compute; a loop of it is then a run of the register
(`IsPolymodStep.foldl`), and the two loops over a prefix its expansion (`IsPolymodStep.expand`).
-/

namespace NbteBridge

open Packed

/-- The word function is the step of the register on a zero value. -/
def IsPolymodStep (step : Uint256 → Uint256) : Prop :=
  ∀ pre, (step pre).toNat = Bech32.polymodStep pre.toNat 0

/-- The register's rest, moved up. -/
lemma toNat_low (pre : Uint256) :
    ((pre &&& 0x1ffffff) <<< 5).toNat = (pre.toNat &&& 0x1ffffff) <<< 5 := by
  have hand : pre.toNat &&& 0x1ffffff ≤ 0x1ffffff := Nat.and_le_right
  rw [BitVec.toNat_shiftLeft, BitVec.toNat_and, Nat.mod_eq_of_lt]
  · rfl
  · change (pre.toNat &&& 0x1ffffff) <<< 5 < 2 ^ 256
    rw [Nat.shiftLeft_eq]
    omega

/-- One conditional of a step: a bit decides whether a coefficient is laid over. -/
lemma toNat_overlay {c : Prop} [Decidable c] {n i : ℕ} (hc : c ↔ n.testBit i = true)
    (acc g : Uint256) :
    (if c then acc ^^^ g else acc).toNat =
      if n.testBit i = true then acc.toNat ^^^ g.toNat else acc.toNat := by
  by_cases h : n.testBit i = true
  · rw [if_pos h, if_pos (hc.2 h), BitVec.toNat_xor]
  · rw [if_neg h, if_neg fun hb => h (hc.1 hb)]

namespace IsPolymodStep

variable {step : Uint256 → Uint256} (h : IsPolymodStep step)

include h

/-- A step with a value laid over. -/
lemma xor (chk : Uint256) (c : UInt8) :
    (step chk ^^^ Uint256.ofByte c).toNat = Bech32.polymodStep chk.toNat c.toNat := by
  rw [BitVec.toNat_xor, h, Uint256.toNat_ofByte, Bech32.polymodStep_value _ c.toNat]

/-- **A loop of word steps is a run of the register.** -/
lemma foldl (f : UInt8 → UInt8) (cs : Bytes) (chk : Uint256) :
    (cs.foldl (fun chk c => step chk ^^^ Uint256.ofByte (f c)) chk).toNat =
      (cs.map fun c => (f c).toNat).foldl Bech32.polymodStep chk.toNat := by
  induction cs generalizing chk with
  | nil => simp
  | cons c cs ih => rw [List.foldl_cons, ih, h.xor, List.map_cons, List.foldl_cons]

/-- The loops over the high bits of a prefix, a step, and the loop over its low bits. -/
lemma expand (hrp : Bytes) :
    (hrp.foldl (fun chk (c : UInt8) => step chk ^^^ Uint256.ofByte (c &&& 0x1f))
      (step (hrp.foldl (fun chk (c : UInt8) => step chk ^^^ Uint256.ofByte (c >>> 5)) 1))).toNat =
      Bech32.polymod (Bech32.hrpExpand hrp) := by
  have hhigh : ∀ c : UInt8, (c >>> 5).toNat = c.toNat >>> 5 := by
    intro c
    simp
  have hlow : ∀ c : UInt8, (c &&& 0x1f).toNat = c.toNat &&& 31 := by
    intro c
    simp
  have hone : (1 : Uint256).toNat = 1 := by simp
  rw [h.foldl (fun c => c &&& 0x1f), h, h.foldl (fun c => c >>> 5)]
  simp only [hhigh, hlow, hone, Bech32.polymod, Bech32.hrpExpand, List.foldl_append,
    List.foldl_cons, List.foldl_nil]

end IsPolymodStep

end NbteBridge
