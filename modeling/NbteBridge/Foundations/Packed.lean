import Mathlib

/-!
# Packed byte strings

Fixed-width big-endian encodings of numbers, and concatenations of fixed-width parts.  A packed
string has no length fields, so two facts carry every injectivity argument: an encoding of width
`w` is injective below `256 ^ w`, and equal concatenations whose first parts have equal lengths
agree part by part.
-/

namespace Packed

/-- The `w` big-endian bytes of `n`; higher digits are dropped. -/
def bytesBE : ℕ → ℕ → List UInt8
  | 0, _ => []
  | w + 1, n => bytesBE w (n / 256) ++ [UInt8.ofNat (n % 256)]

@[simp] lemma length_bytesBE (w n : ℕ) : (bytesBE w n).length = w := by
  induction w generalizing n with
  | zero => rfl
  | succ w ih => simp [bytesBE, ih]

private lemma ofNat_mod_inj {m n : ℕ} (h : UInt8.ofNat (m % 256) = UInt8.ofNat (n % 256)) :
    m % 256 = n % 256 := by
  have h' := congrArg UInt8.toNat h
  simpa using h'

/-- A width-`w` encoding is injective below `256 ^ w`. -/
lemma bytesBE_inj {w m n : ℕ} (hm : m < 256 ^ w) (hn : n < 256 ^ w)
    (h : bytesBE w m = bytesBE w n) : m = n := by
  induction w generalizing m n with
  | zero =>
      simp only [pow_zero, Nat.lt_one_iff] at hm hn
      rw [hm, hn]
  | succ w ih =>
      simp only [bytesBE] at h
      obtain ⟨hhigh, hlow⟩ := List.append_inj' h rfl
      have hdiv : m / 256 = n / 256 := by
        refine ih ?_ ?_ hhigh
        · exact Nat.div_lt_of_lt_mul (by rw [mul_comm, ← pow_succ]; exact hm)
        · exact Nat.div_lt_of_lt_mul (by rw [mul_comm, ← pow_succ]; exact hn)
      have hmod : m % 256 = n % 256 := ofNat_mod_inj (List.cons.inj hlow).1
      omega

/-- The big-endian bytes of a bit vector of `8 * w` bits. -/
def ofBitVec (w : ℕ) (x : BitVec (8 * w)) : List UInt8 := bytesBE w x.toNat

@[simp] lemma length_ofBitVec (w : ℕ) (x : BitVec (8 * w)) : (ofBitVec w x).length = w :=
  length_bytesBE w _

lemma ofBitVec_injective (w : ℕ) : Function.Injective (ofBitVec w) := by
  intro x y h
  have hpow : (2 : ℕ) ^ (8 * w) = 256 ^ w := by rw [pow_mul]; norm_num
  have hx : x.toNat < 256 ^ w := hpow ▸ x.isLt
  have hy : y.toNat < 256 ^ w := hpow ▸ y.isLt
  exact BitVec.eq_of_toNat_eq (bytesBE_inj hx hy h)

/-- The bytes of a text written in ASCII. -/
def ascii (s : String) : List UInt8 := s.toList.map fun c => UInt8.ofNat c.toNat

/-- The value of a lower-case hexadecimal digit. -/
def hexDigit (c : Char) : ℕ := if c.isDigit then c.toNat - 48 else c.toNat - 87

def pairsToBytes : List Char → List UInt8
  | high :: low :: rest => UInt8.ofNat (16 * hexDigit high + hexDigit low) :: pairsToBytes rest
  | _ => []

/-- The bytes a hexadecimal literal stands for. -/
def hex (s : String) : List UInt8 := pairsToBytes s.toList

end Packed
