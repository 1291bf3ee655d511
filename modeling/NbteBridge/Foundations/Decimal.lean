import Mathlib

/-!
# Decimal arithmetic of bounded precision

The arithmetic of decimal numbers in which every operation returns the exact result rounded to a
number of significant digits, ties to even.  A number is its value: trailing zeros, which only
show in print, are left out, and so are limits on the exponent.
-/

namespace Decimals

/-- The nearest integer, the even one of two. -/
def roundHalfEven (q : ℚ) : ℤ :=
  if q - ⌊q⌋ < 1 / 2 then ⌊q⌋
  else if 1 / 2 < q - ⌊q⌋ then ⌊q⌋ + 1
  else if ⌊q⌋ % 2 = 0 then ⌊q⌋ else ⌊q⌋ + 1

/-- The nearest number with `prec` significant digits. -/
def roundTo (prec : ℕ) (q : ℚ) : ℚ :=
  if q = 0 then 0
  else
    let e := Int.log 10 |q| + 1 - prec
    roundHalfEven (q / 10 ^ e) * 10 ^ e

/-- `int(q)`: without the fraction. -/
def truncate (q : ℚ) : ℤ := if 0 ≤ q then ⌊q⌋ else ⌈q⌉

variable (prec : ℕ)

def mul (a b : ℚ) : ℚ := roundTo prec (a * b)

def div (a b : ℚ) : ℚ := roundTo prec (a / b)

def sub (a b : ℚ) : ℚ := roundTo prec (a - b)

/-! ## Exact results -/

/-- A number of at most `prec` significant digits. -/
def Representable (q : ℚ) : Prop := ∃ m k : ℤ, |m| < 10 ^ prec ∧ q = m * 10 ^ k

variable {prec}

lemma roundHalfEven_intCast (n : ℤ) : roundHalfEven n = n := by
  rw [roundHalfEven, Int.floor_intCast, sub_self, if_pos (by norm_num)]

/-- **Rounding keeps what it can represent.** -/
theorem roundTo_of_representable {q : ℚ} (h : Representable prec q) : roundTo prec q = q := by
  obtain ⟨m, k, hm, hq⟩ := h
  by_cases hzero : q = 0
  · rw [roundTo, if_pos hzero, hzero]
  · have hten : (0 : ℚ) < 10 := by norm_num
    -- the last digit kept is not before the last digit there is
    have hlt : |q| < ((10 : ℕ) : ℚ) ^ ((prec : ℤ) + k) := by
      have hm' : |(m : ℚ)| < 10 ^ prec := by exact_mod_cast hm
      rw [hq, abs_mul, abs_of_pos (zpow_pos hten k), Nat.cast_ofNat, zpow_add₀ hten.ne',
        zpow_natCast]
      exact mul_lt_mul_of_pos_right hm' (zpow_pos hten k)
    have hlog := (Int.lt_zpow_iff_log_lt (by norm_num) (abs_pos.2 hzero)).1 hlt
    obtain ⟨j, hj⟩ := Int.eq_ofNat_of_zero_le
      (show 0 ≤ k - (Int.log 10 |q| + 1 - prec) by omega)
    have hscaled : q / 10 ^ (Int.log 10 |q| + 1 - prec) = ((m * 10 ^ j : ℤ) : ℚ) := by
      rw [div_eq_iff (zpow_pos hten _).ne']
      push_cast
      rw [mul_assoc, ← zpow_natCast, ← zpow_add₀ hten.ne', ← hj, sub_add_cancel]
      exact hq
    rw [roundTo, if_neg hzero]
    simp only
    rw [hscaled, roundHalfEven_intCast, ← hscaled, div_mul_cancel₀ _ (zpow_pos hten _).ne']

lemma mul_of_representable {a b : ℚ} (h : Representable prec (a * b)) : mul prec a b = a * b :=
  roundTo_of_representable h

lemma div_of_representable {a b : ℚ} (h : Representable prec (a / b)) : div prec a b = a / b :=
  roundTo_of_representable h

lemma sub_of_representable {a b : ℚ} (h : Representable prec (a - b)) : sub prec a b = a - b :=
  roundTo_of_representable h

lemma truncate_of_nonneg {q : ℚ} (h : 0 ≤ q) : truncate q = ⌊q⌋ := if_pos h

lemma truncate_intCast (n : ℤ) : truncate (n : ℚ) = n := by
  rw [truncate, Int.floor_intCast, Int.ceil_intCast, ite_self]

/-- Truncation keeps the order. -/
lemma truncate_mono {q r : ℚ} (h : q ≤ r) : truncate q ≤ truncate r := by
  unfold truncate
  split_ifs with hq hr hr
  · exact Int.floor_le_floor h
  · exact absurd (hq.trans h) hr
  · exact (Int.ceil_le.2 (by simpa using (not_le.1 hq).le)).trans (Int.floor_nonneg.2 hr)
  · exact Int.ceil_le_ceil h

end Decimals
