import NbteBridge.Foundations.Decimal

/-!
# Double precision

The arithmetic of double-precision numbers: every operation returns the exact result rounded to 53
binary digits, ties to even.  A number is its value; limits on the exponent are left out.  Beside
the numbers a `Double` may be an infinity or NaN, with which no comparison holds.
-/

namespace Binary64

open Decimals

/-- The nearest number with 53 binary digits. -/
def round (q : ℚ) : ℚ :=
  if q = 0 then 0
  else
    let e := Int.log 2 |q| - 52
    roundHalfEven (q / 2 ^ e) * 2 ^ e

/-- An integer as an operand. -/
def ofInt (n : ℤ) : ℚ := round n

def mul (a b : ℚ) : ℚ := round (a * b)

def div (a b : ℚ) : ℚ := round (a / b)

/-! ## Doubles -/

/-- A double: a number, an infinity, or none of them. -/
inductive Double
  | finite (q : ℚ)
  | infinite (negative : Bool)
  | nan
  deriving DecidableEq

namespace Double

/-- Less than an integer.  No comparison with NaN holds. -/
def lt : Double → ℤ → Bool
  | finite q, n => decide (q < n)
  | infinite negative, _ => negative
  | nan, _ => false

/-- Greater than an integer. -/
def gt : Double → ℤ → Bool
  | finite q, n => decide ((n : ℚ) < q)
  | infinite negative, _ => !negative
  | nan, _ => false

/-- At most an integer. -/
def le : Double → ℤ → Bool
  | finite q, n => decide (q ≤ n)
  | infinite negative, _ => negative
  | nan, _ => false

/-- An operation with a positive operand, which leaves infinities and NaN as they are. -/
def map (f : ℚ → ℚ) : Double → Double
  | finite q => finite (f q)
  | infinite negative => infinite negative
  | nan => nan

@[simp] lemma lt_finite (q : ℚ) (n : ℤ) : (finite q).lt n = decide (q < n) := rfl
@[simp] lemma gt_finite (q : ℚ) (n : ℤ) : (finite q).gt n = decide ((n : ℚ) < q) := rfl
@[simp] lemma le_finite (q : ℚ) (n : ℤ) : (finite q).le n = decide (q ≤ n) := rfl
@[simp] lemma map_finite (f : ℚ → ℚ) (q : ℚ) : (finite q).map f = finite (f q) := rfl

/-- Between two integers lie only numbers, and NaN. -/
lemma finite_or_nan {x : Double} {a b : ℤ} (hlow : x.lt a = false) (hhigh : x.gt b = false) :
    (∃ q : ℚ, x = finite q ∧ a ≤ q ∧ q ≤ b) ∨ x = nan := by
  match x, hlow, hhigh with
  | finite q, hlow, hhigh => exact .inl ⟨q, rfl, by simpa using hlow, by simpa using hhigh⟩
  | infinite true, hlow, _ => cases hlow
  | infinite false, _, hhigh => cases hhigh
  | nan, _, _ => exact .inr rfl

end Double

/-! ## The error of rounding -/

lemma abs_roundHalfEven_sub_le (q : ℚ) : |(roundHalfEven q : ℚ) - q| ≤ 1 / 2 := by
  have hfloor := Int.floor_le q
  have hlt := Int.lt_floor_add_one q
  unfold roundHalfEven
  rw [abs_le]
  split
  · constructor <;> linarith
  · split
    · push_cast
      constructor <;> linarith
    · split
      · constructor <;> linarith
      · push_cast
        constructor <;> linarith

/-- The relative error is at most half a unit in the last place. -/
theorem abs_round_sub_le (q : ℚ) : |round q - q| ≤ |q| / 2 ^ 53 := by
  unfold round
  by_cases hq : q = 0
  · simp [hq]
  · rw [if_neg hq]
    have hpos : 0 < |q| := abs_pos.2 hq
    have hunit : (0 : ℚ) < 2 ^ (Int.log 2 |q| - 52) := by positivity
    have hlog : (2 : ℚ) ^ (Int.log 2 |q| - 52) * 2 ^ (52 : ℤ) ≤ |q| := by
      rw [← zpow_add₀ (by norm_num), sub_add_cancel]
      exact Int.zpow_log_le_self (by norm_num) hpos
    have herror := abs_roundHalfEven_sub_le (q / 2 ^ (Int.log 2 |q| - 52))
    have hscaled : (roundHalfEven (q / 2 ^ (Int.log 2 |q| - 52)) : ℚ) *
        2 ^ (Int.log 2 |q| - 52) - q =
          (roundHalfEven (q / 2 ^ (Int.log 2 |q| - 52)) - q / 2 ^ (Int.log 2 |q| - 52)) *
            2 ^ (Int.log 2 |q| - 52) := by
      rw [sub_mul, div_mul_cancel₀ q hunit.ne']
    show |(roundHalfEven (q / 2 ^ (Int.log 2 |q| - 52)) : ℚ) * 2 ^ (Int.log 2 |q| - 52) - q| ≤ _
    rw [hscaled, abs_mul, abs_of_pos hunit]
    have hhalf : |(roundHalfEven (q / 2 ^ (Int.log 2 |q| - 52)) : ℚ) -
        q / 2 ^ (Int.log 2 |q| - 52)| * 2 ^ (Int.log 2 |q| - 52) ≤
          1 / 2 * 2 ^ (Int.log 2 |q| - 52) :=
      mul_le_mul_of_nonneg_right herror hunit.le
    rw [zpow_ofNat] at hlog
    linarith

/-- What the results about margins need: rounding changes a number by less than a thousandth. -/
lemma round_bounds {q : ℚ} (h : 0 ≤ q) : 999 / 1000 * q ≤ round q ∧ round q ≤ 1001 / 1000 * q := by
  have herror := abs_round_sub_le q
  rw [abs_of_nonneg h, abs_le] at herror
  constructor <;> linarith [herror.1, herror.2]

/-- Rounding up by one unit in the last place at most. -/
lemma round_le {q : ℚ} (h : 0 ≤ q) : 0 ≤ round q ∧ round q ≤ (1 + 1 / 2 ^ 53) * q := by
  have herror := abs_round_sub_le q
  rw [abs_of_nonneg h, abs_le] at herror
  constructor <;> linarith [herror.1, herror.2]

lemma round_nonpos {q : ℚ} (h : q ≤ 0) : round q ≤ 0 := by
  have herror := abs_round_sub_le q
  rw [abs_of_nonpos h, abs_le] at herror
  linarith [herror.2]

end Binary64
