import Mathlib.Tactic.Ring
import Mathlib.Data.Nat.Notation

/-!
# Bijective numeration

Numbers written with the `k` digits `0, …, k - 1` of which `d` counts for `d + 1`, so that each
number is written in exactly one way and zero without digits.  Digits stand in lists, the last one
of the number first.
-/

namespace BijectiveBase

variable {k : ℕ}

/-- The number that is written with these digits. -/
def value (k : ℕ) : List ℕ → ℕ
  | [] => 0
  | d :: ds => k * value k ds + (d + 1)

/-- The digits a number is written with. -/
def digits (k n : ℕ) : List ℕ :=
  if n = 0 then [] else (n - 1) % k :: digits k ((n - 1) / k)
termination_by n
decreasing_by
  have hle := Nat.div_le_self (n - 1) k
  omega

@[simp] lemma value_nil : value k [] = 0 := rfl

@[simp] lemma value_cons (d : ℕ) (ds : List ℕ) : value k (d :: ds) = k * value k ds + (d + 1) := rfl

@[simp] lemma digits_zero : digits k 0 = [] := by
  rw [digits, if_pos rfl]

lemma digits_of_ne_zero {n : ℕ} (h : n ≠ 0) :
    digits k n = (n - 1) % k :: digits k ((n - 1) / k) := by
  rw [digits, if_neg h]

lemma digits_lt (hk : 0 < k) (n : ℕ) : ∀ d ∈ digits k n, d < k := by
  induction n using digits.induct k with
  | case1 => simp
  | case2 n hn ih =>
      rw [digits_of_ne_zero hn]
      intro d hd
      rcases List.mem_cons.1 hd with rfl | hd
      · exact Nat.mod_lt _ hk
      · exact ih d hd

/-- **Every number is written.** -/
theorem value_digits (n : ℕ) : value k (digits k n) = n := by
  induction n using digits.induct k with
  | case1 => simp
  | case2 n hn ih =>
      have hdiv := Nat.div_add_mod (n - 1) k
      rw [digits_of_ne_zero hn, value_cons, ih]
      omega

/-- **And in one way.** -/
theorem digits_value {ds : List ℕ} (hds : ∀ d ∈ ds, d < k) : digits k (value k ds) = ds := by
  induction ds with
  | nil => simp
  | cons d ds ih =>
      have hd : d < k := hds d List.mem_cons_self
      have hne : value k (d :: ds) ≠ 0 := by
        rw [value_cons]
        omega
      have hpred : value k (d :: ds) - 1 = d + k * value k ds := by
        rw [value_cons]
        omega
      rw [digits_of_ne_zero hne, hpred, Nat.add_mul_mod_self_left, Nat.mod_eq_of_lt hd,
        Nat.add_mul_div_left d _ (by omega), Nat.div_eq_of_lt hd, Nat.zero_add,
        ih fun e he => hds e (List.mem_cons_of_mem _ he)]

lemma value_pos {ds : List ℕ} (h : ds ≠ []) : 0 < value k ds := by
  obtain ⟨d, ds, rfl⟩ := List.exists_cons_of_ne_nil h
  rw [value_cons]
  omega

/-- One more digit makes no smaller number. -/
lemma value_le_cons (hk : 0 < k) (d : ℕ) (ds : List ℕ) : value k ds ≤ value k (d :: ds) := by
  have hle : 1 * value k ds ≤ k * value k ds := Nat.mul_le_mul_right _ hk
  rw [value_cons]
  omega

lemma value_le_append (hk : 0 < k) (ds es : List ℕ) : value k es ≤ value k (ds ++ es) := by
  induction ds with
  | nil => exact le_rfl
  | cons d ds ih => exact ih.trans (value_le_cons hk d (ds ++ es))

/-- A number with many digits is large. -/
lemma pow_length_le_value (d : ℕ) (ds : List ℕ) : k ^ ds.length ≤ value k (d :: ds) := by
  induction ds generalizing d with
  | nil => simp
  | cons e ds ih =>
      calc k ^ (e :: ds).length = k * k ^ ds.length := by rw [List.length_cons, pow_succ, mul_comm]
        _ ≤ k * value k (e :: ds) := Nat.mul_le_mul_left k (ih e)
        _ ≤ value k (d :: e :: ds) := by rw [value_cons d (e :: ds)]; omega

lemma length_digits_le {n m : ℕ} (hk : 1 < k) (hn : n < k ^ m) : (digits k n).length ≤ m := by
  cases hdigits : digits k n with
  | nil => simp
  | cons d ds =>
      have hle := pow_length_le_value (k := k) d ds
      rw [← hdigits, value_digits] at hle
      have hlt := (Nat.pow_lt_pow_iff_right hk).1 (hle.trans_lt hn)
      rw [List.length_cons]
      omega

end BijectiveBase
