import NbteBridge.Node.Reference

/-!
# The fees of a deposit

The node computes with decimals of 80 significant digits.  An amount of runes has 39 digits at most
and a percentage of thirty decimal places 33, so no result on the way to the net amount needs more
than 71, and none is rounded: the net amount is the exact one, rounded down once at the end.
-/

namespace NbteBridge

open Decimals RuneBridgeService

/-- A percentage of at most thirty decimal places. -/
def IsFeePercentage (p : ℚ) : Prop := 0 ≤ p ∧ p ≤ 100 ∧ ∃ m : ℤ, p = m / 10 ^ 30

/-- None of the operations rounds. -/
structure NeverRounds (amountRaw : ℤ) (divisibility : ℕ) (p : ℚ) : Prop where
  amount : div decimalPrec amountRaw (10 ^ divisibility) = amountRaw / 10 ^ divisibility
  product : mul decimalPrec (amountRaw / 10 ^ divisibility) p = amountRaw / 10 ^ divisibility * p
  fee : div decimalPrec (amountRaw / 10 ^ divisibility * p) 100 =
    amountRaw / 10 ^ divisibility * p / 100
  net : sub decimalPrec (amountRaw / 10 ^ divisibility)
      (amountRaw / 10 ^ divisibility * p / 100) =
    amountRaw / 10 ^ divisibility - amountRaw / 10 ^ divisibility * p / 100
  back : mul decimalPrec
      (amountRaw / 10 ^ divisibility - amountRaw / 10 ^ divisibility * p / 100)
      (10 ^ divisibility) =
    (amountRaw / 10 ^ divisibility - amountRaw / 10 ^ divisibility * p / 100) * 10 ^ divisibility

/-- The net amount of a deposit. -/
def netOf (p : ℚ) (amountRaw : ℤ) : ℤ := ⌊amountRaw * (100 - p) / 100⌋

section Fees

variable {amountRaw : ℤ} {p : ℚ}

/-- A number with a small numerator and a power of ten below it. -/
lemma representable_of_eq {q : ℚ} {n : ℤ} {k : ℕ} (hq : q = n / 10 ^ k)
    (hn : |n| < 10 ^ decimalPrec) : Representable decimalPrec q := by
  refine ⟨n, -k, hn, ?_⟩
  rw [hq, zpow_neg, zpow_natCast, div_eq_mul_inv]

/-- **No rounding.** -/
lemma neverRounds (h : 0 ≤ amountRaw) (hlt : amountRaw < 2 ^ 128) (hp : IsFeePercentage p)
    (divisibility : ℕ) : NeverRounds amountRaw divisibility p := by
  obtain ⟨hlow, hhigh, m, rfl⟩ := hp
  have hm : 0 ≤ m ∧ m ≤ 10 ^ 32 := by
    have hpow : (0 : ℚ) < 10 ^ 30 := by positivity
    rw [le_div_iff₀ hpow, zero_mul] at hlow
    rw [div_le_iff₀ hpow] at hhigh
    constructor
    · exact_mod_cast hlow
    · have hle : (m : ℚ) ≤ (10 ^ 32 : ℤ) := hhigh.trans_eq (by norm_num)
      exact_mod_cast hle
  -- each result is a product of the amount over a power of ten
  have hsmall (n : ℤ) (hn : 0 ≤ n) (hn' : n ≤ 10 ^ 32) : |amountRaw * n| < 10 ^ decimalPrec := by
    rw [abs_of_nonneg (mul_nonneg h hn)]
    calc amountRaw * n ≤ 2 ^ 128 * 10 ^ 32 := mul_le_mul hlt.le hn' hn (by norm_num)
      _ < 10 ^ decimalPrec := by norm_num [decimalPrec]
  have hten : (10 : ℚ) ^ divisibility ≠ 0 := by positivity
  refine ⟨?_, ?_, ?_, ?_, ?_⟩
  · apply div_of_representable
    exact representable_of_eq (n := amountRaw) (k := divisibility) rfl (by
      rw [← mul_one amountRaw]
      exact hsmall 1 (by norm_num) (by norm_num))
  · apply mul_of_representable
    refine representable_of_eq (n := amountRaw * m) (k := divisibility + 30) ?_ (hsmall m hm.1 hm.2)
    push_cast
    rw [pow_add]
    field_simp
  · apply div_of_representable
    refine representable_of_eq (n := amountRaw * m) (k := divisibility + 32) ?_ (hsmall m hm.1 hm.2)
    push_cast
    rw [pow_add]
    field_simp
    norm_num
  · apply sub_of_representable
    refine representable_of_eq (n := amountRaw * (10 ^ 32 - m)) (k := divisibility + 32) ?_
      (hsmall _ (by omega) (by omega))
    push_cast
    rw [pow_add]
    field_simp
    ring
  · apply mul_of_representable
    refine representable_of_eq (n := amountRaw * (10 ^ 32 - m)) (k := 32) ?_
      (hsmall _ (by omega) (by omega))
    push_cast
    field_simp
    ring

lemma netOf_nonneg (h : 0 ≤ amountRaw) (hp : IsFeePercentage p) : 0 ≤ netOf p amountRaw := by
  have hle : (0 : ℚ) ≤ amountRaw := by exact_mod_cast h
  have hrest : 0 ≤ 100 - p := sub_nonneg.2 hp.2.1
  exact Int.floor_nonneg.2 (by positivity)

lemma netOf_le (h : 0 ≤ amountRaw) (hp : IsFeePercentage p) : netOf p amountRaw ≤ amountRaw := by
  have hle : (0 : ℚ) ≤ amountRaw := by exact_mod_cast h
  have hquot : (amountRaw : ℚ) * (100 - p) / 100 ≤ amountRaw := by
    rw [div_le_iff₀ (by norm_num)]
    exact mul_le_mul_of_nonneg_left (sub_le_self _ hp.1) hle
  have hfloor := Int.floor_le_floor hquot
  rwa [Int.floor_intCast] at hfloor

lemma netOf_mono (hp : IsFeePercentage p) {amountRaw' : ℤ} (hle : amountRaw ≤ amountRaw') :
    netOf p amountRaw ≤ netOf p amountRaw' := by
  have hle : (amountRaw : ℚ) ≤ amountRaw' := by exact_mod_cast hle
  have hrest : 0 ≤ 100 - p := sub_nonneg.2 hp.2.1
  apply Int.floor_le_floor
  gcongr

/-- The amounts as computed. -/
lemma netAmountRaw_eq {Hash : Type} {service : RuneBridgeService Hash} (h : 0 ≤ amountRaw)
    (hlt : amountRaw < 2 ^ 128) (hp : IsFeePercentage service.config.runesToEvmFeePercentageDecimal)
    (divisibility : ℕ) :
    (service.calculateRuneToEvmTransferAmounts amountRaw divisibility).netAmountRaw =
      netOf service.config.runesToEvmFeePercentageDecimal amountRaw := by
  have hnever := neverRounds h hlt hp divisibility
  have hten : (10 : ℚ) ^ divisibility ≠ 0 := by positivity
  have hback : ((amountRaw : ℚ) / 10 ^ divisibility - amountRaw / 10 ^ divisibility *
      service.config.runesToEvmFeePercentageDecimal / 100) * 10 ^ divisibility =
        amountRaw * (100 - service.config.runesToEvmFeePercentageDecimal) / 100 := by
    field_simp
  have hle : (0 : ℚ) ≤ amountRaw := by exact_mod_cast h
  have hrest : 0 ≤ 100 - service.config.runesToEvmFeePercentageDecimal := sub_nonneg.2 hp.2.1
  simp only [calculateRuneToEvmTransferAmounts, hnever.amount, hnever.product, hnever.fee,
    hnever.net, hnever.back, hback]
  exact truncate_of_nonneg (by positivity)

end Fees

/-- **Deposit fees are exact.**  No result on the way is rounded; the net amount is the exact one
rounded down, it and the fee are not negative and add up, they do not depend on the divisibility,
and a larger amount nets no less.  Services with the same percentage agree. -/
theorem deposit_fees_exact {Hash : Type} {service : RuneBridgeService Hash} {p : ℚ}
    (hservice : service.config.runesToEvmFeePercentageDecimal = p) (hp : IsFeePercentage p)
    {amountRaw : ℤ} (h : 0 ≤ amountRaw) (hlt : amountRaw < 2 ^ 128) (divisibility : ℕ) :
    NeverRounds amountRaw divisibility p ∧
    (service.calculateRuneToEvmTransferAmounts amountRaw divisibility).netAmountRaw =
      ⌊amountRaw * (100 - p) / 100⌋ ∧
    (service.calculateRuneToEvmTransferAmounts amountRaw divisibility).feeRaw +
      (service.calculateRuneToEvmTransferAmounts amountRaw divisibility).netAmountRaw =
        amountRaw ∧
    0 ≤ (service.calculateRuneToEvmTransferAmounts amountRaw divisibility).netAmountRaw ∧
    0 ≤ (service.calculateRuneToEvmTransferAmounts amountRaw divisibility).feeRaw ∧
    (∀ amountRaw' divisibility', amountRaw ≤ amountRaw' → amountRaw' < 2 ^ 128 →
      (service.calculateRuneToEvmTransferAmounts amountRaw divisibility).netAmountRaw ≤
        (service.calculateRuneToEvmTransferAmounts amountRaw' divisibility').netAmountRaw) ∧
    ∀ (service' : RuneBridgeService Hash) divisibility',
      service'.config.runesToEvmFeePercentageDecimal = p →
      (service'.calculateRuneToEvmTransferAmounts amountRaw divisibility').netAmountRaw =
          (service.calculateRuneToEvmTransferAmounts amountRaw divisibility).netAmountRaw ∧
        (service'.calculateRuneToEvmTransferAmounts amountRaw divisibility').feeRaw =
          (service.calculateRuneToEvmTransferAmounts amountRaw divisibility).feeRaw := by
  subst hservice
  have hnet := netAmountRaw_eq h hlt hp divisibility
  have hfee : (service.calculateRuneToEvmTransferAmounts amountRaw divisibility).feeRaw =
      amountRaw - netOf service.config.runesToEvmFeePercentageDecimal amountRaw := by
    rw [← hnet]
    rfl
  refine ⟨neverRounds h hlt hp divisibility, hnet, ?_, ?_, ?_, ?_, ?_⟩
  · rw [hfee, hnet]
    ring
  · rw [hnet]
    exact netOf_nonneg h hp
  · rw [hfee]
    exact sub_nonneg.2 (netOf_le h hp)
  · intro amountRaw' divisibility' hle hlt'
    rw [hnet, netAmountRaw_eq (h.trans hle) hlt' hp]
    exact netOf_mono hp hle
  · intro service' divisibility' hservice'
    have hnet' := @netAmountRaw_eq _ _ service' h hlt (hservice' ▸ hp) divisibility'
    rw [hservice'] at hnet'
    refine ⟨hnet'.trans hnet.symm, ?_⟩
    rw [hfee, ← hnet']
    rfl

/-- The largest amount there is, of a rune of 38 decimals, at 25 percent. -/
theorem deposit_fees_exact_example :
    ((ExampleNode.service '4' []).calculateRuneToEvmTransferAmounts (2 ^ 128 - 1) 38).netAmountRaw =
      ⌊((2 ^ 128 - 1 : ℤ) : ℚ) * (100 - 25) / 100⌋ := by
  have hp : IsFeePercentage 25 := ⟨by norm_num, by norm_num, 25 * 10 ^ 30, by norm_num⟩
  exact (@deposit_fees_exact _ (ExampleNode.service '4' []) 25 rfl hp _ (by norm_num) (by norm_num)
    38).2.1

end NbteBridge
