import NbteBridge.Contracts.Accounts
import NbteBridge.Contracts.Reference

/-!
# The fees of a transfer to Bitcoin

How `transferToBtc` splits the tokens it takes.  The fee of the policy is rounded down, what is left
is rounded down to whole runes, and the part of a rune that is cut off goes to the fee: so the fee
kept exceeds the policy's by less than the value of one rune, and everything else is burned.  As a
policy takes less than everything, a larger amount leaves no less.
-/

namespace NbteBridge

open Checked

/-- The fee of a policy for an amount of tokens, the dynamic part rounded down. -/
def EvmToBtcTransferPolicy.fee (policy : EvmToBtcTransferPolicy) (tokenAmount : ℕ) : ℕ :=
  policy.flatFeeTokens.toNat + tokenAmount * policy.dynamicFeeTokens.toNat / 10000

section Transfer

variable {T R : Type} [Erc20 T] [AccessControlEnumerable R]

/-- What a transfer to Bitcoin did, which of the tokens it took it burned and which it kept. -/
structure TransferredToBtc (w w' : World T R) (m : Msg) (tokenAddress : Address)
    (tokenAmount : Uint256) (receiver : Bytes) (token token' : RuneToken T)
    (policy : EvmToBtcTransferPolicy) (net tokenFee : Uint256) : Prop where
  before : w.tokens tokenAddress = some token
  after : w'.tokens tokenAddress = some token'
  divisor : token'.runeAmountDivisor = token.runeAmountDivisor
  stored : w.bridge.getEvmToBtcTransferPolicy tokenAddress = .ok policy
  /-- What is emitted. -/
  logs : ∃ burned counter rune, burned.toNat = net.toNat * token.runeAmountDivisor.toNat ∧
    w'.logs = w.logs ++ [.burn tokenAddress w.self burned,
      .runeTransferToBtc counter m.sender tokenAddress rune tokenAmount net receiver
        policy.flatFeeBaseCurrency tokenFee]
  net_pos : 1 ≤ net.toNat
  burned : token'.totalSupply + net.toNat * token.runeAmountDivisor.toNat = token.totalSupply
  kept : token'.balanceOf w.self = token.balanceOf w.self + tokenFee.toNat
  taken : token'.balanceOf m.sender + tokenAmount.toNat = token.balanceOf m.sender
  split : tokenFee.toNat + net.toNat * token.runeAmountDivisor.toNat = tokenAmount.toNat
  fee_le : policy.fee tokenAmount.toNat ≤ tokenFee.toNat
  fee_lt : tokenFee.toNat < policy.fee tokenAmount.toNat + token.runeAmountDivisor.toNat

/-! ## The amounts -/

omit [Erc20 T] in
/-- The fee kept is that of the policy, and less than a rune more. -/
lemma transferAmounts_fee {token : RuneToken T} {policy : EvmToBtcTransferPolicy}
    {tokenAmount net netTokens tokenFee : Uint256}
    (h : World.transferAmounts token policy tokenAmount = .ok (net, netTokens, tokenFee)) :
    policy.fee tokenAmount.toNat ≤ tokenFee.toNat ∧
      tokenFee.toNat < policy.fee tokenAmount.toNat + token.runeAmountDivisor.toNat := by
  have hdivisor : DYNAMIC_FEE_DIVISOR.toNat = 10000 := by decide
  simp only [World.transferAmounts, bind_eq_ok, exists_unit, require_eq_ok, pure_eq_ok,
    RuneToken.getRuneAmount, RuneToken.getTokenAmount, Uint256.mul_eq_ok, Uint256.add_eq_ok,
    Uint256.sub_eq_ok, Uint256.div_eq_ok, Prod.mk.injEq] at h
  obtain ⟨product, hproduct, dynamicFee, ⟨-, hdynamic⟩, fee, hfee, -, remaining, hremaining, _,
    ⟨hd, hnet⟩, -, _, hnetTokens, _, hkept, rfl, rfl, rfl⟩ := h
  have hpos : 0 < token.runeAmountDivisor.toNat := by
    apply Nat.pos_of_ne_zero
    intro hzero
    exact hd (BitVec.eq_of_toNat_eq hzero)
  have hpolicy : fee.toNat = policy.fee tokenAmount.toNat := by
    rw [hfee, hdynamic, hproduct, hdivisor, EvmToBtcTransferPolicy.fee]
  -- what is cut off is the remainder of the division
  have hdiv := Nat.div_add_mod remaining.toNat token.runeAmountDivisor.toNat
  have hmod := Nat.mod_lt remaining.toNat hpos
  rw [← hnet, mul_comm] at hdiv
  omega

variable [LawfulErc20 T] [LawfulErc20Accounts T] {Hash Sig : Type} {C : Crypto Hash Sig}
  {w w' : World T R} {m : Msg} {tokenAddress : Address} {tokenAmount : Uint256} {receiver : Bytes}

/-- **One transfer.** -/
lemma transferredToBtc_of_step (hw : w.WellAccounted)
    (h : w.Step C (m, .transferToBtc tokenAddress tokenAmount receiver) w') :
    ∃ token token' policy net tokenFee, TransferredToBtc w w' m tokenAddress tokenAmount receiver
      token token' policy net tokenFee := by
  simp only [World.Step, World.step, bind_eq_ok, exists_unit, require_eq_ok] at h
  obtain ⟨hsender, -, h⟩ := h
  simp only [World.transferToBtc, bind_eq_ok, exists_unit, require_eq_ok, pure_eq_ok,
    World.token_eq_ok, Prod.exists] at h
  obtain ⟨-, -, rune, -, token, htoken, -, -, -, -, -, policy, hpolicy, -, -, -, net, netTokens,
    tokenFee, hamounts, moved, hmove, token', hburn, counter, -, rfl⟩ := h
  obtain ⟨hpos, hnet, hsplit⟩ := World.transferAmounts_ok hamounts
  obtain ⟨hfeeLe, hfeeLt⟩ := transferAmounts_fee hamounts
  obtain ⟨hterms₁, hsupply₁⟩ := RuneToken.call_ok hmove
  obtain ⟨hterms₂, hsupply₂⟩ := RuneToken.burn_ok hburn
  -- the tokens go to the bridge, and some of them out of the world
  simp only [RuneToken.call, bind_eq_ok, pure_eq_ok] at hmove
  obtain ⟨erc20, hcall, rfl⟩ := hmove
  have hmoved := LawfulErc20Accounts.balanceOf_move _ _ _ _ _ _ _ (hw.accounted _ _ htoken) hcall
    rfl
  simp only [RuneToken.burn, bind_eq_ok, pure_eq_ok] at hburn
  obtain ⟨erc20', hburn, rfl⟩ := hburn
  have hdebit := LawfulErc20Accounts.balanceOf_burn _ _ _ _ hburn
  have hself := hmoved w.self
  have hsenderMoved := hmoved m.sender
  have hselfDebit := hdebit w.self
  have hsenderDebit := hdebit m.sender
  rw [if_neg (Ne.symm hsender), if_pos rfl] at hself
  rw [if_pos rfl, if_neg hsender] at hsenderMoved
  rw [if_pos rfl] at hselfDebit
  rw [if_neg hsender] at hsenderDebit
  refine ⟨token, _, policy, net, tokenFee, htoken, Function.update_self .., rfl, hpolicy,
    ⟨netTokens, counter, rune, hnet, rfl⟩, hpos, ?_, ?_, ?_, ?_, hfeeLe, hfeeLt⟩
  · rw [← hnet, hsupply₂, hsupply₁]
  · change (Erc20.balanceOf erc20' w.self).toNat = (Erc20.balanceOf token.erc20 w.self).toNat + _
    omega
  · change (Erc20.balanceOf erc20' m.sender).toNat + _ =
      (Erc20.balanceOf token.erc20 m.sender).toNat
    omega
  · rw [← hnet]
    exact hsplit

/-! ## Larger amounts -/

lemma div_le_div_add {a b p k : ℕ} (hab : a ≤ b) (hp : p ≤ k) (hk : 0 < k) :
    b * p / k ≤ a * p / k + (b - a) := by
  have hle : b * p ≤ a * p + (b - a) * k := by
    have hmul : (b - a) * p ≤ (b - a) * k := Nat.mul_le_mul_left _ hp
    have hsplit : b * p = a * p + (b - a) * p := by
      rw [← Nat.add_mul, Nat.add_sub_cancel' hab]
    omega
  calc b * p / k ≤ (a * p + (b - a) * k) / k := Nat.div_le_div_right hle
    _ = a * p / k + (b - a) := Nat.add_mul_div_right _ _ hk

/-- A larger amount leaves no less after the fee. -/
lemma EvmToBtcTransferPolicy.sub_fee_mono {policy : EvmToBtcTransferPolicy}
    (hpolicy : policy.dynamicFeeTokens < DYNAMIC_FEE_DIVISOR) {a b : ℕ} (hab : a ≤ b) :
    a + policy.fee b ≤ b + policy.fee a := by
  have hlt : policy.dynamicFeeTokens.toNat < 10000 := hpolicy
  have hle := div_le_div_add hab hlt.le (by omega)
  rw [EvmToBtcTransferPolicy.fee, EvmToBtcTransferPolicy.fee]
  omega

omit [AccessControlEnumerable R] [LawfulErc20 T] [LawfulErc20Accounts T] in
/-- The policy of a transfer is a stored one. -/
lemma World.WellAccounted.dynamicFee_lt (hw : w.WellAccounted) {policy : EvmToBtcTransferPolicy}
    (h : w.bridge.getEvmToBtcTransferPolicy tokenAddress = .ok policy) :
    policy.dynamicFeeTokens < DYNAMIC_FEE_DIVISOR := by
  simp only [RuneBridge.getEvmToBtcTransferPolicy, bind_eq_ok, exists_unit, pure_eq_ok] at h
  obtain ⟨-, rfl⟩ := h
  split
  · exact hw.policies 0
  · exact hw.policies tokenAddress

omit [AccessControlEnumerable R] [LawfulErc20 T] [LawfulErc20Accounts T] in
/-- The net amount is what is left after the fee, in whole runes. -/
lemma TransferredToBtc.net_eq {token token' : RuneToken T} {policy : EvmToBtcTransferPolicy}
    {net tokenFee : Uint256} (h : TransferredToBtc w w' m tokenAddress tokenAmount receiver token
      token' policy net tokenFee) :
    net.toNat = (tokenAmount.toNat - policy.fee tokenAmount.toNat) /
      token.runeAmountDivisor.toNat := by
  have hsplit := h.split
  have hle := h.fee_le
  have hlt := h.fee_lt
  symm
  apply Nat.div_eq_of_lt_le
  · omega
  · rw [Nat.add_mul, Nat.one_mul]
    omega

end Transfer

/-- **The fees of a transfer.**  In every reachable state a transfer to Bitcoin burns the value of
its net amount, which is not zero, keeps the rest as the fee it emits, and that is the policy's
fee and less than a rune more; under one policy a larger amount nets no less; and a token's
conversions are inverse where the product fits. -/
theorem transfer_to_btc_fees {T R Hash Sig : Type} [Erc20 T] [AccessControlEnumerable R]
    [LawfulErc20 T] [LawfulErc20Accounts T] {C : Crypto Hash Sig} {tr : List (Msg × Call Sig)}
    {w : World T R} (hrun : ContractRun C tr w) :
    (∀ w' m tokenAddress tokenAmount receiver,
      w.Step C (m, .transferToBtc tokenAddress tokenAmount receiver) w' →
      ∃ token token' policy net tokenFee, TransferredToBtc w w' m tokenAddress tokenAmount
        receiver token token' policy net tokenFee) ∧
    (∀ tr₂ (w₂ w' w₂' : World T R) m m₂ tokenAddress tokenAddress₂ tokenAmount tokenAmount₂ receiver
        receiver₂ token token₂ token' token₂' policy net net₂ tokenFee tokenFee₂,
      ContractRun C tr₂ w₂ →
      TransferredToBtc w w' m tokenAddress tokenAmount receiver token token' policy net tokenFee →
      TransferredToBtc w₂ w₂' m₂ tokenAddress₂ tokenAmount₂ receiver₂ token₂ token₂' policy net₂
        tokenFee₂ →
      token₂.runeAmountDivisor = token.runeAmountDivisor → tokenAmount ≤ tokenAmount₂ →
        net ≤ net₂) ∧
    ∀ address token (runeAmount tokenAmount : Uint256), w.tokens address = some token →
      token.getTokenAmount runeAmount = .ok tokenAmount →
        token.getRuneAmount tokenAmount = .ok runeAmount := by
  have hw := World.wellAccounted_of_run hrun
  refine ⟨fun w' m tokenAddress tokenAmount receiver hstep => transferredToBtc_of_step hw hstep,
    ?_, ?_⟩
  · intro tr₂ w₂ w' w₂' m m₂ tokenAddress tokenAddress₂ tokenAmount tokenAmount₂ receiver receiver₂
      token token₂ token' token₂' policy net net₂ tokenFee tokenFee₂ _ h h₂ hdivisor hle
    have hmono := EvmToBtcTransferPolicy.sub_fee_mono (hw.dynamicFee_lt h.stored)
      (show tokenAmount.toNat ≤ tokenAmount₂.toNat from hle)
    change net.toNat ≤ net₂.toNat
    rw [h.net_eq, h₂.net_eq, hdivisor]
    apply Nat.div_le_div_right
    omega
  · intro address token runeAmount tokenAmount htoken hamount
    have hpos := ((World.wellRegistered_of_run hrun).deployed _ _ htoken).divisor_pos
    have hproduct := Uint256.mul_eq_ok.1 hamount
    apply Uint256.div_eq_ok.2
    constructor
    · intro hzero
      rw [hzero] at hpos
      exact absurd hpos (by simp)
    · rw [hproduct, Nat.mul_div_cancel _ hpos]

/-- The transfer of `Deployment`: of 60000 tokens, 240 are the fee of the policy, and as a rune is
worth 100 tokens, 60 more are kept. -/
theorem transfer_to_btc_fees_deployment :
    ∃ (w w' : World Balances RoleLists) (token token' : RuneToken Balances)
      (policy : EvmToBtcTransferPolicy) (net tokenFee : Uint256),
      TransferredToBtc w w' ⟨5, 300000000000000⟩ 10 60000 (Packed.ascii "bc1q") token token' policy
        net tokenFee := by
  obtain ⟨w, hrun, hok⟩ := Deployment.run_of_eval (Deployment.calls.take 3)
    (fun w => (w.step symbolicCrypto ⟨5, 300000000000000⟩
      (.transferToBtc 10 60000 (Packed.ascii "bc1q"))).isOk) true (by decide +kernel)
  obtain ⟨w', hstep⟩ := exists_ok_of_isOk hok
  obtain ⟨token, token', policy, net, tokenFee, h⟩ :=
    (transfer_to_btc_fees hrun).1 w' _ _ _ _ hstep
  exact ⟨w, w', token, token', policy, net, tokenFee, h⟩

end NbteBridge
