import NbteBridge.Contracts.Registry

/-!
# The accounts of the tokens

What a call does to one token and to the stored transfer policies, whoever makes it: a token goes
through calls of its own functions or is newly deployed, and a policy that changes was checked
(`step_frame`).  From this, in every reachable state the balances of each token add up to its
supply, and every policy takes less than everything.
-/

namespace NbteBridge

open Checked

variable {T R : Type} [Erc20 T]

/-! ## One token -/

namespace RuneToken

/-- A successful call of one of the token's functions. -/
inductive Called (token token' : RuneToken T) : Prop
  | call {sender : Address} {c : Erc20Call} (h : token.call sender c = .ok token')
  | burn {sender : Address} {amount : Uint256} (h : token.burn sender amount = .ok token')
  | mintTo {sender to_ : Address} {amount : Uint256} (h : token.mintTo sender to_ amount = .ok token')
  | changeMinter {sender newMinter : Address} (h : token.changeMinter sender newMinter = .ok token')

/-- Any number of calls. -/
abbrev Calls : RuneToken T → RuneToken T → Prop := Relation.ReflTransGen Called

/-- The balances add up to the supply. -/
def Accounted (token : RuneToken T) : Prop := Erc20.Accounted token.erc20

section Laws

variable [LawfulErc20 T] [LawfulErc20Accounts T] {token token' : RuneToken T}

lemma accounted_construct (sender : Address) (name symbol : Bytes) (rune : Uint256)
    (divisibility : Uint8) :
    (construct (T := T) sender name symbol rune divisibility).Accounted := by
  change ∑ a, (Erc20.balanceOf (Erc20.construct name symbol : T) a).toNat =
    (Erc20.totalSupply (Erc20.construct name symbol : T)).toNat
  rw [LawfulErc20.totalSupply_construct]
  exact Finset.sum_eq_zero fun a _ => LawfulErc20Accounts.balanceOf_construct name symbol a

/-- Where one account counts, the sum over all is what it counts. -/
lemma sum_ite_account (a : Address) (n : ℕ) : ∑ b : Address, (if b = a then n else 0) = n := by
  rw [Finset.sum_ite_eq' Finset.univ a fun _ => n, if_pos (Finset.mem_univ a)]

lemma Accounted.burn (h : token.Accounted) {sender : Address} {amount : Uint256}
    (hburn : token.burn sender amount = .ok token') : token'.Accounted := by
  have hsupply := (burn_ok hburn).2
  simp only [RuneToken.burn, bind_eq_ok, pure_eq_ok] at hburn
  obtain ⟨erc20, hburn, rfl⟩ := hburn
  have hsum : ∑ a, ((Erc20.balanceOf erc20 a).toNat + if a = sender then amount.toNat else 0) =
      ∑ a, (Erc20.balanceOf token.erc20 a).toNat :=
    Finset.sum_congr rfl fun a _ => LawfulErc20Accounts.balanceOf_burn _ _ _ _ hburn a
  rw [Finset.sum_add_distrib, sum_ite_account] at hsum
  have hold : ∑ a, (Erc20.balanceOf token.erc20 a).toNat = token.totalSupply := h
  change ∑ a, (Erc20.balanceOf erc20 a).toNat = RuneToken.totalSupply { token with erc20 := erc20 }
  omega

omit [LawfulErc20Accounts T] in
lemma Accounted.mintTo (h : token.Accounted) {sender to_ : Address} {amount : Uint256}
    (hmint : token.mintTo sender to_ amount = .ok token') : token'.Accounted := by
  obtain ⟨-, -, hsupply, hbalance, hother⟩ := mintTo_ok hmint
  have hsum : ∑ a, token'.balanceOf a =
      ∑ a, (token.balanceOf a + if a = to_ then amount.toNat else 0) := by
    apply Finset.sum_congr rfl
    intro a _
    by_cases ha : a = to_
    · rw [ha, if_pos rfl, hbalance]
    · rw [if_neg ha, hother a ha, Nat.add_zero]
  rw [Finset.sum_add_distrib, sum_ite_account] at hsum
  have hold : ∑ a, token.balanceOf a = token.totalSupply := h
  change ∑ a, token'.balanceOf a = token'.totalSupply
  omega

lemma Accounted.call (h : token.Accounted) {sender : Address} {c : Erc20Call}
    (hcall : token.call sender c = .ok token') : token'.Accounted := by
  have hsupply := (call_ok hcall).2
  simp only [RuneToken.call, bind_eq_ok, pure_eq_ok] at hcall
  obtain ⟨erc20, hcall, rfl⟩ := hcall
  have hold : ∑ a, (Erc20.balanceOf token.erc20 a).toNat = token.totalSupply := h
  change ∑ a, (Erc20.balanceOf erc20 a).toNat = RuneToken.totalSupply { token with erc20 := erc20 }
  cases hmoves : c.moves sender with
  | none =>
      rw [LawfulErc20Accounts.balanceOf_call _ _ _ _ hcall hmoves, hsupply]
      exact hold
  | some move =>
      obtain ⟨from_, to_, amount⟩ := move
      have hmoved := LawfulErc20Accounts.balanceOf_move _ _ _ _ _ _ _ h hcall hmoves
      have hsum := Finset.sum_congr (rfl : (Finset.univ : Finset Address) = Finset.univ)
        fun a _ => hmoved a
      rw [Finset.sum_add_distrib, Finset.sum_add_distrib, sum_ite_account, sum_ite_account] at hsum
      omega

lemma Accounted.called (h : token.Accounted) (hcalled : token.Called token') :
    token'.Accounted := by
  cases hcalled with
  | call hcall => exact h.call hcall
  | burn hburn => exact h.burn hburn
  | mintTo hmint => exact h.mintTo hmint
  | changeMinter hchange =>
      simp only [changeMinter, bind_eq_ok, exists_unit, pure_eq_ok] at hchange
      obtain ⟨-, rfl⟩ := hchange
      exact h

lemma Accounted.calls (h : token.Accounted) (hcalls : token.Calls token') : token'.Accounted := by
  induction hcalls with
  | refl => exact h
  | tail _ hcalled ih => exact ih.called hcalled

end Laws

end RuneToken

/-! ## One call -/

namespace World

variable {w w' : World T R}

/-- Every token was there and went through calls, or is new; every policy is as it was, or was
checked. -/
structure Frame (w w' : World T R) : Prop where
  tokens : ∀ a token', w'.tokens a = some token' →
    (∃ token, w.tokens a = some token ∧ token.Calls token') ∨
      ∃ name symbol rune divisibility,
        token' = RuneToken.construct w.self name symbol rune divisibility
  policies : ∀ a, w'.bridge.evmToBtcTransferPoliciesByToken a =
      w.bridge.evmToBtcTransferPoliciesByToken a ∨
    (w'.bridge.evmToBtcTransferPoliciesByToken a).dynamicFeeTokens < DYNAMIC_FEE_DIVISOR

lemma Frame.of_eq (htokens : w'.tokens = w.tokens)
    (hpolicies : w'.bridge.evmToBtcTransferPoliciesByToken =
      w.bridge.evmToBtcTransferPoliciesByToken) : Frame w w' where
  tokens _ token' h := .inl ⟨token', htokens ▸ h, .refl⟩
  policies a := .inl (congrFun hpolicies a)

lemma Frame.of_calls {address : Address} {token token' : RuneToken T}
    (htoken : w.tokens address = some token) (hcalls : token.Calls token')
    (htokens : w'.tokens = Function.update w.tokens address (some token'))
    (hpolicies : w'.bridge.evmToBtcTransferPoliciesByToken =
      w.bridge.evmToBtcTransferPoliciesByToken) : Frame w w' where
  tokens a token'' h := by
    rw [htokens] at h
    by_cases ha : a = address
    · subst ha
      rw [Function.update_self, Option.some.injEq] at h
      exact .inl ⟨token, htoken, h ▸ hcalls⟩
    · rw [Function.update_of_ne ha] at h
      exact .inl ⟨token'', h, .refl⟩
  policies a := .inl (congrFun hpolicies a)

variable [AccessControlEnumerable R] {Hash Sig : Type} {C : Crypto Hash Sig}

omit [AccessControlEnumerable R] in
lemma doRegisterRune_frame {newToken : Address} {r : RuneRegistration}
    (h : w.doRegisterRune newToken r = .ok w') : Frame w w' := by
  simp only [doRegisterRune, bind_eq_ok, exists_unit, pure_eq_ok] at h
  obtain ⟨-, -, -, rfl⟩ := h
  refine ⟨fun a token' htoken => ?_, fun a => .inl rfl⟩
  change Function.update w.tokens newToken _ a = some token' at htoken
  by_cases ha : a = newToken
  · subst ha
    rw [Function.update_self, Option.some.injEq] at htoken
    exact .inr ⟨_, _, _, _, htoken.symm⟩
  · rw [Function.update_of_ne ha] at htoken
    exact .inl ⟨token', htoken, .refl⟩

omit [AccessControlEnumerable R] in
lemma doSetEvmToBtcTransferPolicy_frame {token : Address} {policy : EvmToBtcTransferPolicy}
    (h : w.doSetEvmToBtcTransferPolicy token policy = .ok w') : Frame w w' := by
  simp only [doSetEvmToBtcTransferPolicy, bind_eq_ok, exists_unit, require_eq_ok, pure_eq_ok] at h
  obtain ⟨-, hfee, -, -, rfl⟩ := h
  refine ⟨fun _ token' htoken => .inl ⟨token', htoken, .refl⟩, fun a => ?_⟩
  change Function.update w.bridge.evmToBtcTransferPoliciesByToken token policy a = _ ∨
    (Function.update w.bridge.evmToBtcTransferPoliciesByToken token policy a).dynamicFeeTokens < _
  by_cases ha : a = token
  · rw [ha, Function.update_self]
    exact .inr hfee
  · rw [Function.update_of_ne ha]
    exact .inl rfl

variable [LawfulErc20 T]

omit [LawfulErc20 T] in
/-- **What one call leaves alone.** -/
theorem step_frame {a : Msg × Call Sig} (h : Step C w a w') : Frame w w' := by
  obtain ⟨m, call⟩ := a
  simp only [Step, step, bind_eq_ok, exists_unit, require_eq_ok] at h
  obtain ⟨-, -, h⟩ := h
  cases call with
  | transferToBtc =>
      simp only [transferToBtc, bind_eq_ok, exists_unit, pure_eq_ok, token_eq_ok, Prod.exists] at h
      obtain ⟨-, -, rune, -, token, htoken, -, -, -, -, -, policy, -, -, -, -, netRune, netToken,
        fee, -, moved, hmove, burned, hburn, counter, -, rfl⟩ := h
      exact .of_calls htoken (.tail (.single (.call hmove)) (.burn hburn)) rfl rfl
  | requestRuneRegistration rune =>
      simp only [requestRuneRegistration, bind_eq_ok, exists_unit, pure_eq_ok] at h
      obtain ⟨-, -, -, -, -, -, rfl⟩ := h
      exact .of_eq rfl rfl
  | acceptTransferFromBtc =>
      simp only [acceptTransferFromBtc, bind_eq_ok, exists_unit, pure_eq_ok, token_eq_ok] at h
      obtain ⟨-, -, -, ac, -, -, address, -, -, token, htoken, amount, -, minted, hmint, counter,
        -, rfl⟩ := h
      exact .of_calls htoken (.single (.mintTo hmint)) rfl rfl
  | acceptRuneRegistrationRequest newToken r signatures =>
      simp only [acceptRuneRegistrationRequest, bind_eq_ok, exists_unit] at h
      obtain ⟨-, -, -, ac, -, -, h⟩ := h
      exact doRegisterRune_frame h
  | withdrawBaseCurrency amount receiver =>
      simp only [withdrawBaseCurrency, bind_eq_ok, exists_unit, pure_eq_ok] at h
      obtain ⟨-, -, -, -, rfl⟩ := h
      exact .of_eq rfl rfl
  | withdrawTokens =>
      simp only [withdrawTokens, bind_eq_ok, exists_unit] at h
      obtain ⟨-, -, h⟩ := h
      split at h
      · rename_i token htoken
        simp only [bind_eq_ok, pure_eq_ok] at h
        obtain ⟨token', hcall, rfl⟩ := h
        exact .of_calls htoken (.single (.call hcall)) rfl rfl
      · simp only [bind_eq_ok, exists_unit, pure_eq_ok] at h
        obtain ⟨-, rfl⟩ := h
        exact .of_eq rfl rfl
  | registerRune newToken r =>
      simp only [registerRune, bind_eq_ok, exists_unit] at h
      exact doRegisterRune_frame h.2
  | setEvmToBtcTransferPolicy token policy =>
      simp only [setEvmToBtcTransferPolicy, bind_eq_ok, exists_unit] at h
      exact doSetEvmToBtcTransferPolicy_frame h.2
  | setRuneRegistrationRequestsEnabled enabled =>
      simp only [setRuneRegistrationRequestsEnabled, bind_eq_ok, exists_unit, pure_eq_ok] at h
      obtain ⟨-, rfl⟩ := h
      exact .of_eq rfl rfl
  | setRuneRegistrationFee fee =>
      simp only [setRuneRegistrationFee, bind_eq_ok, exists_unit, pure_eq_ok] at h
      obtain ⟨-, rfl⟩ := h
      exact .of_eq rfl rfl
  | setBtcAddressValidator validator =>
      simp only [setBtcAddressValidator, bind_eq_ok, exists_unit, pure_eq_ok] at h
      obtain ⟨-, -, rfl⟩ := h
      exact .of_eq rfl rfl
  | setAccessControl accessControl =>
      simp only [setAccessControl, bind_eq_ok, exists_unit, pure_eq_ok] at h
      obtain ⟨-, -, rfl⟩ := h
      exact .of_eq rfl rfl
  | setRunePaused rune paused =>
      simp only [setRunePaused, bind_eq_ok, exists_unit] at h
      obtain ⟨-, h⟩ := h
      split at h
      · obtain rfl := pure_eq_ok.1 h
        exact .of_eq rfl rfl
      · obtain rfl := pure_eq_ok.1 h
        exact .of_eq rfl rfl
  | pause =>
      simp only [pause, bind_eq_ok, exists_unit, pure_eq_ok] at h
      obtain ⟨-, -, rfl⟩ := h
      exact .of_eq rfl rfl
  | freeze =>
      simp only [freeze, bind_eq_ok, exists_unit, pure_eq_ok] at h
      obtain ⟨-, -, rfl⟩ := h
      split
      · exact .of_eq rfl rfl
      · exact .of_eq rfl rfl
  | unpause =>
      simp only [unpause, bind_eq_ok, exists_unit, pure_eq_ok] at h
      obtain ⟨-, -, -, rfl⟩ := h
      exact .of_eq rfl rfl
  | unfreeze =>
      simp only [unfreeze, bind_eq_ok, exists_unit, pure_eq_ok] at h
      obtain ⟨-, -, rfl⟩ := h
      exact .of_eq rfl rfl
  | tokenCall address c =>
      obtain ⟨token, token', htoken, hcall, rfl⟩ := onToken_ok h
      exact .of_calls htoken (.single (.call hcall)) rfl rfl
  | tokenBurn address amount =>
      obtain ⟨token, token', htoken, hburn, rfl⟩ := onToken_ok h
      exact .of_calls htoken (.single (.burn hburn)) rfl rfl
  | tokenMintTo address to_ amount =>
      obtain ⟨token, token', htoken, hmint, rfl⟩ := onToken_ok h
      exact .of_calls htoken (.single (.mintTo hmint)) rfl rfl
  | tokenChangeMinter address newMinter =>
      obtain ⟨token, token', htoken, hchange, rfl⟩ := onToken_ok h
      exact .of_calls htoken (.single (.changeMinter hchange)) rfl rfl
  | accessControlCall address c =>
      simp only [bind_eq_ok, pure_eq_ok] at h
      obtain ⟨-, -, -, -, rfl⟩ := h
      exact .of_eq rfl rfl
  | deployAccessControl address =>
      simp only [bind_eq_ok, exists_unit, pure_eq_ok] at h
      obtain ⟨-, rfl⟩ := h
      exact .of_eq rfl rfl
  | externalsChange externals =>
      obtain rfl := pure_eq_ok.1 h
      exact .of_eq rfl rfl

/-! ## Every run -/

/-- The accounts of each token add up, and no policy takes everything. -/
structure WellAccounted (w : World T R) : Prop where
  accounted : ∀ a token, w.tokens a = some token → token.Accounted
  policies : ∀ a, (w.bridge.evmToBtcTransferPoliciesByToken a).dynamicFeeTokens <
    DYNAMIC_FEE_DIVISOR

variable [LawfulErc20Accounts T]

omit [AccessControlEnumerable R] in
lemma WellAccounted.frame (hw : w.WellAccounted) (h : Frame w w') : w'.WellAccounted where
  accounted a token' htoken' := by
    rcases h.tokens a token' htoken' with ⟨token, htoken, hcalls⟩ | ⟨_, _, _, _, rfl⟩
    · exact (hw.accounted a token htoken).calls hcalls
    · exact RuneToken.accounted_construct _ _ _ _ _
  policies a := by
    rcases h.policies a with hsame | hchecked
    · rw [hsame]
      exact hw.policies a
    · exact hchecked

omit [AccessControlEnumerable R] in
lemma Initialized.wellAccounted (h : w.Initialized) : w.WellAccounted := by
  obtain ⟨w₀, hw₀, ac, validator, hinit⟩ := h
  have hstart : w₀.WellAccounted := by
    refine ⟨fun a token htoken => ?_, fun a => ?_⟩
    · rw [hw₀.tokens a] at htoken
      exact absurd htoken (by simp)
    · rw [hw₀.bridge]
      change (0 : Uint256) < DYNAMIC_FEE_DIVISOR
      decide
  exact WellAccounted.frame (w := { w₀ with bridge := { w₀.bridge with
    accessControl := ac, btcAddressValidator := validator, runeRegistrationFee := _ } })
    ⟨hstart.accounted, hstart.policies⟩ (doSetEvmToBtcTransferPolicy_frame hinit)

/-- **Every reachable state is well accounted.** -/
theorem wellAccounted_of_run {tr : List (Msg × Call Sig)} (h : ContractRun C tr w) :
    w.WellAccounted :=
  h.stateInvariant (fun _ hw => hw.wellAccounted) fun _ _ _ hw hs => hw.frame (step_frame hs)

end World

end NbteBridge
