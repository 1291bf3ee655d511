import NbteBridge.Contracts.World

/-!
# What a call can do

One inversion theorem for the whole public interface, `step_effect`: a successful call
registers a rune, accepts a transfer from BTC, releases one to BTC, burns a holder's tokens,
moves tokens without changing a supply, uses a token's minting right, or leaves tokens and
registry alone.  Every invariant over runs is a case analysis on it, and no later proof unfolds
a contract function.
-/

namespace NbteBridge

open Checked

variable {T R : Type}

/-! ## What calls and events contribute -/

/-- The runes of `rune` a successful call brings onto the bridge. -/
def acceptedBy {Sig : Type} (rune : Uint256) (a : Msg × Call Sig) : ℕ :=
  match a.2 with
  | .acceptTransferFromBtc t _ => if t.rune = rune then t.runeAmount.toNat else 0
  | _ => 0

/-- The tokens of `token` a call burns directly, by a holder other than the bridge at `self`. -/
def burnedBy {Sig : Type} (self token : Address) (a : Msg × Call Sig) : ℕ :=
  match a.2 with
  | .tokenBurn t amount => if t = token ∧ a.1.sender ≠ self then amount.toNat else 0
  | _ => 0

/-- The runes of `token` an event tells the network to release. -/
def releasedBy (token : Address) : Log → ℕ
  | .runeTransferToBtc _ _ t _ _ netRuneAmount _ _ _ =>
      if t = token then netRuneAmount.toNat else 0
  | _ => 0

def acceptedRuneAmount {Sig : Type} (rune : Uint256) (tr : List (Msg × Call Sig)) : ℕ :=
  (tr.map (acceptedBy rune)).sum

def burnedDirectly {Sig : Type} (self token : Address) (tr : List (Msg × Call Sig)) : ℕ :=
  (tr.map (burnedBy self token)).sum

def releasedRuneAmount (token : Address) (logs : List Log) : ℕ :=
  (logs.map (releasedBy token)).sum

/-- A call that neither accepts a transfer from BTC nor burns tokens directly. -/
def Call.IsQuiet {Sig : Type} : Call Sig → Prop
  | .acceptTransferFromBtc .. | .tokenBurn .. => False
  | _ => True

/-- The token a call registers, and what for. -/
def Call.registration {Sig : Type} : Call Sig → Option (Address × RuneRegistration)
  | .acceptRuneRegistrationRequest newToken r _ => some (newToken, r)
  | .registerRune newToken r => some (newToken, r)
  | _ => none

lemma acceptedBy_of_isQuiet {Sig : Type} {rune : Uint256} {a : Msg × Call Sig}
    (h : a.2.IsQuiet) : acceptedBy rune a = 0 := by
  obtain ⟨m, c⟩ := a
  cases c <;> first | rfl | exact h.elim

lemma burnedBy_of_isQuiet {Sig : Type} {self token : Address} {a : Msg × Call Sig}
    (h : a.2.IsQuiet) : burnedBy self token a = 0 := by
  obtain ⟨m, c⟩ := a
  cases c <;> first | rfl | exact h.elim

/-! ## The effects -/

/-- The registry, the replay map and the bridge's address are kept, and no release is logged. -/
structure Kept (w w' : World T R) : Prop where
  self : w'.self = w.self
  tokensByRune : w'.bridge.tokensByRune = w.bridge.tokensByRune
  runesByToken : w'.bridge.runesByToken = w.bridge.runesByToken
  runeTokens : w'.bridge.runeTokens = w.bridge.runeTokens
  processed : w'.bridge.processedTransfersFromBtc = w.bridge.processedTransfersFromBtc
  released : ∀ token, releasedRuneAmount token w'.logs = releasedRuneAmount token w.logs

lemma releasedRuneAmount_append (token : Address) (logs new : List Log) :
    releasedRuneAmount token (logs ++ new) =
      releasedRuneAmount token logs + releasedRuneAmount token new := by
  simp [releasedRuneAmount]

variable [Erc20 T] [AccessControlEnumerable R] {Hash Sig : Type}

/-- The state after a token moved to `token'` and `logs` were emitted. -/
structure TokenMoved (w w' : World T R) (address : Address) (token token' : RuneToken T) :
    Prop where
  before : w.tokens address = some token
  after : w'.tokens = Function.update w.tokens address (some token')
  terms : RuneToken.SameTerms token token'

/-- What a successful call `a` did to the tokens, the registry and the replay map. -/
inductive Effect (C : Crypto Hash Sig) (w : World T R) (a : Msg × Call Sig)
    (w' : World T R) : Prop
  /-- Nothing of the three changed. -/
  | quiet (hq : a.2.IsQuiet) (hk : Kept w w') (ht : w'.tokens = w.tokens)
  /-- Tokens changed hands. -/
  | moved {address : Address} {token token' : RuneToken T} (hq : a.2.IsQuiet)
      (hk : Kept w w') (ht : TokenMoved w w' address token token')
      (hs : token'.totalSupply = token.totalSupply)
  /-- A holder burned tokens. -/
  | burned {address : Address} {token token' : RuneToken T} {amount : Uint256}
      (hc : a.2 = .tokenBurn address amount) (hk : Kept w w')
      (ht : TokenMoved w w' address token token')
      (hs : token'.totalSupply + amount.toNat = token.totalSupply)
  /-- A token's minter, who is not the bridge, used its right. -/
  | minted {address : Address} {token : RuneToken T} (ht : w.tokens address = some token)
      (hm : token.minter ≠ w.self)
  /-- The bridge released runes. -/
  | released {address : Address} {token token' : RuneToken T} {net : ℕ}
      (hq : a.2.IsQuiet) (hself : w'.self = w.self)
      (hreg : w'.bridge.tokensByRune = w.bridge.tokensByRune ∧
        w'.bridge.runesByToken = w.bridge.runesByToken ∧
        w'.bridge.runeTokens = w.bridge.runeTokens ∧
        w'.bridge.processedTransfersFromBtc = w.bridge.processedTransfersFromBtc)
      (ht : TokenMoved w w' address token token')
      (hs : token'.totalSupply + net * token.runeAmountDivisor.toNat = token.totalSupply)
      (hl : ∀ t, releasedRuneAmount t w'.logs =
        releasedRuneAmount t w.logs + if t = address then net else 0)
  /-- The bridge accepted a transfer. -/
  | accepted {m : Msg} {t : TransferFromBtc} {signatures : List Sig} {address : Address}
      {token token' : RuneToken T}
      (ha : a = (m, .acceptTransferFromBtc t signatures))
      (hself : w'.self = w.self)
      (hreg : w'.bridge.tokensByRune = w.bridge.tokensByRune ∧
        w'.bridge.runesByToken = w.bridge.runesByToken ∧
        w'.bridge.runeTokens = w.bridge.runeTokens)
      (hfresh : w.bridge.processedTransfersFromBtc t.btcTxId t.btcTxVout t.rune = false)
      (hproc : w'.bridge.processedTransfersFromBtc =
        (w.bridge.setTransferFromBtcProcessed t.btcTxId t.btcTxVout
          t.rune).processedTransfersFromBtc)
      (hrune : t.rune ≠ 0) (haddr : w.bridge.tokensByRune t.rune = address)
      (hnonzero : address ≠ 0)
      (ht : TokenMoved w w' address token token')
      (hs : token'.totalSupply =
        token.totalSupply + t.runeAmount.toNat * token.runeAmountDivisor.toNat)
      (hb : token'.balanceOf t.to_ =
        token.balanceOf t.to_ + t.runeAmount.toNat * token.runeAmountDivisor.toNat)
      (hother : ∀ b, b ≠ t.to_ → token'.balanceOf b = token.balanceOf b)
      (hlog : ∀ t, releasedRuneAmount t w'.logs = releasedRuneAmount t w.logs)
  /-- A rune was registered. -/
  | registered {newToken : Address} {r : RuneRegistration} (hq : a.2.IsQuiet)
      (hcall : a.2.registration = some (newToken, r))
      (hself : w'.self = w.self)
      (hnew : w.bridge.isRuneRegistered r.rune = false)
      (hrune : r.rune.toNat ≤ 2 ^ 128 - 1 ∧ r.rune ≠ 0) (hfresh : w.isFresh newToken)
      (htokens : w'.tokens = Function.update w.tokens newToken
        (some (RuneToken.construct w.self r.name r.symbol r.rune r.runeDivisibility)))
      (hbyRune : w'.bridge.tokensByRune =
        Function.update w.bridge.tokensByRune r.rune newToken)
      (hbyToken : w'.bridge.runesByToken =
        Function.update w.bridge.runesByToken newToken r.rune)
      (hlist : w'.bridge.runeTokens = w.bridge.runeTokens ++ [newToken])
      (hproc : w'.bridge.processedTransfersFromBtc = w.bridge.processedTransfersFromBtc)
      (hlog : ∀ t, releasedRuneAmount t w'.logs = releasedRuneAmount t w.logs)

/-! ## Inversion, function by function -/

namespace World

variable {w w' : World T R} {m : Msg}

omit [Erc20 T] in
/-- The amounts of a transfer: at least one rune, its exact value in tokens, and a fee that is
the rest and covers the policy's. -/
lemma transferAmounts_ok {token : RuneToken T} {policy : EvmToBtcTransferPolicy}
    {tokenAmount netRuneAmount netTokenAmount tokenFee : Uint256}
    (h : transferAmounts token policy tokenAmount =
      .ok (netRuneAmount, netTokenAmount, tokenFee)) :
    0 < netRuneAmount.toNat ∧
      netTokenAmount.toNat = netRuneAmount.toNat * token.runeAmountDivisor.toNat ∧
      tokenFee.toNat + netTokenAmount.toNat = tokenAmount.toNat := by
  simp only [transferAmounts, bind_eq_ok, exists_unit, require_eq_ok, pure_eq_ok,
    RuneToken.getRuneAmount, RuneToken.getTokenAmount, Uint256.mul_eq_ok, Uint256.add_eq_ok,
    Uint256.sub_eq_ok, Uint256.div_eq_ok, Prod.mk.injEq] at h
  obtain ⟨-, -, -, -, -, -, -, -, -, net, -, hpos, netTokens, hnet, fee, hfee, rfl, rfl, rfl⟩ := h
  exact ⟨by simpa [BitVec.lt_def] using hpos, hnet, hfee⟩

omit [Erc20 T] [AccessControlEnumerable R] in
lemma token_eq_ok {address : Address} {token : RuneToken T} :
    w.token address = .ok token ↔ w.tokens address = some token :=
  orError_eq_ok

lemma getTokenByRune_ok {b : RuneBridge} {rune : Uint256} {address : Address}
    (h : b.getTokenByRune rune = .ok address) :
    rune ≠ 0 ∧ b.tokensByRune rune = address ∧ address ≠ 0 := by
  simp only [RuneBridge.getTokenByRune, bind_eq_ok, exists_unit, require_eq_ok, pure_eq_ok] at h
  obtain ⟨hrune, hne, rfl⟩ := h
  exact ⟨hrune, rfl, hne⟩

variable [LawfulErc20 T] {C : Crypto Hash Sig}

omit [AccessControlEnumerable R] in
lemma transferToBtc_effect {tokenAddress : Address} {tokenAmount : Uint256}
    {receiver : Bytes} (h : w.transferToBtc m tokenAddress tokenAmount receiver = .ok w') :
    Effect C w (m, .transferToBtc tokenAddress tokenAmount receiver) w' := by
  simp only [transferToBtc, bind_eq_ok, exists_unit, require_eq_ok, pure_eq_ok, token_eq_ok,
    Prod.exists] at h
  obtain ⟨-, -, rune, -, token, htoken, -, -, -, -, -, policy, -, -, -, -, netRune, netToken, fee,
    hamounts, moved, hmove, burned, hburn, counter, -, rfl⟩ := h
  obtain ⟨-, hnet, -⟩ := transferAmounts_ok hamounts
  obtain ⟨hterms₁, hsupply₁⟩ := RuneToken.call_ok hmove
  obtain ⟨hterms₂, hsupply₂⟩ := RuneToken.burn_ok hburn
  have hs : burned.totalSupply + netRune.toNat * token.runeAmountDivisor.toNat =
      token.totalSupply := by
    rw [← hnet, hsupply₂, hsupply₁]
  refine .released trivial rfl ⟨rfl, rfl, rfl, rfl⟩ ⟨htoken, rfl, hterms₁.trans hterms₂⟩ hs ?_
  intro t
  simp only [emit, setToken, releasedRuneAmount_append]
  simp [releasedRuneAmount, releasedBy, eq_comm]

lemma acceptTransferFromBtc_effect {t : TransferFromBtc} {signatures : List Sig}
    (h : w.acceptTransferFromBtc C m t signatures = .ok w') :
    Effect C w (m, .acceptTransferFromBtc t signatures) w' := by
  simp only [acceptTransferFromBtc, bind_eq_ok, exists_unit, require_eq_ok, pure_eq_ok,
    token_eq_ok] at h
  obtain ⟨-, -, -, ac, -, -, address, haddress, hfresh, token, htoken, amount, hamount, minted,
    hmint, counter, -, rfl⟩ := h
  obtain ⟨hrune, haddr, hne⟩ := getTokenByRune_ok haddress
  obtain ⟨-, hterms, hsupply, hbalance, hother⟩ := RuneToken.mintTo_ok hmint
  have hamount' : amount.toNat = t.runeAmount.toNat * token.runeAmountDivisor.toNat :=
    Uint256.mul_eq_ok.1 hamount
  refine .accepted rfl rfl ⟨rfl, rfl, rfl⟩ hfresh rfl hrune haddr hne ⟨htoken, rfl, hterms⟩
    (hamount' ▸ hsupply) (hamount' ▸ hbalance) hother fun t' => ?_
  simp only [emit, setToken, releasedRuneAmount_append]
  simp [releasedRuneAmount, releasedBy]

omit [AccessControlEnumerable R] [LawfulErc20 T] in
lemma doRegisterRune_effect {a : Msg × Call Sig} {newToken : Address} {r : RuneRegistration}
    (hq : a.2.IsQuiet) (hcall : a.2.registration = some (newToken, r))
    (h : w.doRegisterRune newToken r = .ok w') : Effect C w a w' := by
  simp only [doRegisterRune, RuneBridge.validateRune, bind_eq_ok, exists_unit, require_eq_ok,
    pure_eq_ok] at h
  obtain ⟨hnew, ⟨hle, hne⟩, hfresh, rfl⟩ := h
  refine .registered hq hcall rfl hnew ⟨hle, hne⟩ hfresh rfl rfl rfl rfl rfl fun t => ?_
  simp only [emit, setToken, releasedRuneAmount_append]
  simp [releasedRuneAmount, releasedBy]

omit [AccessControlEnumerable R] [LawfulErc20 T] in
/-- A call that only emits `logs` and changes neither tokens, registry nor replay map. -/
lemma quiet_emit {a : Msg × Call Sig} {logs : List Log} (hq : a.2.IsQuiet) (hk : Kept w w')
    (ht : w'.tokens = w.tokens) (hl : ∀ t, releasedRuneAmount t logs = 0) :
    Effect C w a (w'.emit logs) := by
  refine .quiet hq { hk with released := fun t => ?_ } ht
  simp only [emit, releasedRuneAmount_append, hl t, hk.released t, add_zero]

omit [Erc20 T] [AccessControlEnumerable R] [LawfulErc20 T] in
lemma onToken_ok {address : Address} {f : RuneToken T → Result (RuneToken T)} {logs : List Log}
    (h : w.onToken address f logs = .ok w') :
    ∃ token token', w.tokens address = some token ∧ f token = .ok token' ∧
      w' = (w.setToken address token').emit logs := by
  simp only [onToken, bind_eq_ok, pure_eq_ok, token_eq_ok] at h
  obtain ⟨token, htoken, token', hf, rfl⟩ := h
  exact ⟨token, token', htoken, hf, rfl⟩

lemma withdrawTokens_effect {tokenAddress : Address} {amount : Uint256} {receiver : Address}
    (h : w.withdrawTokens m tokenAddress amount receiver = .ok w') :
    Effect C w (m, .withdrawTokens tokenAddress amount receiver) w' := by
  simp only [withdrawTokens, bind_eq_ok, exists_unit, require_eq_ok] at h
  obtain ⟨-, -, h⟩ := h
  split at h
  · rename_i token htoken
    simp only [bind_eq_ok, pure_eq_ok] at h
    obtain ⟨token', hcall, rfl⟩ := h
    obtain ⟨hterms, hsupply⟩ := RuneToken.call_ok hcall
    refine .moved trivial ⟨rfl, rfl, rfl, rfl, rfl, fun t => ?_⟩ ⟨htoken, rfl, hterms⟩ hsupply
    simp only [emit, setToken, releasedRuneAmount_append]
    simp [releasedRuneAmount, releasedBy]
  · simp only [bind_eq_ok, exists_unit, require_eq_ok, pure_eq_ok] at h
    obtain ⟨-, rfl⟩ := h
    exact quiet_emit trivial ⟨rfl, rfl, rfl, rfl, rfl, fun _ => rfl⟩ rfl fun t => rfl

/-- **What one call can do.** -/
theorem step_effect {a : Msg × Call Sig} (h : Step C w a w') : Effect C w a w' := by
  obtain ⟨m, call⟩ := a
  have hkept : Kept w w := ⟨rfl, rfl, rfl, rfl, rfl, fun _ => rfl⟩
  simp only [Step, step, bind_eq_ok, exists_unit, require_eq_ok] at h
  obtain ⟨hsender, -, h⟩ := h
  cases call with
  | transferToBtc => exact transferToBtc_effect h
  | requestRuneRegistration rune =>
      simp only [requestRuneRegistration, bind_eq_ok, exists_unit, pure_eq_ok] at h
      obtain ⟨-, -, -, -, -, -, rfl⟩ := h
      exact quiet_emit trivial ⟨rfl, rfl, rfl, rfl, rfl, fun _ => rfl⟩ rfl fun t => rfl
  | acceptTransferFromBtc => exact acceptTransferFromBtc_effect h
  | acceptRuneRegistrationRequest newToken r signatures =>
      simp only [acceptRuneRegistrationRequest, bind_eq_ok, exists_unit] at h
      obtain ⟨-, -, -, ac, -, -, h⟩ := h
      exact doRegisterRune_effect trivial rfl h
  | withdrawBaseCurrency amount receiver =>
      simp only [withdrawBaseCurrency, bind_eq_ok, exists_unit, pure_eq_ok] at h
      obtain ⟨-, -, -, -, rfl⟩ := h
      exact quiet_emit trivial ⟨rfl, rfl, rfl, rfl, rfl, fun _ => rfl⟩ rfl fun t => rfl
  | withdrawTokens => exact withdrawTokens_effect h
  | registerRune newToken r =>
      simp only [registerRune, bind_eq_ok, exists_unit] at h
      exact doRegisterRune_effect trivial rfl h.2
  | setEvmToBtcTransferPolicy token policy =>
      simp only [setEvmToBtcTransferPolicy, doSetEvmToBtcTransferPolicy, bind_eq_ok,
        exists_unit, pure_eq_ok] at h
      obtain ⟨-, -, -, -, -, rfl⟩ := h
      exact quiet_emit trivial ⟨rfl, rfl, rfl, rfl, rfl, fun _ => rfl⟩ rfl fun t => rfl
  | setRuneRegistrationRequestsEnabled enabled =>
      simp only [setRuneRegistrationRequestsEnabled, bind_eq_ok, exists_unit, pure_eq_ok] at h
      obtain ⟨-, rfl⟩ := h
      exact quiet_emit trivial ⟨rfl, rfl, rfl, rfl, rfl, fun _ => rfl⟩ rfl fun t => rfl
  | setRuneRegistrationFee fee =>
      simp only [setRuneRegistrationFee, bind_eq_ok, exists_unit, pure_eq_ok] at h
      obtain ⟨-, rfl⟩ := h
      exact quiet_emit trivial ⟨rfl, rfl, rfl, rfl, rfl, fun _ => rfl⟩ rfl fun t => rfl
  | setBtcAddressValidator validator =>
      simp only [setBtcAddressValidator, bind_eq_ok, exists_unit, pure_eq_ok] at h
      obtain ⟨-, -, rfl⟩ := h
      exact quiet_emit trivial ⟨rfl, rfl, rfl, rfl, rfl, fun _ => rfl⟩ rfl fun t => rfl
  | setAccessControl accessControl =>
      simp only [setAccessControl, bind_eq_ok, exists_unit, pure_eq_ok] at h
      obtain ⟨-, -, rfl⟩ := h
      exact quiet_emit trivial ⟨rfl, rfl, rfl, rfl, rfl, fun _ => rfl⟩ rfl fun t => rfl
  | setRunePaused rune paused =>
      simp only [setRunePaused, bind_eq_ok, exists_unit] at h
      obtain ⟨-, h⟩ := h
      split at h
      · obtain rfl := pure_eq_ok.1 h
        exact quiet_emit trivial ⟨rfl, rfl, rfl, rfl, rfl, fun _ => rfl⟩ rfl fun t => rfl
      · obtain rfl := pure_eq_ok.1 h
        exact .quiet trivial hkept rfl
  | pause =>
      simp only [pause, bind_eq_ok, exists_unit, pure_eq_ok] at h
      obtain ⟨-, -, rfl⟩ := h
      exact quiet_emit trivial ⟨rfl, rfl, rfl, rfl, rfl, fun _ => rfl⟩ rfl fun t => rfl
  | freeze =>
      simp only [freeze, bind_eq_ok, exists_unit, pure_eq_ok] at h
      obtain ⟨-, -, rfl⟩ := h
      split
      · refine quiet_emit trivial ⟨rfl, rfl, rfl, rfl, rfl, fun t => ?_⟩ rfl fun t => rfl
        simp only [emit, releasedRuneAmount_append]
        rfl
      · exact quiet_emit trivial ⟨rfl, rfl, rfl, rfl, rfl, fun _ => rfl⟩ rfl fun t => rfl
  | unpause =>
      simp only [unpause, bind_eq_ok, exists_unit, pure_eq_ok] at h
      obtain ⟨-, -, -, rfl⟩ := h
      exact quiet_emit trivial ⟨rfl, rfl, rfl, rfl, rfl, fun _ => rfl⟩ rfl fun t => rfl
  | unfreeze =>
      simp only [unfreeze, bind_eq_ok, exists_unit, pure_eq_ok] at h
      obtain ⟨-, -, rfl⟩ := h
      exact quiet_emit trivial ⟨rfl, rfl, rfl, rfl, rfl, fun _ => rfl⟩ rfl fun t => rfl
  | tokenCall address c =>
      obtain ⟨token, token', htoken, hcall, rfl⟩ := onToken_ok h
      obtain ⟨hterms, hsupply⟩ := RuneToken.call_ok hcall
      refine .moved trivial ⟨rfl, rfl, rfl, rfl, rfl, fun t => ?_⟩ ⟨htoken, rfl, hterms⟩ hsupply
      simp only [emit, setToken, releasedRuneAmount_append]
      rfl
  | tokenBurn address amount =>
      obtain ⟨token, token', htoken, hburn, rfl⟩ := onToken_ok h
      obtain ⟨hterms, hsupply⟩ := RuneToken.burn_ok hburn
      refine .burned rfl ⟨rfl, rfl, rfl, rfl, rfl, fun t => ?_⟩ ⟨htoken, rfl, hterms⟩ hsupply
      simp only [emit, setToken, releasedRuneAmount_append]
      rfl
  | tokenMintTo address to_ amount =>
      obtain ⟨token, token', htoken, hmint, rfl⟩ := onToken_ok h
      exact .minted htoken ((RuneToken.mintTo_ok hmint).1 ▸ hsender)
  | tokenChangeMinter address newMinter =>
      obtain ⟨token, token', htoken, hchange, rfl⟩ := onToken_ok h
      simp only [RuneToken.changeMinter, bind_eq_ok, exists_unit, require_eq_ok] at hchange
      exact .minted htoken (hchange.1 ▸ hsender)
  | accessControlCall address c =>
      simp only [bind_eq_ok, pure_eq_ok] at h
      obtain ⟨-, -, -, -, rfl⟩ := h
      exact .quiet trivial ⟨rfl, rfl, rfl, rfl, rfl, fun _ => rfl⟩ rfl
  | deployAccessControl address =>
      simp only [bind_eq_ok, exists_unit, pure_eq_ok] at h
      obtain ⟨-, rfl⟩ := h
      exact .quiet trivial ⟨rfl, rfl, rfl, rfl, rfl, fun _ => rfl⟩ rfl
  | externalsChange externals =>
      obtain rfl := pure_eq_ok.1 h
      exact .quiet trivial ⟨rfl, rfl, rfl, rfl, rfl, fun _ => rfl⟩ rfl

end World

end NbteBridge
