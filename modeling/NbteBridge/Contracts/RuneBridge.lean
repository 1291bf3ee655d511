import NbteBridge.Contracts.AccessControl
import NbteBridge.Contracts.RuneToken

/-!
# RuneBridge

The main contract, function by function, over the state of all contracts it works with: itself,
the `RuneToken`s it deployed, and the `NBTEBridgeAccessControl`s it may point at.  Every other
contract it calls (the address validator, the receiver of a withdrawal, a foreign token) is part
of `Externals`, whose answers may be anything.

A call that reverts returns the reason; a call that succeeds returns the whole new state.  No
function keeps working on state it read before handing control to foreign code, so a reentrant
call is the same as one made right after.
-/

namespace NbteBridge

open Checked

/-! ## State -/

/-- Fees and limits of transfers from EVM to BTC.  Unset when `maxTokenAmount` is zero. -/
structure EvmToBtcTransferPolicy where
  maxTokenAmount : Uint256
  minTokenAmount : Uint256
  flatFeeBaseCurrency : Uint256
  flatFeeTokens : Uint256
  dynamicFeeTokens : Uint256
  deriving DecidableEq

def EvmToBtcTransferPolicy.unset : EvmToBtcTransferPolicy := ⟨0, 0, 0, 0, 0⟩

/-- Denominator of the dynamic fee. -/
def DYNAMIC_FEE_DIVISOR : Uint256 := 10000

/-- The contract's storage. -/
structure RuneBridge where
  accessControl : Address
  frozen : Bool
  paused : Bool
  btcAddressValidator : Address
  numTransfersTotal : Uint256
  tokensByRune : Uint256 → Address
  runesByToken : Address → Uint256
  runeTokens : List Address
  runeRegistrationRequestsEnabled : Bool
  runeRegistrationFee : Uint256
  runeRegistrationRequested : Uint256 → Bool
  processedTransfersFromBtc : Bytes32 → Uint256 → Uint256 → Bool
  evmToBtcTransferPoliciesByToken : Address → EvmToBtcTransferPolicy
  isRunePaused : Uint256 → Bool

/-- The events of the bridge and of its tokens (the latter with the emitting token first). -/
inductive Log
  | runeTransferToBtc (counter : Uint256) (from_ token : Address)
      (rune transferredTokenAmount netRuneAmount : Uint256) (receiverBtcAddress : Bytes)
      (baseCurrencyFee tokenFee : Uint256)
  | runeTransferFromBtc (counter : Uint256) (to_ token : Address) (rune netTokenAmount : Uint256)
      (btcTxId : Bytes32) (btcTxVout : Uint256)
  | runeRegistered (counter : ℕ) (rune : Uint256) (token : Address)
  | runeRegistrationRequested (rune : Uint256) (requester : Address) (baseCurrencyFee : Uint256)
  | runeRegistrationRequestsEnabled (enabled : Bool)
  | runeRegistrationFeeChanged (baseCurrencyFee : Uint256)
  | adminWithdrawal (token : Address) (amount : Uint256)
  | accessControlChanged (oldAccessControl newAccessControl : Address)
  | btcAddressValidatorChanged (oldValidator newValidator : Address)
  | evmToBtcTransferPolicyChanged (token : Address) (policy : EvmToBtcTransferPolicy)
  | runePausedChanged (rune : Uint256) (paused : Bool)
  | paused (account : Address)
  | unpaused (account : Address)
  | frozen (account : Address)
  | unfrozen (account : Address)
  | mint (token to_ : Address) (amount : Uint256)
  | burn (token from_ : Address) (amount : Uint256)
  | minterChanged (token oldMinter newMinter : Address)
  deriving DecidableEq

/-- The contracts outside the repository, as the bridge meets them. -/
structure Externals where
  /-- `isValidBtcAddress` of the validator at an address. -/
  isValidBtcAddress : Address → Bytes → Result Bool
  /-- Whether a receiver accepts a payment in base currency. -/
  receivesValue : Address → Uint256 → Bool
  /-- Whether a token the bridge did not deploy transfers `amount` to a receiver. -/
  safeTransfer : Address → Address → Uint256 → Bool

/-- The state of all contracts. -/
structure World (T R : Type) where
  /-- `address(this)` of the bridge. -/
  self : Address
  bridge : RuneBridge
  tokens : Address → Option (RuneToken T)
  accessControls : Address → Option (NBTEBridgeAccessControl R)
  externals : Externals
  /-- The bridge's balance of base currency. -/
  baseCurrency : ℕ
  /-- The events emitted so far, oldest first. -/
  logs : List Log

/-- The arguments of `acceptTransferFromBtc` but for the signatures. -/
structure TransferFromBtc where
  to_ : Address
  rune : Uint256
  runeAmount : Uint256
  btcTxId : Bytes32
  btcTxVout : Uint256
  deriving DecidableEq

/-- The arguments of a rune registration. -/
structure RuneRegistration where
  name : Bytes
  symbol : Bytes
  rune : Uint256
  runeDivisibility : Uint8
  deriving DecidableEq

namespace RuneBridge

variable (b : RuneBridge)

/-! ## Views -/

def isRuneRegistered (rune : Uint256) : Bool :=
  if rune = 0 then false else b.tokensByRune rune ≠ 0

def isTokenRegistered (token : Address) : Bool :=
  if token = 0 then false else b.runesByToken token ≠ 0

def getTokenByRune (rune : Uint256) : Result Address := do
  require (rune ≠ 0) "rune cannot be zero"
  let token := b.tokensByRune rune
  require (token ≠ 0) "rune not registered"
  pure token

def getRuneByToken (token : Address) : Result Uint256 := do
  require (token ≠ 0) "token cannot be zero"
  let rune := b.runesByToken token
  require (rune ≠ 0) "token not registered"
  pure rune

def getEvmToBtcTransferPolicy (token : Address) : Result EvmToBtcTransferPolicy := do
  require (token = 0 ∨ b.isTokenRegistered token) "token not registered"
  let policy := b.evmToBtcTransferPoliciesByToken token
  pure (if policy.maxTokenAmount = 0 then b.evmToBtcTransferPoliciesByToken 0 else policy)

def isTransferFromBtcProcessed (txHash : Bytes32) (vout rune : Uint256) : Bool :=
  b.processedTransfersFromBtc txHash vout rune

/-- `_setTransferFromBtcProcessed`: sets one key of the nested mapping. -/
def setTransferFromBtcProcessed (txHash : Bytes32) (vout rune : Uint256) : RuneBridge :=
  { b with
    processedTransfersFromBtc := fun txHash' vout' rune' =>
      if txHash' = txHash ∧ vout' = vout ∧ rune' = rune then true
      else b.processedTransfersFromBtc txHash' vout' rune' }

/-- `_validateRune`. -/
def validateRune (rune : Uint256) : Result Unit := do
  require (rune.toNat ≤ 2 ^ 128 - 1) "rune too large"
  require (rune ≠ 0) "rune cannot be zero"

end RuneBridge

/-! ## Messages the federators sign -/

/-- The packed bytes hashed by `getAcceptTransferFromBtcMessageHash` of the bridge at `self`. -/
def acceptTransferFromBtcMessage (self : Address) (t : TransferFromBtc) : Bytes :=
  Packed.ascii "acceptTransferFromBtc:" ++
  (Packed.ofBitVec 20 self ++ (Packed.ascii ":" ++
  (Packed.ofBitVec 20 t.to_ ++ (Packed.ascii ":" ++
  (Packed.ofBitVec 32 t.rune ++ (Packed.ascii ":" ++
  (Packed.ofBitVec 32 t.runeAmount ++ (Packed.ascii ":" ++
  (Packed.ofBitVec 32 t.btcTxId ++ (Packed.ascii ":" ++
  Packed.ofBitVec 32 t.btcTxVout))))))))))

/-- The packed bytes hashed by `getAcceptRuneRegistrationRequestMessageHash`. -/
def acceptRuneRegistrationRequestMessage (self : Address) (r : RuneRegistration) : Bytes :=
  Packed.ascii "acceptRuneRegistrationRequest:" ++
  (Packed.ofBitVec 20 self ++ (Packed.ascii ":" ++
  (r.name ++ (Packed.ascii ":" ++
  (r.symbol ++ (Packed.ascii ":" ++
  (Packed.ofBitVec 32 r.rune ++ (Packed.ascii ":" ++
  Packed.ofBitVec 1 r.runeDivisibility))))))))

section Hashes

variable {Hash Sig : Type} (C : Crypto Hash Sig)

def getAcceptTransferFromBtcMessageHash (self : Address) (t : TransferFromBtc) : Hash :=
  C.keccak256 (acceptTransferFromBtcMessage self t)

def getAcceptRuneRegistrationRequestMessageHash (self : Address) (r : RuneRegistration) : Hash :=
  C.keccak256 (acceptRuneRegistrationRequestMessage self r)

end Hashes

namespace World

variable {T R : Type} [Erc20 T] [AccessControlEnumerable R] (w : World T R)

/-- The access control contract the bridge points at; a call to anything else reverts. -/
def accessControl : Result (NBTEBridgeAccessControl R) :=
  orError (w.accessControls w.bridge.accessControl) "access control: not a contract"

def token (address : Address) : Result (RuneToken T) :=
  orError (w.tokens address) "token: not a contract"

def setToken (address : Address) (token : RuneToken T) : World T R :=
  { w with tokens := Function.update w.tokens address (some token) }

def emit (logs : List Log) : World T R := { w with logs := w.logs ++ logs }

def onlyFederator (m : Msg) : Result Unit := do
  let ac ← w.accessControl
  ac.checkFederator m.sender

def onlyAdmin (m : Msg) : Result Unit := do
  let ac ← w.accessControl
  ac.checkAdmin m.sender

def onlyPauser (m : Msg) : Result Unit := do
  let ac ← w.accessControl
  ac.checkPauser m.sender

def onlyGuard (m : Msg) : Result Unit := do
  let ac ← w.accessControl
  ac.checkGuard m.sender

def whenNotFrozen : Result Unit := require (w.bridge.frozen = false) "Freezable: frozen"

def whenNotPaused : Result Unit := require (w.bridge.paused = false) "Pausable: paused"

/-! ## User functions -/

/-- The fees of a transfer under a policy, and what is left: the net rune amount, its value in
tokens, and the tokens kept. -/
def transferAmounts (token : RuneToken T) (policy : EvmToBtcTransferPolicy)
    (tokenAmount : Uint256) : Result (Uint256 × Uint256 × Uint256) := do
  let product ← Uint256.mul tokenAmount policy.dynamicFeeTokens
  let dynamicFee ← Uint256.div product DYNAMIC_FEE_DIVISOR
  let tokenFee ← Uint256.add policy.flatFeeTokens dynamicFee
  require (tokenFee ≤ tokenAmount) "token amount less than fees"
  let remaining ← Uint256.sub tokenAmount tokenFee
  let netRuneAmount ← token.getRuneAmount remaining
  require (0 < netRuneAmount) "received net rune amount is zero"
  let netTokenAmount ← token.getTokenAmount netRuneAmount
  let tokenFee ← Uint256.sub tokenAmount netTokenAmount
  pure (netRuneAmount, netTokenAmount, tokenFee)

def transferToBtc (m : Msg) (tokenAddress : Address) (tokenAmount : Uint256)
    (receiverBtcAddress : Bytes) : Result (World T R) := do
  w.whenNotPaused
  require (0 < tokenAmount) "amount must be greater than 0"
  let rune ← w.bridge.getRuneByToken tokenAddress
  let token ← w.token tokenAddress
  require (rune = token.rune) "rune mismatch"
  require (w.bridge.isRunePaused rune = false) "rune paused"
  let valid ← w.externals.isValidBtcAddress w.bridge.btcAddressValidator receiverBtcAddress
  require (valid = true) "invalid BTC address"
  let policy ← w.bridge.getEvmToBtcTransferPolicy tokenAddress
  require (policy.minTokenAmount ≤ tokenAmount) "amount too low"
  require (tokenAmount ≤ policy.maxTokenAmount) "amount too high"
  require (m.value = policy.flatFeeBaseCurrency)
    "incorrect base currency fee (either overpaying or underpaying"
  let (netRuneAmount, netTokenAmount, tokenFee) ← transferAmounts token policy tokenAmount
  -- the full amount is taken, the net amount burned; the difference stays with the bridge
  let token ← token.call w.self (.transferFrom m.sender w.self tokenAmount)
  let token ← token.burn w.self netTokenAmount
  let counter ← Uint256.add w.bridge.numTransfersTotal 1
  pure <| ({ w with
    bridge := { w.bridge with numTransfersTotal := counter }
    baseCurrency := w.baseCurrency + m.value.toNat }.setToken tokenAddress token).emit
    [.burn tokenAddress w.self netTokenAmount,
     .runeTransferToBtc counter m.sender tokenAddress rune tokenAmount netRuneAmount
       receiverBtcAddress policy.flatFeeBaseCurrency tokenFee]

def requestRuneRegistration (m : Msg) (rune : Uint256) : Result (World T R) := do
  require (w.bridge.runeRegistrationRequestsEnabled = true)
    "rune registration requests disabled"
  w.whenNotPaused
  RuneBridge.validateRune rune
  require (w.bridge.isRuneRegistered rune = false) "rune already registered"
  require (w.bridge.runeRegistrationRequested rune = false) "registration already requested"
  require (m.value = w.bridge.runeRegistrationFee) "incorrect base currency fee"
  pure <| { w with
    bridge := { w.bridge with
      runeRegistrationRequested :=
        Function.update w.bridge.runeRegistrationRequested rune true }
    baseCurrency := w.baseCurrency + m.value.toNat }.emit
    [.runeRegistrationRequested rune m.sender m.value]

/-! ## Federator functions -/

section

variable {Hash Sig : Type} (C : Crypto Hash Sig)

def acceptTransferFromBtc (m : Msg) (t : TransferFromBtc) (signatures : List Sig) :
    Result (World T R) := do
  w.onlyFederator m
  w.whenNotFrozen
  require (w.bridge.isRunePaused t.rune = false) "rune paused"
  let messageHash := getAcceptTransferFromBtcMessageHash C w.self t
  let ac ← w.accessControl
  ac.checkFederatorSignatures C messageHash signatures
  let tokenAddress ← w.bridge.getTokenByRune t.rune
  require (w.bridge.isTransferFromBtcProcessed t.btcTxId t.btcTxVout t.rune = false)
    "transfer already processed"
  let bridge := w.bridge.setTransferFromBtcProcessed t.btcTxId t.btcTxVout t.rune
  let token ← w.token tokenAddress
  let tokenAmount ← token.getTokenAmount t.runeAmount
  let token ← token.mintTo w.self t.to_ tokenAmount
  let counter ← Uint256.add bridge.numTransfersTotal 1
  pure <| ({ w with bridge := { bridge with numTransfersTotal := counter } }.setToken
    tokenAddress token).emit
    [.mint tokenAddress t.to_ tokenAmount,
     .runeTransferFromBtc counter t.to_ tokenAddress t.rune tokenAmount t.btcTxId t.btcTxVout]

/-- Whether a contract may be created at `address`: nothing is there yet. -/
def isFresh (address : Address) : Prop :=
  address ≠ 0 ∧ address ≠ w.self ∧ (w.tokens address).isNone ∧ (w.accessControls address).isNone

instance (address : Address) : Decidable (w.isFresh address) :=
  inferInstanceAs (Decidable (_ ∧ _ ∧ _ ∧ _))

/-- `_registerRune`; `newToken` is the address the new token is created at. -/
def doRegisterRune (newToken : Address) (r : RuneRegistration) : Result (World T R) := do
  require (w.bridge.isRuneRegistered r.rune = false) "rune already registered"
  RuneBridge.validateRune r.rune
  require (w.isFresh newToken) "create: address collision"
  let token := RuneToken.construct w.self r.name r.symbol r.rune r.runeDivisibility
  let bridge := { w.bridge with
    tokensByRune := Function.update w.bridge.tokensByRune r.rune newToken
    runesByToken := Function.update w.bridge.runesByToken newToken r.rune
    runeTokens := w.bridge.runeTokens ++ [newToken] }
  pure <| ({ w with bridge := bridge }.setToken newToken token).emit
    [.runeRegistered bridge.runeTokens.length r.rune newToken]

def acceptRuneRegistrationRequest (m : Msg) (newToken : Address) (r : RuneRegistration)
    (signatures : List Sig) : Result (World T R) := do
  w.onlyFederator m
  w.whenNotFrozen
  require (w.bridge.runeRegistrationRequested r.rune = true) "registration not requested"
  let messageHash := getAcceptRuneRegistrationRequestMessageHash C w.self r
  let ac ← w.accessControl
  ac.checkFederatorSignatures C messageHash signatures
  w.doRegisterRune newToken r

end

/-! ## Admin functions -/

def withdrawBaseCurrency (m : Msg) (amount : Uint256) (receiver : Address) :
    Result (World T R) := do
  w.onlyAdmin m
  require (receiver ≠ 0) "Cannot withdraw to zero address"
  require (amount.toNat ≤ w.baseCurrency) "Address: insufficient balance"
  require (w.externals.receivesValue receiver amount = true) "Address: unable to send value"
  pure <| { w with baseCurrency := w.baseCurrency - amount.toNat }.emit
    [.adminWithdrawal 0 amount]

def withdrawTokens (m : Msg) (tokenAddress : Address) (amount : Uint256) (receiver : Address) :
    Result (World T R) := do
  w.onlyAdmin m
  require (receiver ≠ 0) "Cannot withdraw to zero address"
  match w.tokens tokenAddress with
  | some token => do
      let token ← token.call w.self (.transfer receiver amount)
      pure <| (w.setToken tokenAddress token).emit [.adminWithdrawal tokenAddress amount]
  | none => do
      require (w.externals.safeTransfer tokenAddress receiver amount = true)
        "SafeERC20: ERC20 operation did not succeed"
      pure <| w.emit [.adminWithdrawal tokenAddress amount]

def registerRune (m : Msg) (newToken : Address) (r : RuneRegistration) :
    Result (World T R) := do
  w.onlyAdmin m
  w.doRegisterRune newToken r

/-- `_setEvmToBtcTransferPolicy`. -/
def doSetEvmToBtcTransferPolicy (token : Address) (policy : EvmToBtcTransferPolicy) :
    Result (World T R) := do
  require (policy.minTokenAmount ≤ policy.maxTokenAmount)
    "max amount must be greater or equal than min amount"
  require (policy.dynamicFeeTokens < DYNAMIC_FEE_DIVISOR) "dynamic fee must be less than 100%"
  require (policy.maxTokenAmount = 0 ∨ policy.flatFeeTokens ≤ policy.maxTokenAmount)
    "flat fee must be less than max amount"
  require (token = 0 ∨ w.bridge.isTokenRegistered token) "token not registered"
  pure <| { w with
    bridge := { w.bridge with
      evmToBtcTransferPoliciesByToken :=
        Function.update w.bridge.evmToBtcTransferPoliciesByToken token policy } }.emit
    [.evmToBtcTransferPolicyChanged token policy]

def setEvmToBtcTransferPolicy (m : Msg) (token : Address) (policy : EvmToBtcTransferPolicy) :
    Result (World T R) := do
  w.onlyAdmin m
  w.doSetEvmToBtcTransferPolicy token policy

def setRuneRegistrationRequestsEnabled (m : Msg) (enabled : Bool) : Result (World T R) := do
  w.onlyAdmin m
  pure <| { w with
    bridge := { w.bridge with runeRegistrationRequestsEnabled := enabled } }.emit
    [.runeRegistrationRequestsEnabled enabled]

def setRuneRegistrationFee (m : Msg) (fee : Uint256) : Result (World T R) := do
  w.onlyAdmin m
  pure <| { w with bridge := { w.bridge with runeRegistrationFee := fee } }.emit
    [.runeRegistrationFeeChanged fee]

def setBtcAddressValidator (m : Msg) (newBtcAddressValidator : Address) :
    Result (World T R) := do
  w.onlyAdmin m
  require (newBtcAddressValidator ≠ 0) "Cannot set to zero address"
  pure <| { w with
    bridge := { w.bridge with btcAddressValidator := newBtcAddressValidator } }.emit
    [.btcAddressValidatorChanged w.bridge.btcAddressValidator newBtcAddressValidator]

def setAccessControl (m : Msg) (newAccessControl : Address) : Result (World T R) := do
  w.onlyAdmin m
  require (newAccessControl ≠ 0) "Cannot set to zero address"
  pure <| { w with bridge := { w.bridge with accessControl := newAccessControl } }.emit
    [.accessControlChanged w.bridge.accessControl newAccessControl]

def setRunePaused (m : Msg) (rune : Uint256) (paused : Bool) : Result (World T R) := do
  w.onlyAdmin m
  if paused ≠ w.bridge.isRunePaused rune then
    pure <| { w with
      bridge := { w.bridge with
        isRunePaused := Function.update w.bridge.isRunePaused rune paused } }.emit
      [.runePausedChanged rune paused]
  else
    pure w

/-! ## Pausing and freezing -/

def pause (m : Msg) : Result (World T R) := do
  w.onlyPauser m
  w.whenNotPaused
  pure <| { w with bridge := { w.bridge with paused := true } }.emit [.paused m.sender]

/-- Pauses too, unless paused already. -/
def freeze (m : Msg) : Result (World T R) := do
  w.onlyGuard m
  let w := if w.bridge.paused = false then
    { w with bridge := { w.bridge with paused := true } }.emit [.paused m.sender] else w
  w.whenNotFrozen
  pure <| { w with bridge := { w.bridge with frozen := true } }.emit [.frozen m.sender]

def unpause (m : Msg) : Result (World T R) := do
  w.onlyPauser m
  w.whenNotFrozen
  require (w.bridge.paused = true) "Pausable: not paused"
  pure <| { w with bridge := { w.bridge with paused := false } }.emit [.unpaused m.sender]

def unfreeze (m : Msg) : Result (World T R) := do
  w.onlyGuard m
  require (w.bridge.frozen = true) "Freezable: not frozen"
  pure <| { w with bridge := { w.bridge with frozen := false } }.emit [.unfrozen m.sender]

end World

end NbteBridge
