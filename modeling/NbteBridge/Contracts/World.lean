import NbteBridge.Foundations.Runs
import NbteBridge.Contracts.RuneBridge

/-!
# Runs of the contracts

One step is one external call to one of the contracts, by any sender but the bridge itself (the
bridge's own messages are the calls its functions make), or a move of the outside world: a new
access control contract, or other answers from foreign contracts.  `step` is the whole public
interface; `ContractRun` its runs from a freshly initialized bridge.
-/

namespace NbteBridge

open Checked

/-- The public state-changing functions of the bridge, its tokens and the access controls. -/
inductive Call (Sig : Type)
  | transferToBtc (token : Address) (tokenAmount : Uint256) (receiverBtcAddress : Bytes)
  | requestRuneRegistration (rune : Uint256)
  | acceptTransferFromBtc (t : TransferFromBtc) (signatures : List Sig)
  | acceptRuneRegistrationRequest (newToken : Address) (r : RuneRegistration)
      (signatures : List Sig)
  | withdrawBaseCurrency (amount : Uint256) (receiver : Address)
  | withdrawTokens (token : Address) (amount : Uint256) (receiver : Address)
  | registerRune (newToken : Address) (r : RuneRegistration)
  | setEvmToBtcTransferPolicy (token : Address) (policy : EvmToBtcTransferPolicy)
  | setRuneRegistrationRequestsEnabled (enabled : Bool)
  | setRuneRegistrationFee (fee : Uint256)
  | setBtcAddressValidator (newBtcAddressValidator : Address)
  | setAccessControl (newAccessControl : Address)
  | setRunePaused (rune : Uint256) (paused : Bool)
  | pause
  | freeze
  | unpause
  | unfreeze
  -- calls to a `RuneToken`
  | tokenCall (token : Address) (c : Erc20Call)
  | tokenBurn (token : Address) (amount : Uint256)
  | tokenMintTo (token to_ : Address) (amount : Uint256)
  | tokenChangeMinter (token newMinter : Address)
  -- calls to an `NBTEBridgeAccessControl`
  | accessControlCall (accessControl : Address) (c : AccessControlCall)
  -- the outside world
  | deployAccessControl (address : Address)
  | externalsChange (externals : Externals)

/-- The functions that take base currency. -/
def Call.isPayable {Sig : Type} : Call Sig → Bool
  | .transferToBtc .. | .requestRuneRegistration .. => true
  | _ => false

namespace World

variable {T R : Type} [Erc20 T] [AccessControlEnumerable R] {Hash Sig : Type}
  (C : Crypto Hash Sig) (w : World T R)

/-- A call to the token at `address`, followed by its events. -/
def onToken (address : Address) (f : RuneToken T → Result (RuneToken T)) (logs : List Log) :
    Result (World T R) := do
  let token ← w.token address
  let token ← f token
  pure <| (w.setToken address token).emit logs

/-- One call. -/
def step (m : Msg) (call : Call Sig) : Result (World T R) := do
  require (m.sender ≠ w.self) "the bridge sends no message of its own"
  require (call.isPayable = true ∨ m.value = 0) "function is not payable"
  match call with
  | .transferToBtc token tokenAmount receiver => w.transferToBtc m token tokenAmount receiver
  | .requestRuneRegistration rune => w.requestRuneRegistration m rune
  | .acceptTransferFromBtc t signatures => w.acceptTransferFromBtc C m t signatures
  | .acceptRuneRegistrationRequest newToken r signatures =>
      w.acceptRuneRegistrationRequest C m newToken r signatures
  | .withdrawBaseCurrency amount receiver => w.withdrawBaseCurrency m amount receiver
  | .withdrawTokens token amount receiver => w.withdrawTokens m token amount receiver
  | .registerRune newToken r => w.registerRune m newToken r
  | .setEvmToBtcTransferPolicy token policy => w.setEvmToBtcTransferPolicy m token policy
  | .setRuneRegistrationRequestsEnabled enabled =>
      w.setRuneRegistrationRequestsEnabled m enabled
  | .setRuneRegistrationFee fee => w.setRuneRegistrationFee m fee
  | .setBtcAddressValidator validator => w.setBtcAddressValidator m validator
  | .setAccessControl accessControl => w.setAccessControl m accessControl
  | .setRunePaused rune paused => w.setRunePaused m rune paused
  | .pause => w.pause m
  | .freeze => w.freeze m
  | .unpause => w.unpause m
  | .unfreeze => w.unfreeze m
  | .tokenCall token c => w.onToken token (fun t => t.call m.sender c) []
  | .tokenBurn token amount =>
      w.onToken token (fun t => t.burn m.sender amount) [.burn token m.sender amount]
  | .tokenMintTo token to_ amount =>
      w.onToken token (fun t => t.mintTo m.sender to_ amount) [.mint token to_ amount]
  | .tokenChangeMinter token newMinter =>
      w.onToken token (fun t => t.changeMinter m.sender newMinter)
        [.minterChanged token m.sender newMinter]
  | .accessControlCall accessControl c => do
      let ac ← orError (w.accessControls accessControl) "access control: not a contract"
      let ac ← ac.call m.sender c
      pure { w with accessControls := Function.update w.accessControls accessControl (some ac) }
  | .deployAccessControl address => do
      require (w.isFresh address) "create: address collision"
      pure { w with
        accessControls := Function.update w.accessControls address
          (some (NBTEBridgeAccessControl.construct m.sender)) }
  | .externalsChange externals => pure { w with externals := externals }

end World

/-! ## Deployment -/

/-- The storage of a bridge before `initialize`. -/
def RuneBridge.uninitialized : RuneBridge where
  accessControl := 0
  frozen := false
  paused := false
  btcAddressValidator := 0
  numTransfersTotal := 0
  tokensByRune := fun _ => 0
  runesByToken := fun _ => 0
  runeTokens := []
  runeRegistrationRequestsEnabled := false
  runeRegistrationFee := 0
  runeRegistrationRequested := fun _ => false
  processedTransfersFromBtc := fun _ _ _ => false
  evmToBtcTransferPoliciesByToken := fun _ => .unset
  isRunePaused := fun _ => false

/-- The policy `initialize` sets for address zero: at most a million tokens, a flat fee of 30k
sat in base currency, 0.4 %. -/
def EvmToBtcTransferPolicy.initial : EvmToBtcTransferPolicy where
  maxTokenAmount := 1000000000000000000000000
  minTokenAmount := 1
  flatFeeBaseCurrency := 300000000000000
  flatFeeTokens := 0
  dynamicFeeTokens := 40

namespace World

variable {T R : Type} [Erc20 T] [AccessControlEnumerable R]

/-- `initialize`, on storage that was not initialized before. -/
def initializeBridge (w : World T R) (accessControl btcAddressValidator : Address) :
    Result (World T R) :=
  doSetEvmToBtcTransferPolicy
    { w with
      bridge := { w.bridge with
        accessControl := accessControl
        btcAddressValidator := btcAddressValidator
        runeRegistrationFee := 1600000000000000 } }
    0 .initial

/-- A bridge just deployed: no token yet, nothing emitted, any access controls around it. -/
structure Undeployed (w : World T R) : Prop where
  bridge : w.bridge = .uninitialized
  tokens : ∀ a, w.tokens a = none
  logs : w.logs = []

/-- A freshly initialized bridge. -/
def Initialized (w : World T R) : Prop :=
  ∃ w₀ : World T R, w₀.Undeployed ∧ ∃ accessControl validator,
    w₀.initializeBridge accessControl validator = .ok w

variable {Hash Sig : Type} (C : Crypto Hash Sig)

/-- A successful call.  A call that reverts changes nothing and is no step. -/
def Step (w : World T R) (a : Msg × Call Sig) (w' : World T R) : Prop :=
  w.step C a.1 a.2 = .ok w'

end World

/-- The runs of the contracts: the successful calls, oldest first, and the state they lead to. -/
abbrev ContractRun {T R : Type} [Erc20 T] [AccessControlEnumerable R] {Hash Sig : Type}
    (C : Crypto Hash Sig) : List (Msg × Call Sig) → World T R → Prop :=
  Runs.Run World.Initialized (World.Step C)

end NbteBridge
