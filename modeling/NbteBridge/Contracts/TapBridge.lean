import NbteBridge.Contracts.AccessControl
import NbteBridge.Contracts.TapUtils
import NbteBridge.Foundations.Runs

/-!
# The tap Bridge

The contract that releases tokens against deposits of Taproot Assets.  It keeps its own list of
federators and its own threshold, both the owner's to change at any time, and counts the caller of
`acceptTransferFromTap` as a signer of its own call.

Foreign tokens are part of the outside world and either do what they are asked or revert.  Both
functions that call one are `nonReentrant`, so none of them runs within another.
-/

namespace NbteBridge

open Checked Packed

/-- An asset that is a token on one side and a Taproot Asset on the other. -/
structure BridgeableAsset where
  rskToken : Address
  tapAssetId : Bytes32
  tapAmountDivisor : Uint256
  tapNative : Bool
  tapAssetName : Bytes
  deriving DecidableEq

/-- A deleted asset, or one never set. -/
def BridgeableAsset.unset : BridgeableAsset := ⟨0, 0, 0, false, []⟩

/-- The storage of the contract. -/
structure TapBridge where
  owner : Address
  assetsByRskTokenAddress : Address → BridgeableAsset
  assetsByTaprootAssetId : Bytes32 → BridgeableAsset
  processedByBtcTxIdAndVout : Bytes32 → Uint256 → Bool
  assets : List BridgeableAsset
  numRequiredSigners : Uint256
  federators : List Address
  numTransfersTotal : Uint256
  tapUtils : TapUtils

/-- The events of the contract. -/
inductive TapLog
  | transferFromTap (counter : Uint256) (to_ rskToken : Address) (amountWei : Uint256)
      (btcTxId : Bytes32) (btcTxVout : Uint256)
  | transferToTap (counter : Uint256) (from_ : Address) (tapAddress : Bytes)
  | federatorAdded (account : Address)
  | federatorRemoved (account : Address)
  | bridgeableAssetAdded (asset : BridgeableAsset)
  | bridgeableAssetRemoved (rskToken : Address) (tapAssetId : Bytes32)
  deriving DecidableEq

/-- A transfer of tokens the bridge has made. -/
structure TokenTransfer where
  token : Address
  to_ : Address
  amount : Uint256
  deriving DecidableEq

/-- The tokens as the bridge meets them: whether a transfer succeeds. -/
structure TapExternals where
  /-- `token.safeTransfer(to, amount)` by the bridge. -/
  safeTransfer : Address → Address → Uint256 → Bool
  /-- `token.safeTransferFrom(from, bridge, amount)` by the bridge. -/
  safeTransferFrom : Address → Address → Uint256 → Bool

/-- The contract with its surroundings. -/
structure TapWorld where
  /-- `address(this)`. -/
  self : Address
  bridge : TapBridge
  externals : TapExternals
  /-- The transfers of tokens the bridge has made, oldest first. -/
  released : List TokenTransfer
  logs : List TapLog

/-- What a deposit is accepted for. -/
structure TransferFromTap where
  to_ : Address
  transferTapAddress : Bytes
  btcTxId : Bytes32
  btcTxVout : Uint256
  deriving DecidableEq

/-- The public functions of the contract, those it inherits, and moves of the outside world. -/
inductive TapCall (Sig : Type)
  | transferToTap (receiverTapAddress : Bytes)
  | acceptTransferFromTap (t : TransferFromTap) (signatures : List Sig)
  | addBridgeableAsset (asset : BridgeableAsset)
  | removeBridgeableAsset (rskTokenAddress : Address)
  | addFederator (account : Address)
  | removeFederator (account : Address)
  | setNumRequiredSigners (numRequiredSigners : Uint256)
  | setTapUtils (tapUtils : TapUtils)
  -- of `Ownable`
  | transferOwnership (newOwner : Address)
  | renounceOwnership
  -- the outside world
  | externalsChange (externals : TapExternals)

namespace TapBridge

variable {Hash Sig : Type} (C : Crypto Hash Sig) (b : TapBridge)

/-! ## Views -/

def isFederator (account : Address) : Bool := b.federators.any fun federator => federator = account

def isProcessed (btcTxId : Bytes32) (btcTxVout : Uint256) : Bool :=
  b.processedByBtcTxIdAndVout btcTxId btcTxVout

/-- The packed bytes hashed by `getTransferFromTapMessageHash`. -/
def transferFromTapMessage (self : Address) (t : TransferFromTap) : Bytes :=
  ascii "transferFromTap:" ++
  (ofBitVec 20 self ++ (ascii ":" ++
  (ofBitVec 20 t.to_ ++ (ascii ":" ++
  (t.transferTapAddress ++ (ascii ":" ++
  (ofBitVec 32 t.btcTxId ++ (ascii ":" ++
  ofBitVec 32 t.btcTxVout))))))))

def getTransferFromTapMessageHash (self : Address) (t : TransferFromTap) : Hash :=
  C.keccak256 (transferFromTapMessage self t)

/-! ## Signatures -/

/-- The loop over the signatures not yet looked at: `seen` are the signers so far, `sender` the
caller.  It returns the number of confirmations and whether the caller's was among them. -/
def collectConfirmations (signedMessageHash : Hash) (sender : Address) :
    List Address → ℕ → Bool → List Sig → Result (ℕ × Bool)
  | _, numConfirmations, selfSigned, [] => pure (numConfirmations, selfSigned)
  | seen, numConfirmations, selfSigned, signature :: signatures => do
      let recovered ← orError (C.recover signedMessageHash signature) "ECDSA: invalid signature"
      require (recovered ≠ 0) "recover failed"
      require (b.isFederator recovered = true) "not a federator"
      NBTEBridgeAccessControl.checkNotSeen recovered seen
      collectConfirmations signedMessageHash sender (seen ++ [recovered]) (numConfirmations + 1)
        (selfSigned || decide (recovered = sender)) signatures

def validateTransferFromTapSignatures (self sender : Address) (t : TransferFromTap)
    (signatures : List Sig) : Result Unit := do
  let signedMessageHash := C.toEthSignedMessageHash (getTransferFromTapMessageHash C self t)
  let (numConfirmations, selfSigned) ←
    b.collectConfirmations C signedMessageHash sender [] 0 false signatures
  -- the caller signs implicitly
  let numConfirmations := if selfSigned then numConfirmations else numConfirmations + 1
  require (b.numRequiredSigners.toNat ≤ numConfirmations) "not enough confirmations"

/-! ## Owner functions -/

/-- The constructor's check of the federators. -/
def checkNoDuplicates : List Address → Result Unit
  | [] => pure ()
  | federator :: federators => do
      require (federator ∉ federators) "duplicate federator"
      checkNoDuplicates federators

def construct (sender : Address) (tapUtils : TapUtils) (numRequiredSigners : Uint256)
    (federators : List Address) : Result TapBridge := do
  require (numRequiredSigners.toNat ≤ federators.length) "too many required signers"
  require (0 < numRequiredSigners.toNat) "at least one signer required"
  checkNoDuplicates federators
  pure {
    owner := sender
    assetsByRskTokenAddress := fun _ => .unset
    assetsByTaprootAssetId := fun _ => .unset
    processedByBtcTxIdAndVout := fun _ _ => false
    assets := []
    numRequiredSigners := numRequiredSigners
    federators := federators
    numTransfersTotal := 0
    tapUtils := tapUtils }

def onlyOwner (sender : Address) : Result Unit :=
  require (b.owner = sender) "Ownable: caller is not the owner"

/-- The loop of `addBridgeableAsset` over the list. -/
def checkNotListed (asset : BridgeableAsset) : List BridgeableAsset → Result Unit
  | [] => pure ()
  | listed :: assets => do
      require (listed.tapAssetId ≠ asset.tapAssetId) "asset id already added (2)"
      require (listed.rskToken ≠ asset.rskToken) "token already added (2)"
      checkNotListed asset assets

def addBridgeableAsset (asset : BridgeableAsset) : Result TapBridge := do
  require (asset.rskToken ≠ 0) "invalid token address"
  require (asset.tapAssetId ≠ 0) "invalid asset id"
  require ((b.assetsByRskTokenAddress asset.rskToken).rskToken = 0) "token already added"
  require ((b.assetsByTaprootAssetId asset.tapAssetId).rskToken = 0) "asset id already added"
  checkNotListed asset b.assets
  pure { b with
    assetsByRskTokenAddress := Function.update b.assetsByRskTokenAddress asset.rskToken asset
    assetsByTaprootAssetId := Function.update b.assetsByTaprootAssetId asset.tapAssetId asset
    assets := b.assets ++ [asset] }

/-- `values[i] = values[values.length - 1]; values.pop()`. -/
def swapRemove {α : Type} (values : List α) (i : ℕ) : List α :=
  match values.getLast? with
  | none => values
  | some last => (values.set i last).dropLast

def removeBridgeableAsset (rskTokenAddress : Address) : Result (TapBridge × BridgeableAsset) := do
  let asset := b.assetsByRskTokenAddress rskTokenAddress
  require (asset.rskToken ≠ 0) "token not found"
  let assets :=
    match b.assets.findIdx? fun listed => listed.tapAssetId = asset.tapAssetId with
    | some i => swapRemove b.assets i
    | none => b.assets
  pure ({ b with
    assetsByRskTokenAddress := Function.update b.assetsByRskTokenAddress rskTokenAddress .unset
    assetsByTaprootAssetId := Function.update b.assetsByTaprootAssetId asset.tapAssetId .unset
    assets := assets }, asset)

def addFederator (account : Address) : Result TapBridge := do
  require (b.isFederator account = false) "already a federator"
  pure { b with federators := b.federators ++ [account] }

def removeFederator (account : Address) : Result TapBridge := do
  require (b.isFederator account = true) "not a federator"
  pure { b with federators := swapRemove b.federators (b.federators.idxOf account) }

def setNumRequiredSigners (numRequiredSigners : Uint256) : Result TapBridge := do
  require (numRequiredSigners.toNat ≤ b.federators.length) "too many required signers"
  pure { b with numRequiredSigners := numRequiredSigners }

end TapBridge

namespace TapWorld

variable {Hash Sig : Type} (C : Crypto Hash Sig) (w : TapWorld)

/-- The world after an owner function. -/
def withBridge (b : TapBridge) (logs : List TapLog) : TapWorld :=
  { w with bridge := b, logs := w.logs ++ logs }

/-- The asset and the amount a Taproot Asset address stands for. -/
def decodeTransfer (tapAddress : Bytes) : Result (BridgeableAsset × Uint256) := do
  let decoded ← w.bridge.tapUtils.decodeTapAddress tapAddress
  let asset := w.bridge.assetsByTaprootAssetId decoded.assetId
  require (asset.rskToken ≠ 0) "asset not found"
  let rskAmount ← Uint256.mul (decoded.amount.setWidth 256) asset.tapAmountDivisor
  require (0 < rskAmount.toNat) "amount must be greater than 0"
  pure (asset, rskAmount)

def transferToTap (sender : Address) (receiverTapAddress : Bytes) : Result TapWorld := do
  let (asset, rskAmount) ← w.decodeTransfer receiverTapAddress
  require (w.externals.safeTransferFrom asset.rskToken sender rskAmount = true)
    "SafeERC20: operation did not succeed"
  let counter ← Uint256.add w.bridge.numTransfersTotal 1
  pure <| w.withBridge { w.bridge with numTransfersTotal := counter }
    [.transferToTap counter sender receiverTapAddress]

def acceptTransferFromTap (sender : Address) (t : TransferFromTap) (signatures : List Sig) :
    Result TapWorld := do
  require (w.bridge.isFederator sender = true) "only federator"
  require (w.bridge.processedByBtcTxIdAndVout t.btcTxId t.btcTxVout = false) "already processed"
  let (asset, rskAmount) ← w.decodeTransfer t.transferTapAddress
  w.bridge.validateTransferFromTapSignatures C w.self sender t signatures
  let processed := Function.update w.bridge.processedByBtcTxIdAndVout t.btcTxId
    (Function.update (w.bridge.processedByBtcTxIdAndVout t.btcTxId) t.btcTxVout true)
  require (w.externals.safeTransfer asset.rskToken t.to_ rskAmount = true)
    "SafeERC20: operation did not succeed"
  let counter ← Uint256.add w.bridge.numTransfersTotal 1
  pure { w with
    bridge := { w.bridge with
      processedByBtcTxIdAndVout := processed
      numTransfersTotal := counter }
    released := w.released ++ [⟨asset.rskToken, t.to_, rskAmount⟩]
    logs := w.logs ++ [.transferFromTap counter t.to_ asset.rskToken rskAmount t.btcTxId
      t.btcTxVout] }

/-- One call by `sender`. -/
def step (sender : Address) : TapCall Sig → Result TapWorld
  | .transferToTap receiverTapAddress => w.transferToTap sender receiverTapAddress
  | .acceptTransferFromTap t signatures => w.acceptTransferFromTap C sender t signatures
  | .addBridgeableAsset asset => do
      w.bridge.onlyOwner sender
      let b ← w.bridge.addBridgeableAsset asset
      pure (w.withBridge b [.bridgeableAssetAdded asset])
  | .removeBridgeableAsset rskTokenAddress => do
      w.bridge.onlyOwner sender
      let (b, asset) ← w.bridge.removeBridgeableAsset rskTokenAddress
      pure (w.withBridge b [.bridgeableAssetRemoved asset.rskToken asset.tapAssetId])
  | .addFederator account => do
      w.bridge.onlyOwner sender
      let b ← w.bridge.addFederator account
      pure (w.withBridge b [.federatorAdded account])
  | .removeFederator account => do
      w.bridge.onlyOwner sender
      let b ← w.bridge.removeFederator account
      pure (w.withBridge b [.federatorRemoved account])
  | .setNumRequiredSigners numRequiredSigners => do
      w.bridge.onlyOwner sender
      let b ← w.bridge.setNumRequiredSigners numRequiredSigners
      pure (w.withBridge b [])
  | .setTapUtils tapUtils => do
      w.bridge.onlyOwner sender
      pure (w.withBridge { w.bridge with tapUtils := tapUtils } [])
  | .transferOwnership newOwner => do
      w.bridge.onlyOwner sender
      require (newOwner ≠ 0) "Ownable: new owner is the zero address"
      pure (w.withBridge { w.bridge with owner := newOwner } [])
  | .renounceOwnership => do
      w.bridge.onlyOwner sender
      pure (w.withBridge { w.bridge with owner := 0 } [])
  | .externalsChange externals => pure { w with externals := externals }

/-- A contract just deployed. -/
def Deployed (w : TapWorld) : Prop :=
  ∃ sender tapUtils numRequiredSigners federators,
    TapBridge.construct sender tapUtils numRequiredSigners federators = .ok w.bridge ∧
      w.released = [] ∧ w.logs = federators.map .federatorAdded

/-- A successful call.  A call that reverts changes nothing and is no step. -/
def Step (w : TapWorld) (a : Address × TapCall Sig) (w' : TapWorld) : Prop :=
  w.step C a.1 a.2 = .ok w'

end TapWorld

/-- The runs of the contract: the successful calls with their callers, oldest first. -/
abbrev TapRun {Hash Sig : Type} (C : Crypto Hash Sig) :
    List (Address × TapCall Sig) → TapWorld → Prop :=
  Runs.Run TapWorld.Deployed (TapWorld.Step C)

end NbteBridge
