import NbteBridge.Contracts.World
import NbteBridge.Node.Minting

/-!
# The bridge contract as a node calls it

A node's calls are encoded before they reach the contract: addresses, transaction ids and
signatures are texts and amounts are unbounded on its side.  `contractViews` is what the contract
answers in a given state, `acceptTransferFromBtc` the call a mint makes of it.
-/

namespace NbteBridge

open Checked

/-- The encoding of the arguments of a call. -/
structure Abi (Sig : Type) where
  address : String → Option Address
  /-- An address is accepted in its checksummed spelling only. -/
  address_inj : ∀ s s' a, address s = some a → address s' = some a → s = s'
  bytes32 : String → Option Bytes32
  /-- A signature's bytes. -/
  bytes : String → Option Sig

namespace Abi

variable {Sig : Type} (abi : Abi Sig)

def uint256 (n : ℤ) : PyResult Uint256 := do
  require (0 ≤ n ∧ n < 2 ^ 256) (.valueError "value out of range")
  pure (BitVec.ofInt 256 n)

/-- What a mint of a deposit is a transfer of. -/
def transferFromBtc (evmAddress : String) (runeNumber : ℕ) (netRuneAmount : ℤ) (btcTxid : String)
    (btcVout : ℕ) : PyResult TransferFromBtc := do
  let to_ ← orError (abi.address evmAddress) (.other "InvalidAddress")
  let rune ← uint256 runeNumber
  let runeAmount ← uint256 netRuneAmount
  let btcTxId ← orError (abi.bytes32 btcTxid) (.other "not 32 bytes")
  let btcTxVout ← uint256 btcVout
  pure ⟨to_, rune, runeAmount, btcTxId, btcTxVout⟩

/-- The arguments of `acceptTransferFromBtc`. -/
def acceptTransferFromBtc (call : AcceptTransferCall) : PyResult (TransferFromBtc × List Sig) := do
  let t ← abi.transferFromBtc call.evmAddress call.runeNumber call.netRuneAmount call.btcTxid
    call.btcVout
  let signatures ← orError (call.signatures.mapM abi.bytes) (.other "not bytes")
  pure (t, signatures)

end Abi

/-- A call's answer; one that reverts raises. -/
def ofCall {α : Type} (answer : Result α) : PyResult α :=
  match answer with
  | .ok a => .ok a
  | .error text => .error (.other text)

@[simp] lemma ofCall_eq_ok {α : Type} {answer : Result α} {a : α} :
    ofCall answer = .ok a ↔ answer = .ok a := by
  cases answer <;> simp [ofCall]

section Views

variable {T R : Type} [Erc20 T] [AccessControlEnumerable R] {Hash Sig : Type}

/-- What the views of the bridge in state `w` answer. -/
def World.contractViews (abi : Abi Sig) (C : Crypto Hash Sig) (w : World T R) :
    RuneBridgeContractViews Hash where
  isRuneRegistered n := do
    let rune ← Abi.uint256 n
    pure (w.bridge.isRuneRegistered rune)
  isRunePaused n := do
    let rune ← Abi.uint256 n
    pure (w.bridge.isRunePaused rune)
  frozen := pure w.bridge.frozen
  isFederator a := do
    let address ← orError (abi.address a) (.other "InvalidAddress")
    let ac ← ofCall w.accessControl
    pure (ac.isFederator address)
  numRequiredFederators := do
    let ac ← ofCall w.accessControl
    pure ac.numRequiredFederators
  getAcceptTransferFromBtcMessageHash evmAddress rune amount txid vout := do
    let t ← abi.transferFromBtc evmAddress rune amount txid vout
    pure (getAcceptTransferFromBtcMessageHash C w.self t)

end Views

/-- The answers of `views` are those of `real`, where there are any. -/
structure RuneBridgeContractViews.Reads {Hash : Type}
    (views real : RuneBridgeContractViews Hash) : Prop where
  isRuneRegistered : ∀ n b, views.isRuneRegistered n = .ok b → real.isRuneRegistered n = .ok b
  isRunePaused : ∀ n b, views.isRunePaused n = .ok b → real.isRunePaused n = .ok b
  frozen : ∀ b, views.frozen = .ok b → real.frozen = .ok b
  isFederator : ∀ a b, views.isFederator a = .ok b → real.isFederator a = .ok b
  numRequiredFederators : ∀ n, views.numRequiredFederators = .ok n →
    real.numRequiredFederators = .ok n
  messageHash : ∀ evmAddress rune amount txid vout h,
    views.getAcceptTransferFromBtcMessageHash evmAddress rune amount txid vout = .ok h →
      real.getAcceptTransferFromBtcMessageHash evmAddress rune amount txid vout = .ok h

lemma RuneBridgeContractViews.Reads.refl {Hash : Type} (views : RuneBridgeContractViews Hash) :
    views.Reads views :=
  ⟨fun _ _ h => h, fun _ _ h => h, fun _ h => h, fun _ _ h => h, fun _ h => h,
    fun _ _ _ _ _ _ h => h⟩

end NbteBridge
