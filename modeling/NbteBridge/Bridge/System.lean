import NbteBridge.Contracts.MintAuthorisation
import NbteBridge.Contracts.TransferEvents
import NbteBridge.Node.Contract
import NbteBridge.Node.DepositFees
import NbteBridge.Node.EventScan
import NbteBridge.Node.Federation
import NbteBridge.Node.MintCheck
import NbteBridge.Node.PayoutCheck
import NbteBridge.Ord.Mined

/-!
# The bridge as one system

The contracts, the nodes and Bitcoin together.  Anyone calls the contracts and has transactions
mined, at any time; the honest nodes do their own transactions and sign the mints and payouts they
are asked to sign, whoever asks; the faulty ones sign what they like.

What a step takes from the world around it is that signatures cannot be forged, that the contracts'
federators and the multisig's key holders have an honest majority, and that `ord` and the EVM node
of an honest node tell the truth.  What it does not take for granted is what the nodes leave
unchecked: that a mint they sign is of a deposit, and that a payout they sign is covered by its
inputs and is the only one of its event.  These are conditions of their own (`MintsDeposits`,
`PaysCovered`), so that it stays visible what each result rests on.
-/

namespace NbteBridge

open Checked Coins Runs

/-- What is fixed about a bridge. -/
structure BridgeSetup (Node Hash Sig : Type) where
  federation : Federation Node Hash
  abi : Abi Sig
  crypto : Crypto Hash Sig
  /-- Who made a signature, and over which hash. -/
  signed : Sig → Address × Hash
  idOf : Rune → Runes.RuneId
  codec : Codec
  /-- The script of the multisig's change address. -/
  changeScript : Script
  /-- The scripts of the users' deposit addresses. -/
  isDeposit : Script → Bool
  /-- The transaction and the log index of each release on the EVM chain. -/
  keyOf : ℕ → RuneTokenDepositKey

structure BridgeState (Node T R Hash : Type) where
  world : World T R
  nodes : FederationState Node Hash
  /-- The mints signed by honest nodes. -/
  attested : List (Node × Hash)
  /-- The transactions in Bitcoin's blocks. -/
  mined : List MinedTransaction

inductive BridgeAction (Node Hash Sig : Type)
  | call (m : Msg) (call : Call Sig)
  | node (a : FederationAction Node Hash)
  /-- A node is asked to sign a mint. -/
  | signMint (node : Node) (views : Views Hash) (question : SignRuneToEvmTransferQuestion)
  | mine (m : MinedTransaction)

/-- The contract calls of a run. -/
def BridgeAction.callsOf {Node Hash Sig : Type} (tr : List (BridgeAction Node Hash Sig)) :
    List (Msg × Call Sig) :=
  tr.filterMap fun
    | .call m c => some (m, c)
    | _ => none

namespace BridgeSetup

variable {Node T R Hash Sig : Type} [Erc20 T] [AccessControlEnumerable R]
  (B : BridgeSetup Node Hash Sig)

/-- The multisig can spend from these scripts. -/
def custody (script : Script) : Bool := B.isDeposit script || decide (script = B.changeScript)

def isChange (script : Script) : Bool := decide (script = B.changeScript)

/-- The address of an honest node's account. -/
def Honest (a : Address) : Prop :=
  ∃ node ∉ B.federation.faulty,
    B.abi.address (B.federation.service node).evmAccount.address = some a

/-- What holds of the libraries, the names and the nodes' configurations. -/
structure Lawful : Prop where
  ideal : B.crypto.Ideal {a | B.Honest a} B.signed
  idOf_injective : Function.Injective B.idOf
  block_pos : ∀ r, 0 < (B.idOf r).block
  codec : B.codec.Lawful
  change_notOpReturn : B.codec.isOpReturn B.changeScript = false
  change_notDeposit : B.isDeposit B.changeScript = false
  keyOf_injective : Function.Injective B.keyOf
  nodes_codec : ∀ node, (B.federation.service node).codec = B.codec
  nodes_change : ∀ node,
    (B.federation.service node).ordMultisig.changeScriptPubkey = B.changeScript
  nodes_fee : ∀ node,
    IsFeePercentage (B.federation.service node).config.runesToEvmFeePercentageDecimal

/-! ## What a step can count on -/

/-- An event an EVM node shows of the release with this index. -/
structure Shows (w : World T R) (i : ℕ) (key : RuneTokenDepositKey) (rune : ℕ) (netRuneAmount : ℤ) :
    Prop where
  key : B.keyOf i = key
  release : ∃ r, w.releases[i]? = some r ∧ rune = r.rune.toNat ∧
    netRuneAmount = r.netRuneAmount.toNat

/-- What an honest node's EVM node and `ord` answer is so. -/
def Truthful (s : BridgeState Node T R Hash) : FederationAction Node Hash → Prop
  | .work node views _ => ∀ head, views.evm.blockNumber = .ok head →
      ∀ first last events, last ≤ head - (B.federation.service node).config.evmBlockSafetyMargin →
        views.evm.getLogs first last = .ok events → ∀ event ∈ events,
          ∃ i, B.Shows s.world i event.key event.rune event.netRuneAmount
  | .ask _ views _ => views.ordClient.Resolves B.idOf
  | .forge _ => True

/-- The signatures of a mint: an honest node's over its hash is one it gave, and most federators are
honest nodes. -/
structure Unforged (s : BridgeState Node T R Hash) (t : TransferFromBtc) (signatures : List Sig) :
    Prop where
  given : ∀ signature ∈ signatures, ∀ node ∉ B.federation.faulty, ∀ a,
    B.abi.address (B.federation.service node).evmAccount.address = some a →
    B.signed signature = (a, B.crypto.toEthSignedMessageHash
      (getAcceptTransferFromBtcMessageHash B.crypto s.world.self t)) →
    (node, getAcceptTransferFromBtcMessageHash B.crypto s.world.self t) ∈ s.attested
  honest : ∀ ac, s.world.accessControls s.world.bridge.accessControl = some ac →
    ∀ federators signers : List Address, federators.Nodup →
      (∀ a, a ∈ federators ↔ ac.isFederator a = true) → signers.Nodup →
      federators.length / 2 + 1 ≤ signers.length → (∀ a ∈ signers, a ∈ federators) →
      ∃ a ∈ signers, B.Honest a

/-- Enough key holders have signed the transaction. -/
def FullySigned (nodes : FederationState Node Hash) (tx : Transaction) : Prop :=
  ∃ holders : Finset Node, B.federation.numRequiredSigners ≤ holders.card ∧
    ∀ node ∈ holders, ∃ signature ∈ nodes.signed, signature.signer = node ∧ signature.tx = tx

/-- The transaction spends an output of the multisig. -/
def SpendsCustody (mined : List MinedTransaction) (tx : Transaction) : Prop :=
  ∃ coin ∈ made (paymentsOf mined), coin.id ∈ tx.vin ∧ B.custody coin.owner = true

/-! ## Steps -/

variable [DecidableEq Node]

inductive Step : BridgeState Node T R Hash → BridgeAction Node Hash Sig →
    BridgeState Node T R Hash → Prop
  | call {s : BridgeState Node T R Hash} {m : Msg} {call : Call Sig} {world : World T R}
      (hunforged : ∀ t signatures, call = .acceptTransferFromBtc t signatures →
        B.Unforged s t signatures)
      (h : World.Step B.crypto s.world (m, call) world) :
      Step s (.call m call) { s with world := world }
  | node {s : BridgeState Node T R Hash} {a : FederationAction Node Hash}
      {nodes : FederationState Node Hash} (htruthful : B.Truthful s a)
      (h : B.federation.Step s.nodes a nodes) :
      Step s (.node a) { s with nodes := nodes }
  | signMint {s : BridgeState Node T R Hash} {node : Node} {views : Views Hash}
      {question : SignRuneToEvmTransferQuestion} {answer : SignRuneToEvmTransferAnswer Hash}
      (honest : node ∉ B.federation.faulty)
      (hreports : ∀ output, views.ordClient.getOrdOutput question.transfer.txid
          question.transfer.vout = .ok output →
        views.ordClient.Reports B.idOf (chainOf s.mined) question.transfer.outpoint)
      (hreads : views.contract.Reads (s.world.contractViews B.abi B.crypto))
      (h : (B.federation.service node).answerSignRuneToEvmTransferQuestion views question =
        .ok answer) :
      Step s (.signMint node views question)
        { s with attested := s.attested ++ [(node, answer.messageHash)] }
  | mine {s : BridgeState Node T R Hash} {m : MinedTransaction}
      (hminable : Minable B.codec s.mined m)
      (hsigned : B.SpendsCustody s.mined m.tx → B.FullySigned s.nodes m.tx) :
      Step s (.mine m) { s with mined := s.mined ++ [m] }

/-- A bridge just deployed, and a multisig that has received nothing yet. -/
structure Start (s : BridgeState Node T R Hash) : Prop where
  world : s.world.Initialized
  nodes : Federation.Start s.nodes
  attested : s.attested = []
  mined : MinedInOrder s.mined
  unfunded : ∀ coin ∈ made (paymentsOf s.mined), B.custody coin.owner = false

/-! ## What the nodes leave unchecked -/

/-- A mint to be signed is of an output at a deposit address. -/
def MintsDeposits (s : BridgeState Node T R Hash) : BridgeAction Node Hash Sig → Prop
  | .signMint _ _ question => ∀ coin ∈ made (paymentsOf s.mined),
      coin.id = question.transfer.outpoint → B.isDeposit coin.owner = true
  | _ => True

/-- The inputs of a payout to be signed are there and cover it, whatever it issues. -/
def Covered (s : BridgeState Node T R Hash) : FederationAction Node Hash → Prop
  | .ask node _ question => ∀ psbt,
      (B.federation.service node).psbtCodec.fromBase64 question.unsignedPsbtSerialized = .ok psbt →
      (∀ o ∈ psbt.unsignedTx.vin, o ∈ outpointsOf s.mined) ∧
      ∀ i, CoveredPayout B.idOf B.codec (chainOf s.mined) i B.changeScript psbt.unsignedTx
        (RuneBridgeService.questionTransfers question)
  | _ => True

/-- A payout to be signed is covered, and cannot confirm next to one already signed for its
event. -/
def PaysCovered (s : BridgeState Node T R Hash) : BridgeAction Node Hash Sig → Prop
  | .node a => B.Covered s a ∧ ¬ B.federation.AskedAgain s.nodes a
  | _ => True

/-- Runs of the bridge whose steps all meet a condition. -/
abbrev RunWith (condition : BridgeState Node T R Hash → BridgeAction Node Hash Sig → Prop) :=
  Run (B.Start (T := T) (R := R)) fun s a s' => condition s a ∧ B.Step s a s'

end BridgeSetup

end NbteBridge
