import NbteBridge.Contracts.TapRelease
import NbteBridge.TapRsk.TapToRsk

/-!
# The leader and the chain

The leader's database, the tap bridge, and the transactions the leader has sent.  A transaction may
be mined at any later time, succeed or be reverted, or never be mined.  Anyone else may call the
contract, the scan adds deposits, and the answers of a node that is no leader add batches without
transfers.

Any call may raise.  A database transaction may be committed although its commit raises, and a
transaction may be sent although `transact` raises.
-/

namespace NbteBridge

open Checked Effects Tables

/-- A transaction the leader has sent, with the batch it was sent for. -/
structure SentTx (Sig : Type) where
  batchId : ℕ
  transfer : TransferFromTap
  signatures : List Sig
  /-- Whether it succeeded, once it is mined. -/
  receipt : Option Bool

/-- The leader's surroundings. -/
structure TapLeader (Hash Sig : Type) where
  db : TapDb Hash Sig
  chain : TapWorld
  /-- The transactions the leader has sent, oldest first. -/
  sent : List (SentTx Sig)

namespace TapLeader

variable {Hash Sig : Type} (C : Crypto Hash Sig) (rskAccount : Address)

/-- What happens between the calls of the leader. -/
inductive Moves : TapLeader Hash Sig → TapLeader Hash Sig → Prop
  | called {s : TapLeader Hash Sig} {sender : Address} {call : TapCall Sig} {chain : TapWorld}
      (h : TapWorld.Step C s.chain (sender, call) chain) : Moves s { s with chain := chain }
  | mined {s : TapLeader Hash Sig} {i : ℕ} {tx : SentTx Sig} {chain : TapWorld}
      (sent : s.sent[i]? = some tx) (pending : tx.receipt = none)
      (h : s.chain.acceptTransferFromTap C rskAccount tx.transfer tx.signatures = .ok chain) :
      Moves s { s with chain := chain, sent := s.sent.set i { tx with receipt := some true } }
  /-- The contract refuses, or the gas does not suffice. -/
  | reverted {s : TapLeader Hash Sig} {i : ℕ} {tx : SentTx Sig}
      (sent : s.sent[i]? = some tx) (pending : tx.receipt = none) :
      Moves s { s with sent := s.sent.set i { tx with receipt := some false } }
  /-- The scan of deposits. -/
  | deposited {s : TapLeader Hash Sig} {dbId : ℕ} {t : TapToRskTransfer}
      (new : s.db.transfers.get? dbId = none) (unbatched : t.transferBatchId = none)
      (unseen : ∀ p ∈ s.db.transfers.rows, p.2.outpoint ≠ t.outpoint) :
      Moves s { s with db := s.db.setTransfer dbId t }
  /-- An answer given when the node was no leader. -/
  | answered {s : TapLeader Hash Sig} {batch : TapToRskTransferBatch Hash Sig}
      (created : batch.status = .created) (unsent : batch.executedTxHash = none) :
      Moves s { s with db := s.db.setBatch s.db.nextBatchId batch }

/-- What a call that is no transaction may do: its result, and the transactions sent after it. -/
def Answers (s : TapLeader Hash Sig) : (o : TapOp Hash Sig) → o.Resp → List (SentTx Sig) → Prop
  | .transaction _, _, _ => False
  | .getFederators, federators, sent => federators = s.chain.bridge.federators ∧ sent = s.sent
  | .numRequiredSigners, numRequiredSigners, sent =>
      numRequiredSigners = s.chain.bridge.numRequiredSigners.toNat ∧ sent = s.sent
  | .getTransferFromTapMessageHash t, messageHash, sent =>
      messageHash = TapBridge.getTransferFromTapMessageHash C s.chain.self t ∧ sent = s.sent
  | .ask _, _, sent => sent = s.sent
  | .transact batchId t signatures, txHash, sent =>
      txHash = s.sent.length ∧ sent = s.sent ++ [⟨batchId, t, signatures, none⟩]
  | .waitForTransactionReceipt txHash, status, sent =>
      (∃ h tx, txHash = some h ∧ s.sent[h]? = some tx ∧ tx.receipt = some status) ∧ sent = s.sent

/-- What a call may do. -/
inductive Does : TapLeader Hash Sig → (o : TapOp Hash Sig) → PyResult o.Resp →
    TapLeader Hash Sig → Prop
  | committed {s : TapLeader Hash Sig} {β : Type}
      {body : Ordering → TapDb Hash Sig → PyResult (β × TapDb Hash Sig)} {σ : Ordering} {b : β}
      {db : TapDb Hash Sig} (h : body σ s.db = .ok (b, db)) :
      Does s (.transaction body) (.ok b) { s with db := db }
  /-- The commit raises, but takes effect. -/
  | commitRaised {s : TapLeader Hash Sig} {β : Type}
      {body : Ordering → TapDb Hash Sig → PyResult (β × TapDb Hash Sig)} {σ : Ordering} {b : β}
      {db : TapDb Hash Sig} (h : body σ s.db = .ok (b, db)) (e : PyError) :
      Does s (.transaction body) (.error e) { s with db := db }
  | answered {s : TapLeader Hash Sig} {o : TapOp Hash Sig} {r : o.Resp} {sent : List (SentTx Sig)}
      (h : s.Answers C o r sent) : Does s o (.ok r) { s with sent := sent }
  /-- The call takes effect, but raises. -/
  | answerRaised {s : TapLeader Hash Sig} {o : TapOp Hash Sig} {r : o.Resp}
      {sent : List (SentTx Sig)} (h : s.Answers C o r sent) (e : PyError) :
      Does s o (.error e) { s with sent := sent }
  | raised (s : TapLeader Hash Sig) (o : TapOp Hash Sig) (e : PyError) : Does s o (.error e) s

/-- The world the leader with an account runs in. -/
def world : Effects.World (TapOp Hash Sig) TapOp.Resp PyError (TapLeader Hash Sig) where
  Does := Does C
  Moves := Moves C rskAccount

/-- A leader that has done nothing yet. -/
def Started (s : TapLeader Hash Sig) : Prop := s.db = .empty ∧ s.sent = []

end TapLeader

end NbteBridge
