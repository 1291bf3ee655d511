import NbteBridge.Btc.Types
import NbteBridge.Foundations.Effects
import NbteBridge.Foundations.Table

/-!
# RskToTapService

How the leader sends Taproot Assets for the transfers it has seen on Rootstock.  It forms a batch of
the oldest transfers that are in none, says in the database that it is about to send, and sends the
assets of the whole batch with one call, which may take effect although it raises.  A batch that was
left at that point stays there: no later one is formed, and somebody has to look.

The scan adds transfers at any time, and the process may stop between any two calls.
-/

namespace NbteBridge

open Checked Effects Tables

/-! ## Rows -/

inductive RskToTapTransferBatchStatus
  | created
  | sendingToTap
  | sentToTap
  | finalized
  deriving DecidableEq

/-- `RskToTapTransfer`, tokens burnt or locked on Rootstock; its `counter` is unique. -/
structure RskToTapTransfer where
  counter : ℕ
  recipientTapAddress : String
  transferBatchId : Option ℕ
  deriving DecidableEq

/-- `RskToTapTransferBatch`, transfers that are sent together. -/
structure RskToTapTransferBatch (Result : Type) where
  status : RskToTapTransferBatchStatus
  /-- What sending returned. -/
  sendingResult : Option Result

/-- The tables of transfers to tap, both by row number. -/
structure RskToTapDb (Result : Type) where
  transfers : Table ℕ RskToTapTransfer
  batches : Table ℕ (RskToTapTransferBatch Result)

namespace RskToTapDb

variable {Result : Type}

def empty : RskToTapDb Result := ⟨.empty, .empty⟩

/-- Rows sorted by `counter`. -/
def byCounter (rows : List (ℕ × RskToTapTransfer)) : List (ℕ × RskToTapTransfer) :=
  rows.insertionSort fun p q => p.2.counter ≤ q.2.counter

variable (db : RskToTapDb Result)

/-- The rows of a batch, in the order they were added. -/
def members (batchId : ℕ) : List (ℕ × RskToTapTransfer) :=
  db.transfers.rows.filter fun p => p.2.transferBatchId = some batchId

/-- The rows of no batch, in the order they were added. -/
def unbatched : List (ℕ × RskToTapTransfer) :=
  db.transfers.rows.filter fun p => p.2.transferBatchId = none

/-- `RskToTapTransferBatch.transfers`. -/
def batchTransfers (batchId : ℕ) : List RskToTapTransfer :=
  (byCounter (db.members batchId)).map Prod.snd

def setBatch (batchId : ℕ) (batch : RskToTapTransferBatch Result) : RskToTapDb Result :=
  { db with batches := db.batches.set batchId batch }

def setTransfer (dbId : ℕ) (t : RskToTapTransfer) : RskToTapDb Result :=
  { db with transfers := db.transfers.set dbId t }

/-- Put these rows into a batch. -/
def assign (dbIds : List ℕ) (batchId : ℕ) : RskToTapDb Result :=
  { db with
    transfers := db.transfers.mapRows fun dbId t =>
      if dbId ∈ dbIds then { t with transferBatchId := some batchId } else t }

/-- `query(RskToTapTransferBatch).get(batch_id)`, of which an attribute is then read. -/
def getBatch (batchId : ℕ) : PyResult (RskToTapTransferBatch Result) :=
  orError (db.batches.get? batchId) (.other "AttributeError")

end RskToTapDb

/-! ## Calls -/

/-- The calls of the service.  What `transaction` runs is committed when it succeeds; a row that it
adds gets the number it is given. -/
inductive RskToTapOp (Result : Type) : Type 1
  | transaction {β : Type} (body : ℕ → RskToTapDb Result → PyResult (β × RskToTapDb Result))
  /-- `send_assets`, for the transfers of a batch. -/
  | sendAssets (batchId : ℕ) (recipients : List String)

def RskToTapOp.Resp {Result : Type} : RskToTapOp Result → Type
  | transaction (β := β) _ => β
  | sendAssets .. => Result

/-- A program of the service. -/
abbrev RskToTapProg (Result : Type) : Type → Type 1 :=
  Prog (RskToTapOp Result) RskToTapOp.Resp PyError

namespace RskToTapProg

variable {Result : Type}

def transaction {β : Type} (body : ℕ → RskToTapDb Result → PyResult (β × RskToTapDb Result)) :
    RskToTapProg Result β :=
  Prog.perform (RskToTapOp.transaction body)

def sendAssets (batchId : ℕ) (recipients : List String) : RskToTapProg Result Result :=
  Prog.perform (RskToTapOp.sendAssets batchId recipients)

end RskToTapProg

/-! ## The service -/

structure RskToTapService where
  batchLimit : ℕ

namespace RskToTapService

variable {Result : Type} (service : RskToTapService)

/-- `_get_or_create_current_batch`: the batch and its row. -/
def getOrCreateCurrentBatch (newId : ℕ) (db : RskToTapDb Result) :
    PyResult (Option (ℕ × RskToTapTransferBatch Result) × RskToTapDb Result) :=
  match (db.batches.rows.filter fun p => p.2.status ≠ .finalized).argmin Prod.fst with
  | some currentBatch => pure (some currentBatch, db)
  | none =>
      match (RskToTapDb.byCounter db.unbatched).take service.batchLimit with
      | [] => pure (none, db)
      | transfers => do
          require (newId ∉ db.batches.keys) (.other "IntegrityError")
          let currentBatch : RskToTapTransferBatch Result := ⟨.created, none⟩
          pure (some (newId, currentBatch),
            (db.setBatch newId currentBatch).assign (transfers.map Prod.fst) newId)

/-- The transaction that says that the batch is sent, with the recipients. -/
def startSending (batchId : ℕ) (db : RskToTapDb Result) :
    PyResult (List String × RskToTapDb Result) := do
  let batch ← db.getBatch batchId
  require (batch.status = .created) (.other "AssertionError")
  let db := db.setBatch batchId { batch with status := .sendingToTap }
  pure ((db.batchTransfers batchId).map RskToTapTransfer.recipientTapAddress, db)

/-- The sanity check. -/
def checkSending (batchId : ℕ) (db : RskToTapDb Result) : PyResult (Unit × RskToTapDb Result) := do
  let batch ← orError (db.batches.get? batchId) (.other "NoResultFound")
  require (batch.status = .sendingToTap) (.other "AssertionError")
  pure ((), db)

/-- The transaction after sending. -/
def finishSending (batchId : ℕ) (sendResult : Result) (db : RskToTapDb Result) :
    PyResult (Unit × RskToTapDb Result) := do
  let batch ← db.getBatch batchId
  require (batch.status = .sendingToTap) (.other "AssertionError")
  pure ((), db.setBatch batchId ⟨.sentToTap, some sendResult⟩)

/-- The last transaction. -/
def finalize (batchId : ℕ) (db : RskToTapDb Result) : PyResult (Unit × RskToTapDb Result) := do
  let batch ← db.getBatch batchId
  require (batch.status = .sentToTap) (.other "AssertionError")
  pure ((), db.setBatch batchId { batch with status := .finalized })

/-- From a new batch to one that is sent; the status after it. -/
def send (batchId : ℕ) : RskToTapProg Result RskToTapTransferBatchStatus := do
  let recipients ← RskToTapProg.transaction fun _ db => startSending batchId db
  RskToTapProg.transaction fun _ db => checkSending batchId db
  let sendResult ← RskToTapProg.sendAssets batchId recipients
  RskToTapProg.transaction fun _ db => finishSending batchId sendResult db
  pure .sentToTap

/-- What happens to the batch from the status it is in. -/
def processBatch (batchId : ℕ) (status : RskToTapTransferBatchStatus) :
    RskToTapProg Result Unit := do
  let status ← (if status = .created then send batchId else pure status)
  if status = .sendingToTap then
    throw (.other "Batch left in SENDING_TO_TAP state, cannot safely proceed further")
  else if status = .sentToTap then
    RskToTapProg.transaction fun _ db => finalize batchId db
  else
    pure ()

def processCurrentTransferBatch : RskToTapProg Result Unit := do
  let current ← RskToTapProg.transaction service.getOrCreateCurrentBatch
  match current with
  | none => pure ()
  | some (batchId, batch) => processBatch batchId batch.status

end RskToTapService

/-! ## The leader's surroundings -/

/-- A call of `send_assets`, whatever came of it. -/
structure SentAssets where
  batchId : ℕ
  recipients : List String
  deriving DecidableEq

structure RskToTapLeader (Result : Type) where
  db : RskToTapDb Result
  /-- The calls so far, oldest first. -/
  sent : List SentAssets

namespace RskToTapLeader

variable {Result : Type}

/-- The scan sees a transfer. -/
inductive Moves : RskToTapLeader Result → RskToTapLeader Result → Prop
  | seen {s : RskToTapLeader Result} {dbId : ℕ} {t : RskToTapTransfer}
      (new : s.db.transfers.get? dbId = none) (unbatched : t.transferBatchId = none)
      (unseen : ∀ p ∈ s.db.transfers.rows, p.2.counter ≠ t.counter) :
      Moves s { s with db := s.db.setTransfer dbId t }

/-- What a call may do. -/
inductive Does : RskToTapLeader Result → (o : RskToTapOp Result) → PyResult o.Resp →
    RskToTapLeader Result → Prop
  | committed {s : RskToTapLeader Result} {β : Type}
      {body : ℕ → RskToTapDb Result → PyResult (β × RskToTapDb Result)} {newId : ℕ} {b : β}
      {db : RskToTapDb Result} (h : body newId s.db = .ok (b, db)) :
      Does s (.transaction body) (.ok b) { s with db := db }
  /-- The commit raises, but takes effect. -/
  | commitRaised {s : RskToTapLeader Result} {β : Type}
      {body : ℕ → RskToTapDb Result → PyResult (β × RskToTapDb Result)} {newId : ℕ} {b : β}
      {db : RskToTapDb Result} (h : body newId s.db = .ok (b, db)) (e : PyError) :
      Does s (.transaction body) (.error e) { s with db := db }
  | rolledBack (s : RskToTapLeader Result) {β : Type}
      (body : ℕ → RskToTapDb Result → PyResult (β × RskToTapDb Result)) (e : PyError) :
      Does s (.transaction body) (.error e) s
  /-- The assets are asked for; whether they are sent or not, the call may raise. -/
  | called (s : RskToTapLeader Result) (batchId : ℕ) (recipients : List String)
      (r : PyResult Result) :
      Does s (.sendAssets batchId recipients) r
        { s with sent := s.sent ++ [⟨batchId, recipients⟩] }

/-- The world the leader runs in. -/
def world (Result : Type) :
    Effects.World (RskToTapOp Result) RskToTapOp.Resp PyError (RskToTapLeader Result) where
  Does := Does
  Moves := Moves

/-- A leader that has done nothing yet. -/
def Started (s : RskToTapLeader Result) : Prop := s.db = .empty ∧ s.sent = []

end RskToTapLeader

end NbteBridge
