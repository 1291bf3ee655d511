import NbteBridge.Foundations.Effects
import NbteBridge.TapRsk.Models

/-!
# TapToRskService

How the leader takes a batch of transfers from one status to the next: it forms a batch, collects
signatures, sends one transaction per transfer, and waits for the last of them.  Between the
database transactions are calls to the contract, to the other nodes and to the EVM chain; the
program is the tree of all these calls.

The leader is the only one to change the batches it works on.  A node that is no leader adds rows of
its own when it answers, which have no transfers.
-/

namespace NbteBridge

open Checked Effects Tables

/-- What the service is made of. -/
structure TapToRskService (Hash Sig : Type) where
  keccak : Keccak Hash
  /-- `recover_message`, of the prefixed hash. -/
  recoverMessage : Hash → Sig → PyResult Address
  batchLimit : ℕ

/-! ## Calls -/

/-- The calls of the service.  What `transaction` runs is committed when it succeeds. -/
inductive TapOp (Hash Sig : Type) : Type 1
  | transaction {β : Type} (body : Ordering → TapDb Hash Sig → PyResult (β × TapDb Hash Sig))
  | getFederators
  | numRequiredSigners
  | getTransferFromTapMessageHash (t : TransferFromTap)
  | ask (serializedBatch : SerializedTapToRskTransferBatch Hash Sig)
  /-- `acceptTransferFromTap(..).transact(..)`, for a transfer of a batch. -/
  | transact (batchId : ℕ) (t : TransferFromTap) (signatures : List Sig)
  | waitForTransactionReceipt (txHash : Option ℕ)

namespace TapOp

variable {Hash Sig : Type}

def Resp : TapOp Hash Sig → Type
  | transaction (β := β) _ => β
  | getFederators => List Address
  | numRequiredSigners => ℕ
  | getTransferFromTapMessageHash _ => Hash
  | ask _ => List (SignTransferBatchAnswer Sig)
  | transact .. => ℕ
  | waitForTransactionReceipt _ => Bool

end TapOp

/-- A program of the service. -/
abbrev TapProg (Hash Sig : Type) : Type → Type 1 :=
  Prog (TapOp Hash Sig) TapOp.Resp PyError

namespace TapProg

variable {Hash Sig : Type}

def transaction {β : Type} (body : Ordering → TapDb Hash Sig → PyResult (β × TapDb Hash Sig)) :
    TapProg Hash Sig β :=
  Prog.perform (TapOp.transaction body)

def getFederators : TapProg Hash Sig (List Address) := Prog.perform TapOp.getFederators

def numRequiredSigners : TapProg Hash Sig ℕ := Prog.perform TapOp.numRequiredSigners

def getTransferFromTapMessageHash (t : TransferFromTap) : TapProg Hash Sig Hash :=
  Prog.perform (TapOp.getTransferFromTapMessageHash t)

def ask (serializedBatch : SerializedTapToRskTransferBatch Hash Sig) :
    TapProg Hash Sig (List (SignTransferBatchAnswer Sig)) :=
  Prog.perform (TapOp.ask serializedBatch)

def transact (batchId : ℕ) (t : TransferFromTap) (signatures : List Sig) : TapProg Hash Sig ℕ :=
  Prog.perform (TapOp.transact batchId t signatures)

def waitForTransactionReceipt (txHash : Option ℕ) : TapProg Hash Sig Bool :=
  Prog.perform (TapOp.waitForTransactionReceipt txHash)

end TapProg

/-- `zip(*lists)`: the first elements, the second elements, and so on while all lists last. -/
def zipAll {α : Type} : List (List α) → List (List α)
  | [] => []
  | [as] => as.map fun a => [a]
  | as :: lists => List.zipWith List.cons as (zipAll lists)

/-- The current batch, as the first transaction leaves it. -/
structure CurrentBatch (Hash Sig : Type) where
  batchId : ℕ
  status : TapToRskTransferBatchStatus
  numTransfers : ℕ
  signaturesBySigner : Table Address (List Sig)
  serializedBatch : SerializedTapToRskTransferBatch Hash Sig

namespace TapToRskService

variable {Hash Sig : Type} [DecidableEq Hash] (service : TapToRskService Hash Sig)

/-! ## The current batch -/

/-- `_get_or_create_current_batch`: the batch, its row and its transfers. -/
def getOrCreateCurrentBatch (σ : Ordering) (db : TapDb Hash Sig) :
    PyResult (Option (ℕ × TapToRskTransferBatch Hash Sig × List TapToRskTransfer) ×
      TapDb Hash Sig) :=
  match (db.batches.rows.filter fun p => p.2.status ≠ .finalized).argmin Prod.fst with
  | some (batchId, batch) => pure (some (batchId, batch, db.batchTransfers σ batchId), db)
  | none =>
      match (σ.sort db.unbatched).take service.batchLimit with
      | [] => pure (none, db)
      | transfers => do
          let batchId := db.nextBatchId
          let batch : TapToRskTransferBatch Hash Sig := {
            hash := TapToRskTransferBatch.computeHash service.keccak (transfers.map Prod.snd)
            status := .created
            signatures := .empty
            executedTxHash := none }
          require (∀ p ∈ db.batches.rows, p.2.hash ≠ batch.hash) (.other "IntegrityError")
          let db := (db.setBatch batchId batch).assign (transfers.map Prod.fst) batchId
          pure (some (batchId, batch, transfers.map Prod.snd), db)

def currentBatch (σ : Ordering) (db : TapDb Hash Sig) :
    PyResult (Option (CurrentBatch Hash Sig) × TapDb Hash Sig) := do
  let (current, db) ← service.getOrCreateCurrentBatch σ db
  pure (current.map fun (batchId, batch, transfers) => {
    batchId := batchId
    status := batch.status
    numTransfers := transfers.length
    signaturesBySigner := batch.signatures
    serializedBatch := batch.serialize service.keccak transfers }, db)

/-! ## Signatures -/

/-- Whether all signatures of an answer are the signer's. -/
def checkSignatures (signer : Address) :
    List (SerializedTapToRskTransfer Hash × Sig) → TapProg Hash Sig Bool
  | [] => pure true
  | (transfer, signature) :: rest => do
      let messageHash ← TapProg.getTransferFromTapMessageHash transfer.toTransferFromTap
      let recovered ← Prog.lift (service.recoverMessage messageHash signature)
      if recovered ≠ signer then pure false else checkSignatures signer rest

/-- The loop over the answers: the good ones are added. -/
def collectSignatures (federators : List Address) (current : CurrentBatch Hash Sig) :
    Table Address (List Sig) → List (SignTransferBatchAnswer Sig) →
      TapProg Hash Sig (Table Address (List Sig))
  | signaturesBySigner, [] => pure signaturesBySigner
  | signaturesBySigner, response :: responses => do
      if response.signer ∉ federators then
        collectSignatures federators current signaturesBySigner responses
      else if response.signatures.length ≠ current.numTransfers then
        collectSignatures federators current signaturesBySigner responses
      else
        let ok ← service.checkSignatures response.signer
          (current.serializedBatch.transfers.zip response.signatures)
        collectSignatures federators current
          (if ok then signaturesBySigner.set response.signer response.signatures
            else signaturesBySigner) responses

/-- The transaction that stores the signatures; it returns the new status. -/
def storeSignatures (current : CurrentBatch Hash Sig)
    (signaturesBySigner : Table Address (List Sig)) (numRequiredSigners : ℤ) (db : TapDb Hash Sig) :
    PyResult (TapToRskTransferBatchStatus × TapDb Hash Sig) := do
  let batch ← db.getBatch current.batchId
  let enough := numRequiredSigners ≤ (signaturesBySigner.keys.length : ℤ)
  let batch := { batch with
    signatures := signaturesBySigner
    status := if enough then .signaturesCollected else batch.status }
  pure (if enough then .signaturesCollected else current.status, db.setBatch current.batchId batch)

/-- The first stage: the signatures, and the status after it. -/
def collect (current : CurrentBatch Hash Sig) :
    TapProg Hash Sig (TapToRskTransferBatchStatus × Table Address (List Sig)) := do
  let federators ← TapProg.getFederators
  let numRequiredSigners ← TapProg.numRequiredSigners
  let responses ← TapProg.ask current.serializedBatch
  let signaturesBySigner ← service.collectSignatures federators current
    current.signaturesBySigner responses
  let status ← TapProg.transaction fun _ db =>
    storeSignatures current signaturesBySigner ((numRequiredSigners : ℤ) - 1) db
  pure (status, signaturesBySigner)

/-! ## Sending -/

/-- The transaction that fixes the calls to make. -/
def startSending (batchId : ℕ) (signaturesBySigner : Table Address (List Sig)) (σ : Ordering)
    (db : TapDb Hash Sig) : PyResult (List (TransferFromTap × List Sig) × TapDb Hash Sig) := do
  let batch ← db.getBatch batchId
  let acceptTransferCalls :=
    ((db.batchTransfers σ batchId).map TapToRskTransfer.toTransferFromTap).zip
      (zipAll (signaturesBySigner.rows.map Prod.snd))
  pure (acceptTransferCalls, db.setBatch batchId { batch with status := .sendingToRsk })

/-- The loop over the calls, with the hashes of the transactions sent. -/
def sendAll (batchId : ℕ) : List (TransferFromTap × List Sig) → TapProg Hash Sig (List ℕ)
  | [] => pure []
  | (transfer, signatures) :: calls => do
      let txHash ← TapProg.transact batchId transfer signatures
      let txHashes ← sendAll batchId calls
      pure (txHash :: txHashes)

/-- The transaction that keeps the hash of the last call. -/
def finishSending (batchId : ℕ) (txHashes : List ℕ) (db : TapDb Hash Sig) :
    PyResult (TapToRskTransferBatchStatus × TapDb Hash Sig) := do
  let batch ← db.getBatch batchId
  let txHash ← orError txHashes.getLast? (.other "IndexError")
  pure (.sentToRsk, db.setBatch batchId
    { batch with status := .sentToRsk, executedTxHash := some txHash })

/-- The second stage, and the status after it. -/
def send (batchId : ℕ) (signaturesBySigner : Table Address (List Sig)) :
    TapProg Hash Sig TapToRskTransferBatchStatus := do
  let acceptTransferCalls ← TapProg.transaction fun σ db =>
    startSending batchId signaturesBySigner σ db
  let txHashes ← sendAll batchId acceptTransferCalls
  TapProg.transaction fun _ db => finishSending batchId txHashes db

/-! ## Finalizing -/

/-- The last stage. -/
def finalize (batchId : ℕ) : TapProg Hash Sig Unit := do
  let txHash ← TapProg.transaction fun _ db => do
    let batch ← db.getBatch batchId
    pure (batch.executedTxHash, db)
  let status ← TapProg.waitForTransactionReceipt txHash
  if status = false then
    throw (.valueError "Tx failed")
  TapProg.transaction fun _ db => do
    let batch ← db.getBatch batchId
    pure ((), db.setBatch batchId { batch with status := .finalized })

/-! ## One iteration -/

/-- What happens to the batch from the status it is in. -/
def processBatch (current : CurrentBatch Hash Sig) : TapProg Hash Sig Unit := do
  let (status, signaturesBySigner) ← (if current.status = .created then service.collect current
    else pure (current.status, current.signaturesBySigner))
  let status ← (if status = .signaturesCollected then send current.batchId signaturesBySigner
    else pure status)
  if status = .sendingToRsk then
    throw (.valueError
      "TransferBatch got left in SENDING_TO_RSK state, which cannot be resolved automatically")
  else if status = .sentToRsk then
    finalize current.batchId
  else
    pure ()

def processCurrentTransferBatch : TapProg Hash Sig Unit := do
  let current ← TapProg.transaction fun σ db => service.currentBatch σ db
  match current with
  | none => pure ()
  | some current => service.processBatch current

end TapToRskService

end NbteBridge
