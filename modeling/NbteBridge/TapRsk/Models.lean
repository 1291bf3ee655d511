import NbteBridge.Contracts.TapBridge
import NbteBridge.Btc.Types
import NbteBridge.Foundations.Table

/-!
# The tap bridge's database

The rows a node keeps for the transfers from Taproot Assets to Rootstock, and how they are
serialized for the other nodes.  A text column that stands for an address, an identifier or a hash
is that value.  The rows of a batch come back sorted by `counter`, which nothing sets: the database
may return rows without a counter in any order (`Ordering`).
-/

namespace NbteBridge

open Tables Packed

/-! ## Rows -/

inductive TapToRskTransferBatchStatus
  | created
  | signaturesCollected
  | sendingToRsk
  | sentToRsk
  | mined
  | finalized
  deriving DecidableEq

structure TapDepositAddress where
  rskAddress : Address
  tapAddress : Bytes
  deriving DecidableEq

/-- `TapToRskTransfer`, assets received at a deposit address. -/
structure TapToRskTransfer where
  counter : Option ℕ
  depositAddress : TapDepositAddress
  depositBtcTxId : Bytes32
  depositBtcTxVout : Uint256
  transferBatchId : Option ℕ
  deriving DecidableEq

/-- `TapToRskTransferBatch`, transfers that are signed and sent together. -/
structure TapToRskTransferBatch (Hash Sig : Type) where
  hash : Hash
  status : TapToRskTransferBatchStatus
  /-- The signatures of each signer, one for each transfer. -/
  signatures : Table Address (List Sig)
  /-- A transaction is known by its place among all transactions the node has sent. -/
  executedTxHash : Option ℕ

/-- A node's tables of transfers from tap, both by row number. -/
structure TapDb (Hash Sig : Type) where
  transfers : Table ℕ TapToRskTransfer
  batches : Table ℕ (TapToRskTransferBatch Hash Sig)

def TapDb.empty {Hash Sig : Type} : TapDb Hash Sig := ⟨.empty, .empty⟩

def TapToRskTransfer.outpoint (t : TapToRskTransfer) : Bytes32 × Uint256 :=
  (t.depositBtcTxId, t.depositBtcTxVout)

/-- What the contract is asked to accept. -/
def TapToRskTransfer.toTransferFromTap (t : TapToRskTransfer) : TransferFromTap where
  to_ := t.depositAddress.rskAddress
  transferTapAddress := t.depositAddress.tapAddress
  btcTxId := t.depositBtcTxId
  btcTxVout := t.depositBtcTxVout

/-! ## The order of the rows -/

/-- The order of a column in which missing values come last. -/
def counterLe : Option ℕ → Option ℕ → Bool
  | some m, some n => decide (m ≤ n)
  | _, none => true
  | none, some _ => false

/-- An order the database may return transfers in when it is asked to sort them by counter. -/
structure Ordering where
  sort : List (ℕ × TapToRskTransfer) → List (ℕ × TapToRskTransfer)
  perm : ∀ rows, (sort rows).Perm rows
  sorted : ∀ rows, (sort rows).Pairwise fun p q => counterLe p.2.counter q.2.counter = true

/-- The order in which rows with equal counters stay as they are. -/
def Ordering.stable : Ordering where
  sort := List.insertionSort fun p q => counterLe p.2.counter q.2.counter = true
  perm := List.perm_insertionSort _
  sorted := by
    have htotal : ∀ c d : Option ℕ, counterLe c d = true ∨ counterLe d c = true := by
      rintro (_ | c) (_ | d) <;> simp [counterLe, Nat.le_total]
    have htrans : ∀ c d e : Option ℕ, counterLe c d = true → counterLe d e = true →
        counterLe c e = true := by
      rintro (_ | c) (_ | d) (_ | e) <;> simp [counterLe]
      exact Nat.le_trans
    intro rows
    have : Std.Total fun p q : ℕ × TapToRskTransfer => counterLe p.2.counter q.2.counter = true :=
      ⟨fun p q => htotal _ _⟩
    have : IsTrans (ℕ × TapToRskTransfer) fun p q =>
        counterLe p.2.counter q.2.counter = true :=
      ⟨fun p q r => htrans _ _ _⟩
    exact List.pairwise_insertionSort _ rows

namespace TapDb

variable {Hash Sig : Type} (db : TapDb Hash Sig)

/-- The rows of a batch, in the order they were added. -/
def members (batchId : ℕ) : List (ℕ × TapToRskTransfer) :=
  db.transfers.rows.filter fun p => p.2.transferBatchId = some batchId

/-- The rows of no batch, in the order they were added. -/
def unbatched : List (ℕ × TapToRskTransfer) :=
  db.transfers.rows.filter fun p => p.2.transferBatchId = none

/-- `TapToRskTransferBatch.transfers`, as one transaction loads it. -/
def batchTransfers (σ : Ordering) (batchId : ℕ) : List TapToRskTransfer :=
  (σ.sort (db.members batchId)).map Prod.snd

/-- The row number of the next batch. -/
def nextBatchId : ℕ := db.batches.keys.foldr max 0 + 1

def setBatch (batchId : ℕ) (batch : TapToRskTransferBatch Hash Sig) : TapDb Hash Sig :=
  { db with batches := db.batches.set batchId batch }

def setTransfer (dbId : ℕ) (t : TapToRskTransfer) : TapDb Hash Sig :=
  { db with transfers := db.transfers.set dbId t }

/-- Put these rows into a batch. -/
def assign (dbIds : List ℕ) (batchId : ℕ) : TapDb Hash Sig :=
  { db with
    transfers := db.transfers.mapRows fun dbId t =>
      if dbId ∈ dbIds then { t with transferBatchId := some batchId } else t }

/-- `query(TapToRskTransferBatch).get(batch_id)`, of which an attribute is then read or set. -/
def getBatch (batchId : ℕ) : PyResult (TapToRskTransferBatch Hash Sig) :=
  Checked.orError (db.batches.get? batchId) (.other "AttributeError")

end TapDb

/-! ## Hashes -/

/-- A `bytes32` of at most 32 bytes, filled up with zeros. -/
def bytes32 (bytes : Bytes) : Bytes := bytes ++ List.replicate (32 - bytes.length) 0

/-- `keccak`, and the 32 bytes of what it returns. -/
structure Keccak (Hash : Type) where
  keccak : Bytes → Hash
  toBytes : Hash → Bytes

variable {Hash : Type} (K : Keccak Hash)

def TapToRskTransfer.computeHash (t : TapToRskTransfer) : Hash :=
  K.keccak <|
    bytes32 (ascii "TapToRskTransfer:") ++ ofBitVec 20 t.depositAddress.rskAddress ++
    bytes32 (ascii ":") ++ t.depositAddress.tapAddress ++
    bytes32 (ascii ":") ++ ofBitVec 32 t.depositBtcTxId ++
    bytes32 (ascii ":") ++ ofBitVec 32 t.depositBtcTxVout

/-- The hash of a batch of these transfers. -/
def TapToRskTransferBatch.computeHash (transfers : List TapToRskTransfer) : Hash :=
  K.keccak <|
    bytes32 (ascii "TapToRskTransferBatch:") ++
    transfers.flatMap fun t => K.toBytes (t.computeHash K)

/-! ## Messages -/

structure SerializedTapToRskTransfer (Hash : Type) where
  hash : Hash
  depositAddress : TapDepositAddress
  depositBtcTxId : Bytes32
  depositBtcTxVout : Uint256
  deriving DecidableEq

structure SerializedTapToRskTransferBatch (Hash Sig : Type) where
  hash : Hash
  status : TapToRskTransferBatchStatus
  signatures : Table Address (List Sig)
  transfers : List (SerializedTapToRskTransfer Hash)

structure SignTransferBatchAnswer (Sig : Type) where
  signatures : List Sig
  signer : Address
  deriving DecidableEq

def TapToRskTransfer.serialize (t : TapToRskTransfer) : SerializedTapToRskTransfer Hash where
  hash := t.computeHash K
  depositAddress := t.depositAddress
  depositBtcTxId := t.depositBtcTxId
  depositBtcTxVout := t.depositBtcTxVout

def SerializedTapToRskTransfer.toTransferFromTap (t : SerializedTapToRskTransfer Hash) :
    TransferFromTap where
  to_ := t.depositAddress.rskAddress
  transferTapAddress := t.depositAddress.tapAddress
  btcTxId := t.depositBtcTxId
  btcTxVout := t.depositBtcTxVout

def TapToRskTransferBatch.serialize {Sig : Type} (batch : TapToRskTransferBatch Hash Sig)
    (transfers : List TapToRskTransfer) : SerializedTapToRskTransferBatch Hash Sig where
  hash := batch.hash
  status := batch.status
  signatures := batch.signatures
  transfers := transfers.map fun t => t.serialize K

end NbteBridge
