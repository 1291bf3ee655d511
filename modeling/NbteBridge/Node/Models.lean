import NbteBridge.Foundations.Binary64
import NbteBridge.Foundations.Table
import NbteBridge.Ord.Types

/-!
# The node's database and messages

The rows a bridge node keeps, and the messages the nodes ask each other.  A row is found under
what the database declares unique; the surrogate row numbers of the source are left out, as is the
bridge's own row, since a node's database is looked at one bridge at a time.  A foreign key to a
row that never changes (a rune, a user) is that row.
-/

namespace NbteBridge

open Tables

/-! ## Statuses -/

inductive IncomingBtcTxStatus
  | detected
  | accepted
  deriving DecidableEq

inductive RuneDepositStatus
  | detected
  | accepted
  | sendingToEvm
  | sentToEvm
  | confirmedInEvm
  | rejected
  | sendingToEvmFailed
  | evmTransactionFailed
  deriving DecidableEq

inductive RuneTokenDepositStatus
  | detected
  | accepted
  | sendingToBtc
  | sentToBtc
  | minedInBtc
  | rejected
  | sendingToBtcFailed
  deriving DecidableEq

/-! ## Rows -/

/-- `User`; the deposit address of a user is derived at `id`. -/
structure User where
  id : ℕ
  evmAddress : String
  deriving DecidableEq

structure DepositAddress where
  user : User
  btcAddress : String
  deriving DecidableEq

structure IncomingBtcTx where
  blockNumber : Option ℕ
  time : ℕ
  address : String
  amountSat : ℤ
  user : Option User
  status : IncomingBtcTxStatus
  deriving DecidableEq

/-- `Rune`, a rune the node has indexed. -/
structure RuneRow where
  n : ℕ
  name : String
  spacedName : String
  symbol : String
  divisibility : ℕ
  turbo : Bool
  deriving DecidableEq

/-- What is unique about a `RuneDeposit`. -/
structure RuneDepositKey where
  txId : String
  vout : ℕ
  runeNumber : ℕ
  deriving DecidableEq

/-- `RuneDeposit`, runes received for a user. -/
structure RuneDeposit (Hash : Type) where
  blockNumber : ℕ
  rune : RuneRow
  user : User
  incomingBtcTx : Outpoint
  postage : ℕ
  transferAmountRaw : ℤ
  netAmountRaw : ℤ
  evmTxHash : Option String
  acceptTransferMessageHash : Option Hash
  acceptTransferSignatures : List String
  acceptTransferSigners : List String
  status : RuneDepositStatus
  deriving DecidableEq

/-- What is unique about a `RuneTokenDeposit`: the event it was made for. -/
structure RuneTokenDepositKey where
  evmTxHash : String
  evmLogIndex : ℕ
  deriving DecidableEq

/-- `RuneTokenDeposit`, rune tokens handed in on the EVM chain. -/
structure RuneTokenDeposit where
  evmBlockNumber : ℕ
  receiverBtcAddress : String
  transferredTokenAmount : ℕ
  netRuneAmountRaw : ℤ
  tokenAddress : String
  rune : RuneRow
  btcTxId : Option String
  finalizedPsbt : Option String
  status : RuneTokenDepositStatus
  deriving DecidableEq

/-- A node's database: its tables, and the two cursors in its key-value store. -/
structure Db (Hash : Type) where
  /-- By EVM address. -/
  users : Table String User
  /-- By Bitcoin address. -/
  depositAddresses : Table String DepositAddress
  incomingBtcTxs : Table Outpoint IncomingBtcTx
  /-- By number. -/
  runes : Table ℕ RuneRow
  runeDeposits : Table RuneDepositKey (RuneDeposit Hash)
  runeTokenDeposits : Table RuneTokenDepositKey RuneTokenDeposit
  /-- The Bitcoin block deposits were scanned up to. -/
  lastScannedBlock : Option String
  /-- The EVM block events were scanned up to. -/
  lastScannedEvmBlock : Option ℤ

def Db.empty {Hash : Type} : Db Hash :=
  ⟨.empty, .empty, .empty, .empty, .empty, .empty, none, none⟩

namespace Db

variable {Hash : Type}

def setIncomingBtcTx (db : Db Hash) (o : Outpoint) (row : IncomingBtcTx) : Db Hash :=
  { db with incomingBtcTxs := db.incomingBtcTxs.set o row }

def setRuneDeposit (db : Db Hash) (k : RuneDepositKey) (row : RuneDeposit Hash) : Db Hash :=
  { db with runeDeposits := db.runeDeposits.set k row }

def setRuneTokenDeposit (db : Db Hash) (k : RuneTokenDepositKey) (row : RuneTokenDeposit) :
    Db Hash :=
  { db with runeTokenDeposits := db.runeTokenDeposits.set k row }

end Db

/-! ## Messages -/

structure RuneToEvmTransfer where
  evmAddress : String
  amountRaw : ℤ
  amountDecimal : ℚ
  netAmountRaw : ℤ
  txid : String
  vout : ℕ
  runeName : String
  runeNumber : ℕ
  deriving DecidableEq

def RuneToEvmTransfer.key (t : RuneToEvmTransfer) : RuneDepositKey := ⟨t.txid, t.vout, t.runeNumber⟩

structure RuneTokenToBtcTransfer where
  receiverAddress : String
  netRuneAmount : ℤ
  tokenAddress : String
  runeName : String
  runeNumber : ℕ
  eventTxHash : String
  eventLogIndex : ℕ
  deriving DecidableEq

def RuneTokenToBtcTransfer.key (t : RuneTokenToBtcTransfer) : RuneTokenDepositKey :=
  ⟨t.eventTxHash, t.eventLogIndex⟩

structure SignRuneToEvmTransferQuestion where
  transfer : RuneToEvmTransfer
  deriving DecidableEq

structure SignRuneToEvmTransferAnswer (Hash : Type) where
  signature : String
  signer : String
  messageHash : Hash
  deriving DecidableEq

/-- What stands for a number in a message.  The wire keeps the type a value has, whatever the
dataclass declares; `other` is anything that cannot be computed with, and what that raises. -/
inductive PyNumber
  | int (n : ℤ)
  | float (x : Binary64.Double)
  | other (raised : PyError)
  deriving DecidableEq

/-- The value in comparisons, which are exact. -/
def PyNumber.value : PyNumber → PyResult Binary64.Double
  | int n => pure (.finite n)
  | float x => pure x
  | other raised => .error raised

/-- `transfers` is the attribute the answering side already looks for. -/
structure SignRuneTokenToBtcTransferQuestion where
  transfer : RuneTokenToBtcTransfer
  transfers : Option (List RuneTokenToBtcTransfer)
  unsignedPsbtSerialized : String
  feeRateSatsPerVb : PyNumber
  deriving DecidableEq

structure SignRuneTokenToBtcTransferAnswer where
  signedPsbtSerialized : String
  signerXpub : String
  deriving DecidableEq

end NbteBridge
