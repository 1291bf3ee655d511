import NbteBridge.Foundations.Checked
import NbteBridge.Node.Service

/-!
# Scanning Bitcoin deposits

`generate_deposit_address` and `scan_rune_deposits`.  A scan first reads what it needs outside its
database transaction (`fetchDeposits`) and then writes it all in one (`indexDeposits`), so a scan
that raises leaves the database as it was.  The messages to the operators on the way are left out:
one that cannot be sent is a scan that raises.
-/

namespace NbteBridge

open Checked Tables

namespace RuneBridgeService

variable {Hash : Type} (service : RuneBridgeService Hash) (views : Views Hash)

/-! ## Deposit addresses -/

/-- The user of an EVM address, added when there is none. -/
def getOrAddUser (evmAddress : String) (db : Db Hash) : User × Db Hash :=
  match db.users.get? evmAddress with
  | some user => (user, db)
  | none =>
      let user := ⟨db.users.rows.length + 1, evmAddress⟩
      (user, { db with users := db.users.set evmAddress user })

/-- `generate_deposit_address`. -/
def generateDepositAddress (evmAddress : String) (db : Db Hash) : PyResult (String × Db Hash) := do
  let evmAddress ← service.toChecksumAddress evmAddress
  let (user, db) := getOrAddUser evmAddress db
  match db.depositAddresses.rows.find? fun p => p.2.user = user with
  | some p => pure (p.2.btcAddress, db)
  | none => do
      let btcAddress := service.ordMultisig.deriveAddress user.id
      require (db.depositAddresses.get? btcAddress = none) (.other "btc_address is not unique")
      let row := ⟨user, btcAddress⟩
      pure (btcAddress, { db with depositAddresses := db.depositAddresses.set btcAddress row })

/-! ## Reading -/

/-- A wallet transaction with the output `ord` reports for it, none before it is in a block. -/
structure ScannedTx where
  tx : WalletTransaction
  ordOutput : Option OutputResponse

/-- The output of a transaction in `ord`, after the retries. -/
def fetchOrdOutput (tx : WalletTransaction) : PyResult (ScannedTx × List String) :=
  if 0 < tx.confirmations then do
    let ordOutput ← views.ordClient.getOutput tx.txid tx.vout
    let names := ordOutput.runes.map Prod.fst
    if ordOutput.indexed then pure (⟨tx, some ordOutput⟩, names)
    -- `ord` drops spent outputs from its index, with their balances
    else if ordOutput.spent then pure (⟨tx, none⟩, names)
    else .error (.runtimeError "Output not indexed in ord after 10 tries")
  else pure (⟨tx, none⟩, [])

/-- Whether a wallet transaction is looked at: a receipt, not of change. -/
def isDeposit (tx : WalletTransaction) : Bool :=
  tx.category = "receive" ∧ tx.address ≠ none ∧ tx.address ≠ some "" ∧
    tx.address ≠ some service.ordMultisig.changeAddress

/-- The loop over the wallet's transactions, with the names of the runes seen. -/
def fetchOrdOutputs : List WalletTransaction → PyResult (List ScannedTx × List String)
  | [] => pure ([], [])
  | tx :: txs =>
      if service.isDeposit tx then do
        let (scanned, names) ← fetchOrdOutput views tx
        let (rest, restNames) ← fetchOrdOutputs txs
        pure (scanned :: rest, names ++ restNames)
      else fetchOrdOutputs txs

def fetchRuneEntries : List String → PyResult (List RuneEntry)
  | [] => pure []
  | name :: names => do
      let response ← views.ordClient.getRune name
      let response ← orError response (.runtimeError "Rune not found in ord")
      let rest ← fetchRuneEntries names
      pure (response.entry :: rest)

/-- What a scan has read before it opens its transaction. -/
structure ScanBatch where
  newLastBlock : String
  transactions : List ScannedTx
  runeEntries : List RuneEntry

/-- The first half of `scan_rune_deposits`, from the block the last scan stored. -/
def fetchDeposits (lastBitcoinBlock : Option String) : PyResult ScanBatch := do
  require (service.config.btcMinConfirmations ≤ service.config.btcListsinceblockBuffer)
    (.valueError "listsinceblock_buffer must be >= required_confirmations")
  let resp ← views.bitcoinRpc.listsinceblock (lastBitcoinBlock.getD "")
    service.config.btcListsinceblockBuffer
  views.ordSynced
  let (transactions, runeNames) ← service.fetchOrdOutputs views resp.transactions
  let runeEntries ← fetchRuneEntries views runeNames.eraseDups
  pure ⟨resp.lastblock, transactions, runeEntries⟩

/-! ## Writing -/

def indexRunes : List RuneEntry → Db Hash → PyResult (Db Hash)
  | [], db => pure db
  | entry :: entries, db => do
      let rune ← runeFromStr entry.spacedRune
      match db.runes.get? rune.n with
      | some _ => indexRunes entries db
      | none =>
          let row := ⟨rune.n, rune.name, entry.spacedRune, entry.symbol, entry.divisibility,
            entry.turbo⟩
          indexRunes entries { db with runes := db.runes.set rune.n row }

/-- The row of an incoming transaction, new or updated; `user` is set where its address is
known. -/
def updateIncomingBtcTx (tx : WalletTransaction) (address : String) (user : Option User)
    (row : Option IncomingBtcTx) : IncomingBtcTx :=
  let status := (row.map IncomingBtcTx.status).getD .detected
  { blockNumber := tx.blockheight
    time := tx.time
    address := address
    amountSat := Decimals.truncate (Decimals.mul decimalPrec tx.amount 100000000)
    user := user.or (row.bind IncomingBtcTx.user)
    status := if (service.config.btcMinConfirmations : ℤ) ≤ tx.confirmations ∧ status = .detected
      then .accepted else status }

/-- The row of a deposit of one rune, new or updated.  Signatures that were collected stay, as does
a status past `DETECTED`. -/
def updateRuneDeposit (tx : WalletTransaction) (blockheight : ℕ) (user : User) (postage : ℕ)
    (rune : RuneRow) (balance : RuneBalanceEntry) (row : Option (RuneDeposit Hash)) :
    RuneDeposit Hash :=
  let status := (row.map RuneDeposit.status).getD .detected
  { blockNumber := blockheight
    rune := rune
    user := user
    incomingBtcTx := ⟨tx.txid, tx.vout⟩
    postage := postage
    transferAmountRaw := balance.amount
    netAmountRaw :=
      (service.calculateRuneToEvmTransferAmounts balance.amount balance.divisibility).netAmountRaw
    evmTxHash := row.bind RuneDeposit.evmTxHash
    acceptTransferMessageHash := row.bind RuneDeposit.acceptTransferMessageHash
    acceptTransferSignatures := (row.map RuneDeposit.acceptTransferSignatures).getD []
    acceptTransferSigners := (row.map RuneDeposit.acceptTransferSigners).getD []
    status := if (service.config.btcMinConfirmations : ℤ) ≤ tx.confirmations ∧ status = .detected
      then .accepted else status }

/-- One rune of an output. -/
def indexRuneDeposit (tx : WalletTransaction) (user : User) (postage : ℕ)
    (entry : String × RuneBalanceEntry) (db : Db Hash) : PyResult (Db Hash) := do
  let rune ← runeFromStr entry.1
  let runeRow ← orError (db.runes.get? rune.n) (.other "No row was found")
  let blockheight ← orError tx.blockheight (.other "KeyError: blockheight")
  let key := ⟨tx.txid, tx.vout, rune.n⟩
  let row := service.updateRuneDeposit tx blockheight user postage runeRow entry.2
    (db.runeDeposits.get? key)
  pure (db.setRuneDeposit key row)

/-- The loop over the runes of an output. -/
def indexRuneDeposits (tx : WalletTransaction) (user : User) (postage : ℕ) :
    List (String × RuneBalanceEntry) → Db Hash → PyResult (Db Hash)
  | [], db => pure db
  | entry :: entries, db => do
      let db ← service.indexRuneDeposit tx user postage entry db
      indexRuneDeposits tx user postage entries db

/-- One wallet transaction; also the number of deposits in it. -/
def indexTx (scanned : ScannedTx) (db : Db Hash) : PyResult (ℕ × Db Hash) := do
  let tx := scanned.tx
  require (scanned.ordOutput.all OutputResponse.indexed = true) .assertionError
  let address := tx.address.getD ""
  let user := (db.depositAddresses.get? address).map DepositAddress.user
  let outpoint : Outpoint := ⟨tx.txid, tx.vout⟩
  let btcTx := service.updateIncomingBtcTx tx address user (db.incomingBtcTxs.get? outpoint)
  let db := db.setIncomingBtcTx outpoint btcTx
  match user, scanned.ordOutput with
  | some user, some ordOutput => do
      let db ← service.indexRuneDeposits tx user ordOutput.value ordOutput.runes db
      pure (ordOutput.runes.length, db)
  | _, _ => pure (0, db)

def indexTxs : List ScannedTx → Db Hash → PyResult (ℕ × Db Hash)
  | [], db => pure (0, db)
  | scanned :: rest, db => do
      let (n, db) ← service.indexTx scanned db
      let (m, db) ← indexTxs rest db
      pure (n + m, db)

/-- The second half of `scan_rune_deposits`, one database transaction. -/
def indexDeposits (lastBitcoinBlock : Option String) (batch : ScanBatch) (db : Db Hash) :
    PyResult (ℕ × Db Hash) := do
  let db ← indexRunes batch.runeEntries db
  let (numTransfers, db) ← service.indexTxs batch.transactions db
  require (db.lastScannedBlock = lastBitcoinBlock)
    (.runtimeError "Last block changed while processing deposits!")
  pure (numTransfers, { db with lastScannedBlock := some batch.newLastBlock })

/-- `scan_rune_deposits`. -/
def scanRuneDeposits (db : Db Hash) : PyResult (ℕ × Db Hash) := do
  let lastBitcoinBlock := db.lastScannedBlock
  let batch ← service.fetchDeposits views lastBitcoinBlock
  service.indexDeposits lastBitcoinBlock batch db

end RuneBridgeService

end NbteBridge
