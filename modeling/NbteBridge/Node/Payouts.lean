import NbteBridge.Foundations.Checked
import NbteBridge.Node.Answers

/-!
# Paying out rune tokens

What the node does about rune tokens handed in on the EVM chain: it records the bridge's events,
and for each it builds a transaction, has it signed and broadcasts it, one database transaction or
one group of reads at a time.  The leader strings the latter together.
-/

namespace NbteBridge

open Checked Tables

def RuneTransferToBtcEvent.key (event : RuneTransferToBtcEvent) : RuneTokenDepositKey :=
  ⟨event.transactionHash, event.logIndex⟩

/-- The order events are handled in. -/
def RuneTransferToBtcEvent.le (event other : RuneTransferToBtcEvent) : Bool :=
  event.blockNumber < other.blockNumber ∨ (event.blockNumber = other.blockNumber ∧
    (event.transactionIndex < other.transactionIndex ∨
      (event.transactionIndex = other.transactionIndex ∧ event.logIndex ≤ other.logIndex)))

/-- `get_events`, in batches of `batch_size + 1` blocks; `fuel` bounds their number. -/
def EvmRpc.getEvents (evm : EvmRpc) (batchSize toBlock : ℤ) :
    ℕ → ℤ → PyResult (List RuneTransferToBtcEvent)
  | 0, _ => pure []
  | fuel + 1, batchFromBlock =>
      if batchFromBlock ≤ toBlock then do
        let batchToBlock := min (batchFromBlock + batchSize) toBlock
        let events ← evm.getLogs batchFromBlock batchToBlock
        let rest ← evm.getEvents batchSize toBlock fuel (batchToBlock + 1)
        pure (events ++ rest)
      else pure []

namespace RuneBridgeService

variable {Hash : Type} (service : RuneBridgeService Hash) (views : Views Hash)

/-! ## Recording events -/

/-- The row of a rune, added when there is none. -/
def getOrAddRune (n : ℕ) (db : Db Hash) : PyResult (RuneRow × Db Hash) :=
  match db.runes.get? n with
  | some row => pure (row, db)
  | none => do
      let rune ← Rune.ofNumber n
      let response ← views.ordClient.getRune rune.name
      let response ← orError response (.runtimeError "Rune not found in ord")
      let entry := response.entry
      let row := ⟨rune.n, rune.name, entry.spacedRune, entry.symbol, entry.divisibility,
        entry.turbo⟩
      pure (row, { db with runes := db.runes.set rune.n row })

/-- The row of an event. -/
def newRuneTokenDeposit (event : RuneTransferToBtcEvent) (rune : RuneRow) :
    RuneTokenDeposit where
  evmBlockNumber := event.blockNumber
  receiverBtcAddress := event.receiverBtcAddress
  transferredTokenAmount := event.transferredTokenAmount
  netRuneAmountRaw := event.netRuneAmount
  tokenAddress := event.token
  rune := rune
  btcTxId := none
  finalizedPsbt := none
  status := .accepted

/-- One event; a second row for it is refused by the database. -/
def indexEvent (event : RuneTransferToBtcEvent) (db : Db Hash) : PyResult (Db Hash) := do
  let (rune, db) ← getOrAddRune views event.rune db
  require (db.runeTokenDeposits.get? event.key = none)
    (.other "uq_rune_token_deposit_tx_hash_log_index")
  pure (db.setRuneTokenDeposit event.key (newRuneTokenDeposit event rune))

def indexEvents : List RuneTransferToBtcEvent → Db Hash → PyResult (Db Hash)
  | [], db => pure db
  | event :: events, db => do
      let db ← indexEvent views event db
      indexEvents events db

/-- `scan_rune_token_deposits`, one database transaction. -/
def scanRuneTokenDeposits (db : Db Hash) : PyResult (ℕ × Db Hash) := do
  let currentBlock ← views.evm.blockNumber
  let lastScannedBlock := db.lastScannedEvmBlock.getD service.config.evmDefaultStartBlock
  let fromBlock := lastScannedBlock + 1
  let toBlock := currentBlock - service.config.evmBlockSafetyMargin
  if toBlock < fromBlock then pure (0, db)
  else do
    let events ← views.evm.getEvents 100 toBlock (toBlock + 1 - fromBlock).toNat fromBlock
    let db ← indexEvents views (events.mergeSort RuneTransferToBtcEvent.le) db
    pure (events.length, { db with lastScannedEvmBlock := some toBlock })

/-! ## Preparing a payout -/

/-- `get_accepted_rune_token_deposit_ids`, in the order the rows were added. -/
def getAcceptedRuneTokenDepositIds (db : Db Hash) : List RuneTokenDepositKey :=
  (db.runeTokenDeposits.rows.filter fun p => p.2.status = .accepted).map Prod.fst

/-- The row of a deposit, which is there. -/
def runeTokenDeposit (key : RuneTokenDepositKey) (db : Db Hash) : PyResult RuneTokenDeposit :=
  orError (db.runeTokenDeposits.get? key) (.other "No row was found")

/-- What the payout of a deposit transfers. -/
def getRuneTokenToBtcTransfer (key : RuneTokenDepositKey) (db : Db Hash) :
    PyResult RuneTokenToBtcTransfer := do
  let deposit ← runeTokenDeposit key db
  require (deposit.status = .accepted) (.validationError "Deposit not accepted")
  require (deposit.netRuneAmountRaw ≠ 0) (.validationError "Net amount is zero")
  pure
    { receiverAddress := deposit.receiverBtcAddress
      netRuneAmount := deposit.netRuneAmountRaw
      tokenAddress := deposit.tokenAddress
      runeName := deposit.rune.name
      runeNumber := deposit.rune.n
      eventTxHash := key.evmTxHash
      eventLogIndex := key.evmLogIndex }

open Binary64 in
/-- The fee rate of a payout: the estimate with a margin, but at least the minimum. -/
def payoutFeeRate : PyResult ℤ := do
  let feeRateSatsPerVb ← views.feeSatsPerVb
  require (feeRateSatsPerVb ≤ service.config.btcMaxFeeRateSatsPerVbyte)
    (.runtimeError "Fee rate is humongous, refusing to proceed with transfer")
  pure (max (Decimals.truncate (mul feeMargin (ofInt feeRateSatsPerVb)))
    service.getMinFeeRateSatPerVbyte)

/-- The default of `max_num_inputs` in `create_rune_psbt`. -/
def maxNumInputs : ℕ := 200

/-- The transaction of a payout, and the question that asks for its signatures. -/
def createPayout (transfer : RuneTokenToBtcTransfer) :
    PyResult (Psbt × SignRuneTokenToBtcTransferQuestion) := do
  let feeRate ← service.payoutFeeRate views
  let rune ← Rune.ofNumber transfer.runeNumber
  let unsignedPsbt ← service.ordMultisig.createRunePsbt views.bitcoinRpc views.ordClient
    service.codec [⟨rune, transfer.receiverAddress, transfer.netRuneAmount, TARGET_POSTAGE_SAT⟩]
    feeRate maxNumInputs
  pure (unsignedPsbt,
    { transfer := transfer
      transfers := none
      unsignedPsbtSerialized := service.psbtCodec.toBase64 unsignedPsbt
      feeRateSatsPerVb := .int feeRate })

/-! ## Finalizing a payout -/

def deserializePsbts : List SignRuneTokenToBtcTransferAnswer → PyResult (List Psbt)
  | [] => pure []
  | response :: responses => do
      let psbt ← service.psbtCodec.fromBase64 response.signedPsbtSerialized
      let rest ← deserializePsbts responses
      pure (psbt :: rest)

/-- The loop of `combine_and_finalize_psbt`. -/
def combinePsbts : Psbt → List Psbt → PyResult Psbt
  | psbt, [] => pure psbt
  | psbt, signedPsbt :: signedPsbts => do
      let psbt ← service.psbtCodec.combine psbt signedPsbt
      combinePsbts psbt signedPsbts

/-- `finalize_psbt`. -/
def finalizePsbt (psbt : Psbt) : PyResult Psbt := do
  let (isFinal, psbt) ← service.psbtCodec.finalize psbt
  require (isFinal = true) (.valueError "Failed to finalize PSBT")
  let tx ← service.psbtCodec.extractTransaction psbt
  match service.codec.decipher (tx.vout.map TxOut.scriptPubKey) with
  | none => .error (.valueError "Failed to extract Runestone from psbt")
  | some (.cenotaph _) => .error (.valueError "Runestone is cenotaph")
  | some (.runestone _) => pure psbt

/-- `combine_and_finalize_psbt`. -/
def combineAndFinalizePsbt (initialPsbt : Psbt) (signedPsbts : List Psbt) : PyResult Psbt := do
  let psbt ← service.combinePsbts initialPsbt signedPsbts
  service.finalizePsbt psbt

/-- The final transaction, from what the node signed itself and the others' responses; none
without enough of them. -/
def finalizePayout (unsignedPsbt selfSignedPsbt : Psbt)
    (responses : List SignRuneTokenToBtcTransferAnswer) : PyResult (Option Psbt) := do
  let responsePsbts ← service.deserializePsbts responses
  let numRequiredSignatures := service.ordMultisig.numRequiredSigners
  let signedPsbts := (selfSignedPsbt :: responsePsbts).take numRequiredSignatures
  if signedPsbts.length < numRequiredSignatures then pure none
  else do
    let finalizedPsbt ← service.combineAndFinalizePsbt unsignedPsbt signedPsbts
    pure (some finalizedPsbt)

/-! ## Broadcasting

The later transactions of `handle_accepted_rune_token_deposit`. -/

/-- Change a row. -/
def modifyRuneTokenDeposit (key : RuneTokenDepositKey)
    (change : RuneTokenDeposit → PyResult RuneTokenDeposit) (db : Db Hash) :
    PyResult (Db Hash) := do
  let deposit ← runeTokenDeposit key db
  let deposit ← change deposit
  pure (db.setRuneTokenDeposit key deposit)

/-- Before broadcasting. -/
def beginPayout (key : RuneTokenDepositKey) (finalizedPsbt : Psbt) (db : Db Hash) :
    PyResult (Db Hash) :=
  modifyRuneTokenDeposit key (fun deposit => do
    require (deposit.status = .accepted) .assertionError
    pure
      { deposit with
        status := .sendingToBtc
        finalizedPsbt := some (service.psbtCodec.toBase64 finalizedPsbt) }) db

/-- After broadcasting raised, whatever the status is. -/
def failPayout (key : RuneTokenDepositKey) (db : Db Hash) : PyResult (Db Hash) :=
  modifyRuneTokenDeposit key (fun deposit => pure { deposit with status := .sendingToBtcFailed }) db

/-- After broadcasting. -/
def finishPayout (key : RuneTokenDepositKey) (txid : String) (db : Db Hash) :
    PyResult (Db Hash) :=
  modifyRuneTokenDeposit key (fun deposit => do
    require (deposit.status = .sendingToBtc) .assertionError
    pure { deposit with status := .sentToBtc, btcTxId := some txid }) db

end RuneBridgeService

end NbteBridge
