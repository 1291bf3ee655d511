import NbteBridge.Foundations.Checked
import NbteBridge.Node.Service

/-!
# Minting a deposit

What the node does with a deposit of runes from `ACCEPTED` on, one database transaction or one
group of reads at a time: it asks for signatures, adds the valid ones to the deposit, and once
there are enough takes the deposit out for sending and records how that went.  The leader strings
them together.
-/

namespace NbteBridge

open Checked Tables

/-- `decimal_amount`. -/
def RuneRow.decimalAmount (rune : RuneRow) (amountRaw : ℤ) : ℚ :=
  Decimals.div RuneBridgeService.decimalPrec amountRaw (10 ^ rune.divisibility)

/-- The call of `acceptTransferFromBtc`, before it is encoded. -/
structure AcceptTransferCall where
  evmAddress : String
  runeNumber : ℕ
  netRuneAmount : ℤ
  btcTxid : String
  btcVout : ℕ
  signatures : List String
  deriving DecidableEq

namespace RuneBridgeService

variable {Hash : Type} (service : RuneBridgeService Hash) (views : Views Hash)

/-! ## Asking for signatures -/

/-- `get_accepted_rune_deposit_ids`, in the order the rows were added. -/
def getAcceptedRuneDepositIds (db : Db Hash) : List RuneDepositKey :=
  (db.runeDeposits.rows.filter fun p => p.2.status = .accepted).map Prod.fst

/-- The row of a deposit, which is there. -/
def runeDeposit (key : RuneDepositKey) (db : Db Hash) : PyResult (RuneDeposit Hash) :=
  orError (db.runeDeposits.get? key) (.other "No row was found")

/-- `validate_rune_deposit_for_sending`. -/
def validateRuneDepositForSending (key : RuneDepositKey) (db : Db Hash) : PyResult Bool := do
  let deposit ← runeDeposit key db
  if deposit.status ≠ .accepted then pure false
  else do
    let registered ← views.contract.isRuneRegistered deposit.rune.n
    if registered = false then pure false
    else do
      let paused ← views.contract.isRunePaused deposit.rune.n
      if paused = true then pure false
      else pure (decide (service.config.btcMinPostageSat ≤ deposit.postage))

/-- `get_sign_rune_to_evm_transfer_question`. -/
def getSignRuneToEvmTransferQuestion (key : RuneDepositKey) (db : Db Hash) :
    PyResult SignRuneToEvmTransferQuestion := do
  let deposit ← runeDeposit key db
  require (deposit.status = .accepted) (.validationError "Deposit not accepted")
  pure
    { transfer :=
        { evmAddress := deposit.user.evmAddress
          amountRaw := deposit.transferAmountRaw
          amountDecimal := deposit.rune.decimalAmount deposit.transferAmountRaw
          netAmountRaw := deposit.netAmountRaw
          txid := key.txId
          vout := key.vout
          runeName := deposit.rune.name
          runeNumber := deposit.rune.n } }

/-! ## Collecting signatures -/

/-- `validate_sign_rune_to_evm_transfer_answer`. -/
def validateSignRuneToEvmTransferAnswer (messageHash : Hash)
    (answer : SignRuneToEvmTransferAnswer Hash) : PyResult Unit := do
  let isFederator ← views.contract.isFederator answer.signer
  require (isFederator = true) (.validationError "Signer is not a federator")
  let recovered ← service.recoverMessage messageHash answer.signature
  require (recovered = answer.signer)
    (.validationError "Recovered signer does not match expected")

/-- `_prune_invalid_sign_rune_to_evm_transfer_answers`, `signers` being those of the answers kept
so far.  Only a validation error prunes an answer, any other is raised. -/
def pruneInvalidSignRuneToEvmTransferAnswers (messageHash : Hash) :
    List String → List (SignRuneToEvmTransferAnswer Hash) →
      PyResult (List (SignRuneToEvmTransferAnswer Hash))
  | _, [] => pure []
  | signers, answer :: answers =>
      if answer.signer ∈ signers then
        pruneInvalidSignRuneToEvmTransferAnswers messageHash signers answers
      else match service.validateSignRuneToEvmTransferAnswer views messageHash answer with
        | .error (.validationError _) =>
            pruneInvalidSignRuneToEvmTransferAnswers messageHash signers answers
        | .error e => .error e
        | .ok () => do
            let rest ← pruneInvalidSignRuneToEvmTransferAnswers messageHash
              (answer.signer :: signers) answers
            pure (answer :: rest)

/-- A signer's first signature is kept. -/
def addSignature (deposit : RuneDeposit Hash) (answer : SignRuneToEvmTransferAnswer Hash) :
    RuneDeposit Hash :=
  if answer.signer ∈ deposit.acceptTransferSigners then deposit
  else
    { deposit with
      acceptTransferSigners := deposit.acceptTransferSigners ++ [answer.signer]
      acceptTransferSignatures := deposit.acceptTransferSignatures ++ [answer.signature] }

/-- `update_rune_deposit_signatures`: whether there are enough now. -/
def updateRuneDepositSignatures (key : RuneDepositKey) (messageHash : Hash)
    (answers : List (SignRuneToEvmTransferAnswer Hash)) (db : Db Hash) :
    PyResult (Bool × Db Hash) := do
  let deposit ← runeDeposit key db
  require (deposit.status = .accepted) (.validationError "Deposit not accepted")
  let deposit := { deposit with acceptTransferMessageHash := some messageHash }
  let answers ← service.pruneInvalidSignRuneToEvmTransferAnswers views messageHash [] answers
  let deposit := answers.foldl addSignature deposit
  let numRequired ← views.contract.numRequiredFederators
  pure (decide (numRequired ≤ deposit.acceptTransferSignatures.length),
    db.setRuneDeposit key deposit)

/-! ## Sending

The transactions of `send_rune_deposit_to_evm` and `_confirm_sent_rune_deposit`. -/

/-- Change a row. -/
def modifyRuneDeposit (key : RuneDepositKey)
    (change : RuneDeposit Hash → PyResult (RuneDeposit Hash)) (db : Db Hash) :
    PyResult (Db Hash) := do
  let deposit ← runeDeposit key db
  let deposit ← change deposit
  pure (db.setRuneDeposit key deposit)

/-- Before sending: the call to be made, none without enough signatures. -/
def beginSendingRuneDeposit (key : RuneDepositKey) (numRequiredSigners : ℕ) (db : Db Hash) :
    PyResult (Option AcceptTransferCall × Db Hash) := do
  let deposit ← runeDeposit key db
  require (deposit.status = .accepted) (.validationError "Deposit not accepted")
  let signatures := deposit.acceptTransferSignatures
  if signatures.length < numRequiredSigners then pure (none, db)
  else
    pure (some
      { evmAddress := deposit.user.evmAddress
        runeNumber := key.runeNumber
        netRuneAmount := deposit.netAmountRaw
        btcTxid := key.txId
        btcVout := key.vout
        signatures := signatures.take numRequiredSigners },
      db.setRuneDeposit key { deposit with status := .sendingToEvm })

/-- After sending raised, whatever the status is. -/
def failSendingRuneDeposit (key : RuneDepositKey) (db : Db Hash) : PyResult (Db Hash) :=
  modifyRuneDeposit key (fun deposit => pure { deposit with status := .sendingToEvmFailed }) db

/-- After sending, whatever the status is. -/
def finishSendingRuneDeposit (key : RuneDepositKey) (txHash : String) (db : Db Hash) :
    PyResult (Db Hash) :=
  modifyRuneDeposit key
    (fun deposit => pure { deposit with status := .sentToEvm, evmTxHash := some txHash }) db

/-- The deposits `confirm_sent_rune_deposits` looks at. -/
def getSentRuneDepositIds (db : Db Hash) : List RuneDepositKey :=
  (db.runeDeposits.rows.filter fun p => p.2.status = .sentToEvm).map Prod.fst

/-- The status a receipt moves a sent deposit to. -/
def updatedStatus : Option Bool → Option RuneDepositStatus
  | some true => some .confirmedInEvm
  | some false => some .evmTransactionFailed
  | none => none

/-- With a receipt. -/
def confirmRuneDeposit (key : RuneDepositKey) (updatedStatus : RuneDepositStatus)
    (db : Db Hash) : PyResult (Db Hash) :=
  modifyRuneDeposit key (fun deposit => do
    require (deposit.status = .sentToEvm) .assertionError
    pure { deposit with status := updatedStatus }) db

end RuneBridgeService

end NbteBridge
