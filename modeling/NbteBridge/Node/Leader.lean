import NbteBridge.Foundations.Effects
import NbteBridge.Node.Transactions

/-!
# RuneBridge

One iteration of the bridge, and what its calls meet outside.  The parts of the node's work are
strung together here as the source runs them: database transactions, groups of reads, questions to
the other nodes, the submission of a mint, the broadcast of a payout, and messages.

A `Surroundings` is all a call can meet.  A database transaction may take effect although its commit
raises.  The node's state has, next to the database, the mints and payouts it has tried to submit.
-/

namespace NbteBridge

open Checked Effects Tables

/-! ## Calls -/

/-- The calls of a node. -/
inductive NodeOp (Hash : Type) : Type 1
  /-- `with transaction_manager.transaction()`. -/
  | transaction {β : Type} (body : Views Hash → Db Hash → PyResult (β × Db Hash))
  /-- Reads outside a transaction. -/
  | read {β : Type} (query : Views Hash → PyResult β)
  /-- `ord_multisig.check()`. -/
  | check
  /-- `network.ask`, for the signatures of a mint. -/
  | askMint (message : SignRuneToEvmTransferQuestion)
  /-- `network.ask`, for the signatures of a payout. -/
  | askPayout (message : SignRuneTokenToBtcTransferQuestion)
  /-- `acceptTransferFromBtc(..).transact(..)`. -/
  | transact (call : AcceptTransferCall) (nonce : ℕ)
  /-- `broadcast_psbt`, for a deposit. -/
  | broadcastPsbt (key : RuneTokenDepositKey) (psbt : Psbt)
  | sendMessage

namespace NodeOp

variable {Hash : Type}

def Resp : NodeOp Hash → Type
  | transaction (β := β) _ => β
  | read (β := β) _ => β
  | check => Unit
  | askMint _ => List (SignRuneToEvmTransferAnswer Hash)
  | askPayout _ => List SignRuneTokenToBtcTransferAnswer
  | transact .. => String
  | broadcastPsbt .. => String
  | sendMessage => Unit

end NodeOp

/-- A program of a node. -/
abbrev NodeProg (Hash : Type) : Type → Type 1 := Prog (NodeOp Hash) NodeOp.Resp PyError

namespace NodeProg

variable {Hash : Type}

def transaction {β : Type} (body : Views Hash → Db Hash → PyResult (β × Db Hash)) :
    NodeProg Hash β :=
  Prog.perform (NodeOp.transaction body)

def read {β : Type} (query : Views Hash → PyResult β) : NodeProg Hash β :=
  Prog.perform (NodeOp.read query)

def check : NodeProg Hash Unit := Prog.perform NodeOp.check

def askMint (message : SignRuneToEvmTransferQuestion) :
    NodeProg Hash (List (SignRuneToEvmTransferAnswer Hash)) :=
  Prog.perform (NodeOp.askMint message)

def askPayout (message : SignRuneTokenToBtcTransferQuestion) :
    NodeProg Hash (List SignRuneTokenToBtcTransferAnswer) :=
  Prog.perform (NodeOp.askPayout message)

def transact (call : AcceptTransferCall) (nonce : ℕ) : NodeProg Hash String :=
  Prog.perform (NodeOp.transact call nonce)

def broadcastPsbt (key : RuneTokenDepositKey) (psbt : Psbt) : NodeProg Hash String :=
  Prog.perform (NodeOp.broadcastPsbt key psbt)

def sendMessage : NodeProg Hash Unit := Prog.perform NodeOp.sendMessage

/-- A transaction that changes rows and returns nothing. -/
def update (body : Db Hash → PyResult (Db Hash)) : NodeProg Hash Unit :=
  transaction fun _ db => do
    let db ← body db
    pure ((), db)

/-- A transaction that only looks. -/
def query {β : Type} (body : Views Hash → Db Hash → PyResult β) : NodeProg Hash β :=
  transaction fun views db => do
    let b ← body views db
    pure (b, db)

end NodeProg

/-! ## Minting -/

namespace RuneBridgeService

variable {Hash : Type} (service : RuneBridgeService Hash)

def txGasLimit : ℕ := 250000

/-- The literal `1.2`, the margin the account's balance must leave. -/
def balanceMargin : ℚ := Binary64.round (12 / 10)

open Binary64 in
/-- `int(1.2 * tx_gas_limit * tx_gas_price)`. -/
def minBalanceWei (txGasPrice : ℕ) : ℤ :=
  Decimals.truncate (mul (mul balanceMargin (ofInt txGasLimit)) (ofInt txGasPrice))

/-- `_confirm_sent_rune_deposit`. -/
def confirmSentRuneDeposit (key : RuneDepositKey) : NodeProg Hash Unit := do
  let deposit ← NodeProg.query fun _ db => runeDeposit key db
  if deposit.status = .sentToEvm then
    let receipt ← NodeProg.read fun views => do
      let txHash ← orError deposit.evmTxHash (.other "invalid transaction hash")
      views.evm.getTransactionReceipt txHash
    match updatedStatus receipt with
    | none => pure ()
    | some status => do
        NodeProg.sendMessage
        NodeProg.update (confirmRuneDeposit key status)
  else
    pure ()

/-- `confirm_sent_rune_deposits`. -/
def confirmSentRuneDeposits : NodeProg Hash Unit := do
  let ids ← NodeProg.query fun _ db => pure (getSentRuneDepositIds db)
  Prog.forEach confirmSentRuneDeposit ids

/-- The checks before a mint is submitted, and the nonce to use. -/
def prepareSubmission : NodeProg Hash ℕ := do
  let txGasPrice ← NodeProg.read fun views => views.evm.gasPrice
  let balanceWei ← NodeProg.read fun views => views.evm.pendingBalance
  Prog.lift <| require (minBalanceWei txGasPrice ≤ (balanceWei : ℤ))
    (.runtimeError "Insufficient balance in EVM account")
  let nonce ← NodeProg.read fun views => views.evm.pendingTransactionCount
  let latest ← NodeProg.read fun views => views.evm.latestTransactionCount
  Prog.lift <| require ((nonce : ℤ) - latest < 4) (.runtimeError "Too many pending transactions")
  pure nonce

/-- The submission of a mint, and what is recorded of it. -/
def submitRuneDeposit (key : RuneDepositKey) (call : AcceptTransferCall) (nonce : ℕ) :
    NodeProg Hash Unit := do
  let txHash ← Prog.tryCatch
    (do
      let txHash ← NodeProg.transact call nonce
      NodeProg.sendMessage
      pure txHash)
    fun e => do
      NodeProg.update (failSendingRuneDeposit key)
      NodeProg.sendMessage
      throw e
  NodeProg.update (finishSendingRuneDeposit key txHash)
  confirmSentRuneDeposit key

/-- `send_rune_deposit_to_evm`. -/
def sendRuneDepositToEvm (key : RuneDepositKey) : NodeProg Hash Unit := do
  let frozen ← NodeProg.read fun views => views.contract.frozen
  if frozen = true then
    pure ()
  else do
    let numRequiredSigners ← NodeProg.read fun views => views.contract.numRequiredFederators
    let call ← NodeProg.transaction fun _ db => beginSendingRuneDeposit key numRequiredSigners db
    match call with
    | none => pure ()
    | some call => do
        let nonce ← prepareSubmission
        submitRuneDeposit key call nonce

/-- One round of `_handle_rune_transfers_to_evm`. -/
def handleRuneTransferToEvm (key : RuneDepositKey) : NodeProg Hash Unit := do
  let valid ← NodeProg.query fun views db => service.validateRuneDepositForSending views key db
  if valid = true then do
    let message ← NodeProg.query fun _ db => getSignRuneToEvmTransferQuestion key db
    let selfResponse ← NodeProg.read fun views =>
      service.answerSignRuneToEvmTransferQuestion views message
    let responses ← NodeProg.askMint message
    let readyToSend ← NodeProg.transaction fun views db =>
      service.updateRuneDepositSignatures views key selfResponse.messageHash
        (selfResponse :: responses) db
    if readyToSend = true then sendRuneDepositToEvm key else pure ()
  else
    pure ()

/-! ## Paying out -/

/-- The broadcast of a payout, and what is recorded of it.  The message about a failure is sent
within the transaction, which is refused when the message cannot be sent. -/
def broadcastPayout (key : RuneTokenDepositKey) (finalizedPsbt : Psbt) : NodeProg Hash Unit := do
  NodeProg.update (service.beginPayout key finalizedPsbt)
  let txid ← Prog.tryCatch (NodeProg.broadcastPsbt key finalizedPsbt) fun e => do
    NodeProg.update (failPayout key)
    throw e
  NodeProg.sendMessage
  NodeProg.update (finishPayout key txid)

/-- `handle_accepted_rune_token_deposit`. -/
def handleAcceptedRuneTokenDeposit (key : RuneTokenDepositKey) : NodeProg Hash Unit := do
  let transfer ← NodeProg.query fun _ db => getRuneTokenToBtcTransfer key db
  let (unsignedPsbt, message) ← NodeProg.read fun views => service.createPayout views transfer
  let selfResponse ← NodeProg.query fun views db =>
    service.answerSignRuneTokenToBtcTransferQuestion views db message
  let selfSignedPsbt ← Prog.lift (service.psbtCodec.fromBase64 selfResponse.signedPsbtSerialized)
  let responses ← NodeProg.askPayout message
  let finalizedPsbt ← Prog.lift (service.finalizePayout unsignedPsbt selfSignedPsbt responses)
  match finalizedPsbt with
  | none => pure ()
  | some finalizedPsbt => service.broadcastPayout key finalizedPsbt

/-! ## One iteration -/

/-- `except Exception`, which only logs. -/
def logged (p : NodeProg Hash Unit) : NodeProg Hash Unit := p.tryCatch fun _ => pure ()

/-- `_handle_rune_transfers_to_evm`. -/
def handleRuneTransfersToEvm : NodeProg Hash Unit := do
  let ids ← NodeProg.query fun _ db => pure (getAcceptedRuneDepositIds db)
  Prog.forEach (fun key => logged (service.handleRuneTransferToEvm key)) ids

/-- `_handle_rune_token_transfers_to_btc`. -/
def handleRuneTokenTransfersToBtc : NodeProg Hash Unit := do
  let ids ← NodeProg.query fun _ db => pure (getAcceptedRuneTokenDepositIds db)
  Prog.forEach (fun key => logged (service.handleAcceptedRuneTokenDeposit key)) ids

/-- `run_iteration`. -/
def runIteration (isLeader : Bool) : NodeProg Hash Unit := do
  NodeProg.check
  let _ ← NodeProg.transaction fun views db => service.scanRuneDeposits views db
  let _ ← NodeProg.transaction fun views db => service.scanRuneTokenDeposits views db
  confirmSentRuneDeposits
  if isLeader = true then do
    let frozen ← NodeProg.read fun views => views.contract.frozen
    if frozen = true then
      pure ()
    else do
      service.handleRuneTransfersToEvm
      service.handleRuneTokenTransfersToBtc
  else
    pure ()

end RuneBridgeService

/-! ## Surroundings -/

/-- How the commit of a transaction goes. -/
inductive Commit
  | done
  /-- The transaction does not begin, or is not committed. -/
  | refused (e : PyError)
  /-- The commit takes effect, but raises. -/
  | unacknowledged (e : PyError)

/-- Whether the transaction takes effect. -/
def Commit.takesEffect : Commit → Bool
  | refused _ => false
  | _ => true

/-- All that a call can meet. -/
structure Surroundings (Hash : Type) where
  views : Views Hash
  commit : Commit
  check : PyResult Unit
  askMint : PyResult (List (SignRuneToEvmTransferAnswer Hash))
  askPayout : PyResult (List SignRuneTokenToBtcTransferAnswer)
  transact : PyResult String
  broadcastPsbt : PyResult String
  sendMessage : PyResult Unit

/-- A node's database, and what it has tried to submit, oldest first. -/
structure NodeState (Hash : Type) where
  db : Db Hash
  transacted : List AcceptTransferCall
  broadcast : List (RuneTokenDepositKey × Psbt)

namespace NodeState

variable {Hash : Type}

/-- What a call returns at a moment, and what it does. -/
def handle (m : Surroundings Hash) (s : NodeState Hash) :
    (o : NodeOp Hash) → PyResult o.Resp × NodeState Hash
  | .transaction body =>
      match body m.views s.db with
      | .error e => (.error e, s)
      | .ok (b, db) =>
          match m.commit with
          | .done => (.ok b, { s with db := db })
          | .refused e => (.error e, s)
          | .unacknowledged e => (.error e, { s with db := db })
  | .read query => (query m.views, s)
  | .check => (m.check, s)
  | .askMint _ => (m.askMint, s)
  | .askPayout _ => (m.askPayout, s)
  | .transact call _ => (m.transact, { s with transacted := s.transacted ++ [call] })
  | .broadcastPsbt key psbt =>
      (m.broadcastPsbt, { s with broadcast := s.broadcast ++ [(key, psbt)] })
  | .sendMessage => (m.sendMessage, s)

/-- Run a program of a node. -/
abbrev eval {α : Type} (p : NodeProg Hash α) (env : ℕ → Surroundings Hash) (s : NodeState Hash) :
    PyResult α × NodeState Hash :=
  Prog.eval handle p env s

section Eval

variable {α β : Type} {env : ℕ → Surroundings Hash} {s : NodeState Hash} {f : β → NodeProg Hash α}

lemma eval_read_bind {query : Views Hash → PyResult β} :
    eval (NodeProg.read query >>= f) env s =
      match query (env 0).views with
      | .ok b => eval (f b) (fun n => env (n + 1)) s
      | .error e => (.error e, s) := by
  refine (@eval_perform_bind _ NodeOp.Resp _ _ _ _ _ _ _ (.read query) f).trans ?_
  simp only [handle]
  cases query (env 0).views with
  | ok b => rfl
  | error e => rfl

lemma eval_transaction_bind {body : Views Hash → Db Hash → PyResult (β × Db Hash)} :
    eval (NodeProg.transaction body >>= f) env s =
      match body (env 0).views s.db with
      | .error e => (.error e, s)
      | .ok (b, db) =>
          match (env 0).commit with
          | .done => eval (f b) (fun n => env (n + 1)) { s with db := db }
          | .refused e => (.error e, s)
          | .unacknowledged e => (.error e, { s with db := db }) := by
  refine (@eval_perform_bind _ NodeOp.Resp _ _ _ _ _ _ _ (.transaction body) f).trans ?_
  simp only [handle]
  rcases body (env 0).views s.db with e | ⟨b, db⟩
  · rfl
  · cases (env 0).commit with
    | done => rfl
    | refused e => rfl
    | unacknowledged e => rfl

/-- What has been submitted stays submitted. -/
lemma length_transacted_eval (p : NodeProg Hash α) :
    s.transacted.length ≤ (eval p env s).2.transacted.length := by
  refine eval_keeps (Prog.calls_true p) (I := fun s' : NodeState Hash =>
    s.transacted.length ≤ s'.transacted.length) ?_ le_rfl
  intro m s' o _ h
  cases o with
  | transaction body =>
      rw [handle]
      rcases body m.views s'.db with e | ⟨b, db⟩
      · exact h
      · cases m.commit with
        | done => exact h
        | refused e => exact h
        | unacknowledged e => exact h
  | transact call nonce =>
      rw [handle, List.length_append]
      exact h.trans (Nat.le_add_right _ _)
  | _ => exact h

end Eval

end NodeState

end NbteBridge
