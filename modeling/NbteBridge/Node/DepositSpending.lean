import NbteBridge.Node.DepositScan
import NbteBridge.Node.TransactionEffects
import NbteBridge.Ord.Accounting

/-!
# Deposits are spent after they were processed

Users deposit to the wallet that payouts are made from, and an output that is spent is gone from
`ord`.  A scan that comes later does not find its runes, and nobody can check the mint.  The guard
of `create_rune_psbt` against this counts confirmations: an output that is not change is selected
once it has as many as a deposit needs to be accepted, and one more on mainnet.  Whether the deposit
was accepted, and sent, the wallet does not know.

The runs here are those of a leader: blocks arrive and addresses are handed out at any time, scans,
mints and payouts come in any order, and submissions fail or are given up.  As long as no payout
starts while an output that the guard lets through is still to be scanned or sent, what payouts
spend was submitted before (`deposits_spent_after_processing`).  A deposit that waits for signatures
is spent (`waiting_deposit_spent`).
-/

namespace NbteBridge

open Checked Tables Runs

/-! ## Processed deposits -/

/-- `SENT_TO_EVM` or later. -/
def RuneDepositStatus.submitted : RuneDepositStatus → Bool
  | .sentToEvm => true
  | .confirmedInEvm => true
  | .evmTransactionFailed => true
  | _ => false

/-- Accepted, and not known to be submitted. -/
def RuneDepositStatus.waits : RuneDepositStatus → Bool
  | .accepted => true
  | .sendingToEvm => true
  | .sendingToEvmFailed => true
  | _ => false

lemma RuneDepositStatus.submitted_of_reachedAccepted {status : RuneDepositStatus}
    (hreached : status.reachedAccepted = true) (hwaits : status.waits = false) :
    status.submitted = true := by
  cases status <;> simp_all [reachedAccepted, waits, submitted]

lemma RuneDepositStatus.reachedAccepted_of_submitted {status : RuneDepositStatus}
    (h : status.submitted = true) : status.reachedAccepted = true := by
  cases status <;> simp_all [reachedAccepted, submitted]

section Processed

variable {Hash : Type}

/-- The transaction of an output is recorded, with a deposit for each rune on it, and all its
deposits have been submitted to the EVM chain. -/
structure Processed (runesOf : ReportedRunes) (db : Db Hash) (o : Outpoint) : Prop where
  incoming : ∃ row, db.incomingBtcTxs.get? o = some row
  deposits : ∀ e ∈ runesOf o, ∃ rune row, runeFromStr e.1 = .ok rune ∧
    db.runeDeposits.get? ⟨o.txid, o.vout, rune.n⟩ = some row
  submitted : ∀ n row, db.runeDeposits.get? ⟨o.txid, o.vout, n⟩ = some row →
    row.status.submitted = true

variable {runesOf : ReportedRunes} {db db' : Db Hash}

lemma Processed.reached {o : Receipt} (h : Processed runesOf db o.outpoint) :
    Reached runesOf db o := by
  intro e he
  obtain ⟨rune, row, hrune, hrow⟩ := h.deposits e he
  exact ⟨rune, row, hrune, hrow,
    RuneDepositStatus.reachedAccepted_of_submitted (h.submitted _ row hrow)⟩

/-- What is processed stays processed, unless deposits of the output are added. -/
lemma Processed.of_kept {o : Outpoint} (h : Processed runesOf db o)
    (hincoming : ∀ row, db.incomingBtcTxs.get? o = some row →
      ∃ row', db'.incomingBtcTxs.get? o = some row')
    (hdeposits : ∀ k row, db.runeDeposits.get? k = some row →
      ∃ row', db'.runeDeposits.get? k = some row' ∧
        (row.status.submitted = true → row'.status.submitted = true))
    (hnew : ∀ n row', db'.runeDeposits.get? ⟨o.txid, o.vout, n⟩ = some row' →
      ∃ row, db.runeDeposits.get? ⟨o.txid, o.vout, n⟩ = some row) : Processed runesOf db' o where
  incoming := by
    obtain ⟨row, hrow⟩ := h.incoming
    exact hincoming row hrow
  deposits e he := by
    obtain ⟨rune, row, hrune, hrow⟩ := h.deposits e he
    obtain ⟨row', hrow', -⟩ := hdeposits _ row hrow
    exact ⟨rune, row', hrune, hrow'⟩
  submitted n row' hrow' := by
    obtain ⟨row, hrow⟩ := hnew n row' hrow'
    obtain ⟨row'', hrow'', hsubmitted⟩ := hdeposits _ row hrow
    obtain rfl : row'' = row' := Option.some.inj (hrow''.symm.trans hrow')
    exact hsubmitted (h.submitted n row hrow)

/-! ## Deposits and their transactions -/

/-- Every deposit is of a transaction that is recorded. -/
def Db.Linked (db : Db Hash) : Prop :=
  ∀ k row, db.runeDeposits.get? k = some row →
    ∃ tx, db.incomingBtcTxs.get? ⟨k.txId, k.vout⟩ = some tx

namespace Db.Linked

open RuneBridgeService

variable {service : RuneBridgeService Hash} {views : Views Hash}

lemma empty : (Db.empty : Db Hash).Linked := fun _ _ h => absurd h (by simp [Db.empty])

lemma of_eq (h : db.Linked) (hincoming : db'.incomingBtcTxs = db.incomingBtcTxs)
    (hdeposits : ∀ k row', db'.runeDeposits.get? k = some row' →
      ∃ row, db.runeDeposits.get? k = some row) : db'.Linked := by
  intro k row' hrow'
  obtain ⟨row, hrow⟩ := hdeposits k row' hrow'
  rw [hincoming]
  exact h k row hrow

lemma indexRuneDeposits {tx : WalletTransaction} {user : User} {postage : ℕ}
    {entries : List (String × RuneBalanceEntry)} (h : db.Linked)
    (htx : ∃ row, db.incomingBtcTxs.get? ⟨tx.txid, tx.vout⟩ = some row)
    (hindex : service.indexRuneDeposits tx user postage entries db = .ok db') : db'.Linked := by
  induction entries generalizing db with
  | nil =>
      obtain rfl := pure_eq_ok.1 hindex
      exact h
  | cons entry entries ih =>
      simp only [RuneBridgeService.indexRuneDeposits, bind_eq_ok] at hindex
      obtain ⟨db₁, hentry, hrest⟩ := hindex
      obtain ⟨rune, runeRow, blockheight, -, -, -, rfl⟩ :=
        RuneBridgeService.indexRuneDeposit_ok hentry
      have hset : (db.setRuneDeposit ⟨tx.txid, tx.vout, rune.n⟩ (service.updateRuneDeposit tx
          blockheight user postage runeRow entry.2
          (db.runeDeposits.get? ⟨tx.txid, tx.vout, rune.n⟩))).Linked := by
        intro k row hrow
        rw [Db.setRuneDeposit, Table.get?_set] at hrow
        by_cases hk : k = ⟨tx.txid, tx.vout, rune.n⟩
        · rw [hk]
          exact htx
        · rw [if_neg hk] at hrow
          exact h k row hrow
      exact ih hset htx hrest

lemma indexTx {scanned : ScannedTx} {n : ℕ} (h : db.Linked)
    (hindex : service.indexTx scanned db = .ok (n, db')) : db'.Linked := by
  simp only [RuneBridgeService.indexTx, bind_eq_ok, exists_unit, require_eq_ok] at hindex
  obtain ⟨-, hindex⟩ := hindex
  have hset (row : IncomingBtcTx) :
      (db.setIncomingBtcTx ⟨scanned.tx.txid, scanned.tx.vout⟩ row).Linked := by
    intro k deposit hdeposit
    obtain ⟨tx, htx⟩ := h k deposit hdeposit
    rw [Db.setIncomingBtcTx, Table.get?_set]
    split
    · exact ⟨row, rfl⟩
    · exact ⟨tx, htx⟩
  split at hindex
  · simp only [bind_eq_ok, pure_eq_ok] at hindex
    obtain ⟨db₁, hdeposits, heq⟩ := hindex
    obtain ⟨-, rfl⟩ := Prod.mk.inj heq
    exact (hset _).indexRuneDeposits
      ⟨_, by rw [Db.setIncomingBtcTx, Table.get?_set, if_pos rfl]⟩ hdeposits
  · obtain ⟨-, rfl⟩ := Prod.mk.inj (pure_eq_ok.1 hindex)
    exact hset _

lemma indexTxs {txs : List ScannedTx} {n : ℕ} (h : db.Linked)
    (hindex : service.indexTxs txs db = .ok (n, db')) : db'.Linked := by
  induction txs generalizing db n with
  | nil =>
      obtain ⟨-, rfl⟩ := Prod.mk.inj (pure_eq_ok.1 hindex)
      exact h
  | cons scanned txs ih =>
      simp only [RuneBridgeService.indexTxs, bind_eq_ok, pure_eq_ok] at hindex
      obtain ⟨⟨n₁, db₁⟩, htx, ⟨n₂, db₂⟩, hrest, heq⟩ := hindex
      obtain ⟨-, rfl⟩ := Prod.mk.inj heq
      exact ih (h.indexTx htx) hrest

lemma scanRuneDeposits {n : ℕ} (h : db.Linked)
    (hscan : service.scanRuneDeposits views db = .ok (n, db')) : db'.Linked := by
  simp only [RuneBridgeService.scanRuneDeposits, indexDeposits, bind_eq_ok, exists_unit,
    require_eq_ok, pure_eq_ok] at hscan
  obtain ⟨batch, -, db₁, hrunes, ⟨m, db₂⟩, htxs, -, heq⟩ := hscan
  obtain ⟨-, rfl⟩ := Prod.mk.inj heq
  obtain ⟨runes, rfl⟩ := indexRunes_ok hrunes
  have hdb : ({ db with runes := runes } : Db Hash).Linked := h
  have hdb₂ : db₂.Linked := hdb.indexTxs htxs
  exact hdb₂

end Db.Linked

/-! ## Changes of status -/

/-- What a transaction of the leader does to the deposits: none is added or removed, and statuses
move as `moves` says. -/
structure StatusChanges (moves : RuneDepositStatus → RuneDepositStatus → Prop) (db db' : Db Hash) :
    Prop where
  users : db'.users = db.users
  depositAddresses : db'.depositAddresses = db.depositAddresses
  incomingBtcTxs : db'.incomingBtcTxs = db.incomingBtcTxs
  lastScannedBlock : db'.lastScannedBlock = db.lastScannedBlock
  deposits : ∀ k row, db.runeDeposits.get? k = some row →
    ∃ row', db'.runeDeposits.get? k = some row' ∧
      row'.transferAmountRaw = row.transferAmountRaw ∧
      (row'.status = row.status ∨ moves row.status row'.status)
  deposits_of : ∀ k row', db'.runeDeposits.get? k = some row' →
    ∃ row, db.runeDeposits.get? k = some row

namespace StatusChanges

variable {moves : RuneDepositStatus → RuneDepositStatus → Prop}

lemma of_eq (husers : db'.users = db.users)
    (haddresses : db'.depositAddresses = db.depositAddresses)
    (hincoming : db'.incomingBtcTxs = db.incomingBtcTxs)
    (hlast : db'.lastScannedBlock = db.lastScannedBlock)
    (hdeposits : db'.runeDeposits = db.runeDeposits) : StatusChanges moves db db' where
  users := husers
  depositAddresses := haddresses
  incomingBtcTxs := hincoming
  lastScannedBlock := hlast
  deposits _ row hrow := ⟨row, hdeposits ▸ hrow, rfl, .inl rfl⟩
  deposits_of _ row hrow := ⟨row, hdeposits ▸ hrow⟩

lemma setRuneDeposit {key : RuneDepositKey} {row row' : RuneDeposit Hash}
    (hrow : db.runeDeposits.get? key = some row)
    (hamount : row'.transferAmountRaw = row.transferAmountRaw)
    (hmoves : row'.status = row.status ∨ moves row.status row'.status) :
    StatusChanges moves db (db.setRuneDeposit key row') where
  users := rfl
  depositAddresses := rfl
  incomingBtcTxs := rfl
  lastScannedBlock := rfl
  deposits k old hold := by
    rw [Db.setRuneDeposit, Table.get?_set]
    by_cases hk : k = key
    · subst hk
      obtain rfl : row = old := Option.some.inj (hrow.symm.trans hold)
      exact ⟨row', if_pos rfl, hamount, hmoves⟩
    · exact ⟨old, by rw [if_neg hk, hold], rfl, .inl rfl⟩
  deposits_of k new hnew := by
    rw [Db.setRuneDeposit, Table.get?_set] at hnew
    by_cases hk : k = key
    · exact ⟨row, hk ▸ hrow⟩
    · rw [if_neg hk] at hnew
      exact ⟨new, hnew⟩

lemma processKept (h : StatusChanges moves db db') (hmoves : ∀ s s', moves s s' →
    s.reachedAccepted = true ∧ s'.reachedAccepted = true) : ProcessKept db db' where
  users := h.users
  depositAddresses := h.depositAddresses
  lastScannedBlock := h.lastScannedBlock
  deposits k row hrow := by
    obtain ⟨row', hrow', hamount, hsame | hmove⟩ := h.deposits k row hrow
    · exact ⟨row', hrow', hamount, .inl hsame⟩
    · exact ⟨row', hrow', hamount, .inr (hmoves _ _ hmove)⟩
  deposits_of := h.deposits_of

lemma linked (h : StatusChanges moves db db') (hlinked : db.Linked) : db'.Linked :=
  hlinked.of_eq h.incomingBtcTxs h.deposits_of

lemma processed {o : Outpoint} (h : StatusChanges moves db db')
    (hmoves : ∀ s s', moves s s' → s.submitted = true → s'.submitted = true)
    (hprocessed : Processed runesOf db o) : Processed runesOf db' o := by
  refine hprocessed.of_kept (fun row hrow => ⟨row, h.incomingBtcTxs ▸ hrow⟩) (fun k row hrow => ?_)
    fun n row' hrow' => h.deposits_of _ row' hrow'
  obtain ⟨row', hrow', -, hsame | hmove⟩ := h.deposits k row hrow
  · exact ⟨row', hrow', fun hsubmitted => hsame ▸ hsubmitted⟩
  · exact ⟨row', hrow', hmoves _ _ hmove⟩

end StatusChanges

end Processed

/-! ## The leader and its wallet -/

/-- What `create_rune_psbt` selected, and the node's database at that time. -/
structure PayoutSelection (Hash : Type) where
  selected : List UTXO
  db : Db Hash

/-- The node and the chain, the submission of a mint that is going on, and the payouts so far. -/
structure SpendingState (Hash : Type) where
  node : ScanState Hash
  sending : Option RuneDepositKey
  payouts : List (PayoutSelection Hash)

/-- A payout spends the output, once it is in a block. -/
def SpendingState.Spent {Hash : Type} (s : SpendingState Hash) (o : Outpoint) : Prop :=
  ∃ p ∈ s.payouts, ∃ u ∈ p.selected, u.outpoint = o

/-- What a payout can count on.  `listunspent` lists outputs with the address they were received at
and with their confirmations, those at deposit addresses being receipts, and `ord` reports the same
runes every time. -/
structure SeesUnspent {Hash : Type} (runesOf : ReportedRunes) (s : ScanState Hash)
    (views : Views Hash) : Prop where
  received : ∀ utxos, views.bitcoinRpc.listunspent = .ok utxos → ∀ u ∈ utxos, ∀ address,
    u.address = some address → (s.db.depositAddresses.get? address).isSome = true →
      ∃ o ∈ s.receipts, o.outpoint = u.outpoint
  receipt : ∀ utxos, views.bitcoinRpc.listunspent = .ok utxos → ∀ u ∈ utxos, ∀ o ∈ s.receipts,
    o.outpoint = u.outpoint → u.address = some o.address ∧ u.confirmations + o.height = s.tip + 1
  reported : ∀ o ∈ s.receipts, (s.db.depositAddresses.get? o.address).isSome = true →
    ∀ response, views.ordClient.getOutput o.outpoint.txid o.outpoint.vout = .ok response →
      response.indexed = true → response.runes = runesOf o.outpoint

inductive SpendingAction (Hash : Type)
  | block (received : List (Outpoint × String))
  | address (evmAddress : String)
  | scan (views : Views Hash)
  | work (views : Views Hash) (t : NodeTransaction Hash)
  | beginSending (key : RuneDepositKey) (numRequiredSigners : ℕ)
  | sent (key : RuneDepositKey) (txHash : String)
  | failed (key : RuneDepositKey)
  | raised
  | payout (views : Views Hash) (transfers : List RuneTransfer) (feeRate : ℤ) (maxNumInputs : ℕ)

/-- The transactions that have no action of their own; a sent deposit is confirmed with a
receipt. -/
def NodeTransaction.Elsewhere {Hash : Type} : NodeTransaction Hash → Prop
  | .scanRuneTokenDeposits => True
  | .updateRuneDepositSignatures _ _ _ => True
  | .confirmRuneDeposit _ status =>
      ∃ receipt, RuneBridgeService.updatedStatus receipt = some status
  | .beginPayout _ _ => True
  | .failPayout _ => True
  | .finishPayout _ _ => True
  | _ => False

/-- `min_non_change_rune_utxo_confirmations` of `wire_rune_bridge`. -/
def RuneBridgeServiceConfig.minNonChangeRuneUtxoConfirmations (config : RuneBridgeServiceConfig) :
    ℕ :=
  if config.btcNetwork = .mainnet then config.btcMinConfirmations + 1
  else config.btcMinConfirmations

section Spending

variable {Hash : Type} (service : RuneBridgeService Hash) (hashAt : ℕ → String)
  (runesOf : ReportedRunes)

structure SpendingInit (s : SpendingState Hash) : Prop where
  node : ScanInit s.node
  sending : s.sending = none
  payouts : s.payouts = []

/-- A block brings outputs that nobody has spent yet.  What ends a submission follows its begin, and
an exception between the two ends it for good. -/
inductive SpendingStep : SpendingState Hash → SpendingAction Hash → SpendingState Hash → Prop
  | block {s : SpendingState Hash} {received : List (Outpoint × String)}
      (hnew : ((s.node.mine received).receipts.map Receipt.outpoint).Nodup)
      (hunspent : ∀ o ∈ received, ¬ s.Spent o.1) :
      SpendingStep s (.block received) { s with node := s.node.mine received }
  | address {s : SpendingState Hash} {evmAddress btcAddress : String} {db : Db Hash}
      (h : service.generateDepositAddress evmAddress s.node.db = .ok (btcAddress, db)) :
      SpendingStep s (.address evmAddress) { s with node := { s.node with db := db } }
  | scan {s : SpendingState Hash} {views : Views Hash} {n : ℕ} {db : Db Hash}
      (hsees : SeesOutputs hashAt runesOf s.Spent s.node views)
      (h : service.scanRuneDeposits views s.node.db = .ok (n, db)) :
      SpendingStep s (.scan views)
        { s with node := { s.node with db := db, scanned := some s.node.tip } }
  | work {s : SpendingState Hash} {views : Views Hash} {t : NodeTransaction Hash} {db : Db Hash}
      (helsewhere : t.Elsewhere) (h : t.run service views s.node.db = .ok db) :
      SpendingStep s (.work views t) { s with node := { s.node with db := db } }
  | beginSending {s : SpendingState Hash} {key : RuneDepositKey} {numRequiredSigners : ℕ}
      {call : Option AcceptTransferCall} {db : Db Hash}
      (h : RuneBridgeService.beginSendingRuneDeposit key numRequiredSigners s.node.db =
        .ok (call, db)) :
      SpendingStep s (.beginSending key numRequiredSigners)
        { s with node := { s.node with db := db }, sending := call.map fun _ => key }
  | sent {s : SpendingState Hash} {key : RuneDepositKey} {txHash : String} {db : Db Hash}
      (hsending : s.sending = some key)
      (h : RuneBridgeService.finishSendingRuneDeposit key txHash s.node.db = .ok db) :
      SpendingStep s (.sent key txHash)
        { s with node := { s.node with db := db }, sending := none }
  | failed {s : SpendingState Hash} {key : RuneDepositKey} {db : Db Hash}
      (hsending : s.sending = some key)
      (h : RuneBridgeService.failSendingRuneDeposit key s.node.db = .ok db) :
      SpendingStep s (.failed key) { s with node := { s.node with db := db }, sending := none }
  | raised {s : SpendingState Hash} : SpendingStep s .raised { s with sending := none }
  | payout {s : SpendingState Hash} {views : Views Hash} {transfers : List RuneTransfer}
      {feeRate : ℤ} {maxNumInputs : ℕ} {psbt : Psbt} {selected : List UTXO}
      (hsees : SeesUnspent runesOf s.node views)
      (h : service.ordMultisig.createRunePsbtSelecting views.bitcoinRpc views.ordClient
        service.codec transfers feeRate maxNumInputs = .ok (psbt, selected)) :
      SpendingStep s (.payout views transfers feeRate maxNumInputs)
        { s with payouts := s.payouts ++ [⟨selected, s.node.db⟩] }

/-- **The property.**  The deposit outputs a payout selects are processed by then, and what is spent
need not be indexed, validated or signed any more. -/
structure SpendsProcessed (s : SpendingState Hash) : Prop where
  selected : ∀ p ∈ s.payouts, ∀ u ∈ p.selected, ∀ address, u.address = some address →
    (p.db.depositAddresses.get? address).isSome = true → runesOf u.outpoint ≠ [] →
      Processed runesOf p.db u.outpoint
  visible : ∀ o ∈ s.node.watched, runesOf o.outpoint ≠ [] →
    ¬ Processed runesOf s.node.db o.outpoint → ¬ s.Spent o.outpoint

/-- The guard lets a payout of these transfers spend a deposit: it has the confirmations, and a rune
that is paid out. -/
structure Spendable (s : SpendingState Hash) (transfers : List RuneTransfer) (o : Receipt) :
    Prop where
  mem : o ∈ s.node.receipts
  known : (s.node.db.depositAddresses.get? o.address).isSome = true
  confirmations : service.ordMultisig.minNonChangeRuneUtxoConfirmations + o.height ≤ s.node.tip + 1
  requested : ∃ t ∈ transfers, ∃ e ∈ runesOf o.outpoint, runeFromStr e.1 = .ok t.rune

/-- The last scan saw the deposit with the confirmations it needs, and it was sent since. -/
structure Settled (s : SpendingState Hash) (o : Receipt) : Prop where
  watched : o ∈ s.node.watched
  scanned : ∃ T, s.node.scanned = some T ∧ o.height ≤ T ∧
    service.config.btcMinConfirmations + o.height ≤ T + 1
  sent : ∀ n row, s.node.db.runeDeposits.get? ⟨o.outpoint.txid, o.outpoint.vout, n⟩ = some row →
    row.status.waits = false

/-- **The condition.**  A payout starts when no deposit that the guard lets it spend is still to be
scanned or sent. -/
def PaysSettled (s : SpendingState Hash) : SpendingAction Hash → Prop
  | .payout _ transfers _ _ =>
      ∀ o, Spendable service runesOf s transfers o → Settled service s o
  | _ => True

end Spending

/-! ## What a payout selects -/

section Selection

variable {Hash : Type} {service : RuneBridgeService Hash} {runesOf : ReportedRunes}
  {s : ScanState Hash} {views : Views Hash}

lemma mem_of_normalizedBalances {runes : List (String × RuneBalanceEntry)}
    {seen balances : List (Rune × ℕ)} (h : normalizedBalances runes seen = .ok balances) :
    ∀ b ∈ balances, b ∈ seen ∨ ∃ e ∈ runes, runeFromStr e.1 = .ok b.1 := by
  induction runes generalizing seen with
  | nil =>
      obtain rfl := pure_eq_ok.1 h
      exact fun b hb => .inl hb
  | cons e runes ih =>
      obtain ⟨name, entry⟩ := e
      simp only [normalizedBalances, bind_eq_ok, exists_unit, require_eq_ok] at h
      obtain ⟨rune, hrune, -, h⟩ := h
      intro b hb
      rcases ih h b hb with hseen | ⟨e, he, hb⟩
      · rcases List.mem_append.1 hseen with hseen | hnew
        · exact .inl hseen
        · obtain rfl := List.mem_singleton.1 hnew
          exact .inr ⟨(name, entry), List.mem_cons_self, hrune⟩
      · exact .inr ⟨e, List.mem_cons_of_mem _ he, hb⟩

lemma length_le_of_normalizedBalances {runes : List (String × RuneBalanceEntry)}
    {seen balances : List (Rune × ℕ)} (h : normalizedBalances runes seen = .ok balances) :
    balances.length = seen.length + runes.length := by
  induction runes generalizing seen with
  | nil =>
      obtain rfl := pure_eq_ok.1 h
      rfl
  | cons e runes ih =>
      obtain ⟨name, entry⟩ := e
      simp only [normalizedBalances, bind_eq_ok, exists_unit, require_eq_ok] at h
      obtain ⟨rune, -, -, h⟩ := h
      rw [ih h, List.length_append, List.length_singleton, List.length_cons]
      omega

/-- The runes `ord` reports on a receipt are those of its output. -/
lemma SeesUnspent.getOrdOutput (hsees : SeesUnspent runesOf s views) {o : Receipt}
    (ho : o ∈ s.receipts) (hknown : (s.db.depositAddresses.get? o.address).isSome = true)
    {output : OrdOutput}
    (h : views.ordClient.getOrdOutput o.outpoint.txid o.outpoint.vout = .ok output) :
    normalizedBalances (runesOf o.outpoint) [] = .ok output.runeBalances := by
  simp only [OrdApiClient.getOrdOutput, bind_eq_ok, exists_unit, require_eq_ok, pure_eq_ok] at h
  obtain ⟨response, hresponse, hindexed, -, balances, hbalances, rfl⟩ := h
  rw [← hsees.reported o ho hknown response hresponse hindexed]
  exact hbalances

/-- **What the guard lets through**: a deposit output with runes that is selected has the
confirmations, and a rune that is paid out. -/
theorem SeesUnspent.spendable {payouts : List (PayoutSelection Hash)}
    {sending : Option RuneDepositKey} (hsees : SeesUnspent runesOf s views)
    {transfers : List RuneTransfer} {feeRate : ℤ} {maxNumInputs : ℕ} {psbt : Psbt}
    {selected : List UTXO}
    (h : service.ordMultisig.createRunePsbtSelecting views.bitcoinRpc views.ordClient
      service.codec transfers feeRate maxNumInputs = .ok (psbt, selected))
    {u : UTXO} (hu : u ∈ selected) {o : Receipt} (ho : o ∈ s.receipts)
    (houtpoint : o.outpoint = u.outpoint)
    (hknown : (s.db.depositAddresses.get? o.address).isSome = true)
    (hchange : o.address ≠ service.ordMultisig.changeAddress) (hrunes : runesOf o.outpoint ≠ []) :
    Spendable service runesOf ⟨s, sending, payouts⟩ transfers o := by
  obtain ⟨selection, outputAmountSat, hselects, -, rfl⟩ :=
    OrdMultisig.createRunePsbtSelecting_eq_ok.1 h
  obtain ⟨utxos, hlist, hall⟩ := hselects.mem_selected
  obtain ⟨hmem, hcase⟩ := hall u hu
  obtain ⟨haddress, hconfirmations⟩ := hsees.receipt utxos hlist u hmem o ho houtpoint
  have houtput : views.ordClient.getOrdOutput u.txid u.vout =
      views.ordClient.getOrdOutput o.outpoint.txid o.outpoint.vout := by
    rw [houtpoint]
    rfl
  rcases hcase with ⟨output, hget, hnone⟩ | ⟨haged, t, ht, hbalance⟩
  -- an output without runes is none of these deposits
  · have hbalances := hsees.getOrdOutput ho hknown (houtput ▸ hget)
    have hlength := length_le_of_normalizedBalances hbalances
    have hempty : output.runeBalances = [] := by
      simpa [OrdOutput.hasRuneBalances] using hnone
    rw [hempty] at hlength
    exact absurd (List.length_eq_zero_iff.1 (by simpa using hlength.symm)) hrunes
  refine ⟨ho, hknown, ?_, t, ht, ?_⟩
  · have hold : service.ordMultisig.minNonChangeRuneUtxoConfirmations ≤ u.confirmations := by
      simp only [OrdMultisig.tooFresh, decide_eq_false_iff_not, not_and, not_lt] at haged
      refine haged fun heq => hchange ?_
      rw [haddress] at heq
      exact Option.some.inj heq
    show _ ≤ s.tip + 1
    omega
  · cases hget : views.ordClient.getOrdOutput u.txid u.vout with
    | error e =>
        rw [OrdMultisig.reportedBalance, hget] at hbalance
        exact absurd rfl hbalance
    | ok output =>
        rw [OrdMultisig.reportedBalance_of_ok t.rune hget] at hbalance
        have hbalances := hsees.getOrdOutput ho hknown (houtput ▸ hget)
        unfold OrdOutput.balanceOf at hbalance
        cases hfind : output.runeBalances.find? fun e => e.1 = t.rune with
        | none =>
            rw [hfind] at hbalance
            exact absurd rfl hbalance
        | some b =>
            have hrune : b.1 = t.rune := by simpa using List.find?_some hfind
            rcases mem_of_normalizedBalances hbalances b (List.mem_of_find?_eq_some hfind) with
              hseen | ⟨e, he, hname⟩
            · exact absurd hseen (by simp)
            · exact ⟨e, he, hrune ▸ hname⟩

end Selection

/-! ## The invariant -/

section Invariant

variable {Hash : Type} {service : RuneBridgeService Hash} {hashAt : ℕ → String}
  {runesOf : ReportedRunes} {s s' : SpendingState Hash}

/-- What holds in every state of a run in which payouts start with settled deposits. -/
structure SpendingInv (service : RuneBridgeService Hash) (hashAt : ℕ → String)
    (runesOf : ReportedRunes) (s : SpendingState Hash) : Prop where
  scan : ScanInv service hashAt runesOf s.node
  linked : s.node.db.Linked
  sending : ∀ key, s.sending = some key →
    ∃ row, s.node.db.runeDeposits.get? key = some row ∧ row.status = .sendingToEvm
  selected : ∀ p ∈ s.payouts, ∀ u ∈ p.selected, ∀ address, u.address = some address →
    (p.db.depositAddresses.get? address).isSome = true → runesOf u.outpoint ≠ [] →
      Processed runesOf p.db u.outpoint
  spent : ∀ o ∈ s.node.watched, s.Spent o.outpoint → runesOf o.outpoint ≠ [] →
    Processed runesOf s.node.db o.outpoint

lemma SpendingInit.inv (h : SpendingInit s) : SpendingInv service hashAt runesOf s where
  scan := h.node.inv
  linked := by
    rw [h.node.db]
    exact .empty
  sending key hkey := by
    rw [h.sending] at hkey
    exact absurd hkey (by simp)
  selected p hp := by
    rw [h.payouts] at hp
    exact absurd hp (by simp)
  spent o ho := by
    rw [h.node.watched] at ho
    exact absurd ho (by simp)

lemma SpendingInv.spendsProcessed (h : SpendingInv service hashAt runesOf s) :
    SpendsProcessed runesOf s where
  selected := h.selected
  visible o ho hrunes hnot hspent := hnot (h.spent o ho hspent hrunes)

/-! ## Its preservation -/

namespace SpendingInv

lemma block {received : List (Outpoint × String)} (h : SpendingInv service hashAt runesOf s)
    (hnew : ((s.node.mine received).receipts.map Receipt.outpoint).Nodup)
    (hunspent : ∀ o ∈ received, ¬ s.Spent o.1) :
    SpendingInv service hashAt runesOf { s with node := s.node.mine received } where
  scan := h.scan.block hnew
  linked := h.linked
  sending := h.sending
  selected := h.selected
  spent o ho hspent hrunes := by
    rcases List.mem_append.1 ho with ho | ho
    · exact h.spent o ho hspent hrunes
    · obtain ⟨p, hp, rfl⟩ := List.mem_map.1 (List.mem_filter.1 ho).1
      exact absurd hspent (hunspent p hp)

lemma address {evmAddress btcAddress : String} {db : Db Hash}
    (h : SpendingInv service hashAt runesOf s)
    (hstep : service.generateDepositAddress evmAddress s.node.db = .ok (btcAddress, db)) :
    SpendingInv service hashAt runesOf { s with node := { s.node with db := db } } := by
  have hscan := h.scan.address hstep
  obtain ⟨users, addresses, rfl, -, -⟩ := RuneBridgeService.generateDepositAddress_frame hstep
  refine ⟨hscan, h.linked, h.sending, h.selected, fun o ho hspent hrunes => ?_⟩
  have hprocessed := h.spent o ho hspent hrunes
  exact ⟨hprocessed.incoming, hprocessed.deposits, hprocessed.submitted⟩

/-- A transaction of the leader. -/
lemma changes {moves : RuneDepositStatus → RuneDepositStatus → Prop} {db : Db Hash}
    {sending : Option RuneDepositKey} (h : SpendingInv service hashAt runesOf s)
    (hchanges : StatusChanges moves s.node.db db)
    (hmoves : ∀ st st', moves st st' → st.reachedAccepted = true ∧ st'.reachedAccepted = true ∧
      (st.submitted = true → st'.submitted = true))
    (hsending : ∀ key, sending = some key →
      ∃ row, db.runeDeposits.get? key = some row ∧ row.status = .sendingToEvm) :
    SpendingInv service hashAt runesOf
      { s with node := { s.node with db := db }, sending := sending } where
  scan := h.scan.process (hchanges.processKept fun st st' hmove =>
    ⟨(hmoves st st' hmove).1, (hmoves st st' hmove).2.1⟩)
  linked := hchanges.linked h.linked
  sending := hsending
  selected := h.selected
  spent o ho hspent hrunes := hchanges.processed (fun st st' hmove => (hmoves st st' hmove).2.2)
    (h.spent o ho hspent hrunes)

lemma scanned {views : Views Hash} {n : ℕ} {db : Db Hash}
    (hms : service.ordMultisig.DerivesAddresses) (h : SpendingInv service hashAt runesOf s)
    (hsees : SeesOutputs hashAt runesOf s.Spent s.node views)
    (hstep : service.scanRuneDeposits views s.node.db = .ok (n, db)) :
    SpendingInv service hashAt runesOf
      { s with node := { s.node with db := db, scanned := some s.node.tip } } := by
  have hscan : ScanInv service hashAt runesOf
      { s.node with db := db, scanned := some s.node.tip } := by
    refine h.scan.scan hms hsees (fun o ho hspent => ?_) hstep
    by_cases hrunes : runesOf o.outpoint = []
    · intro e he
      rw [hrunes] at he
      exact absurd he (by simp)
    · exact (h.spent o ho hspent hrunes).reached
  have hkept := RuneBridgeService.scanRuneDeposits_kept hstep
  refine ⟨hscan, h.linked.scanRuneDeposits hstep, fun key hkey => ?_, h.selected,
    fun o ho hspent hrunes => ?_⟩
  · obtain ⟨row, hrow, hstatus⟩ := h.sending key hkey
    obtain ⟨row', hrow', hrowkept⟩ := hkept.deposits key row hrow
    rcases hrowkept.status with hsame | ⟨hdetected, -⟩
    · exact ⟨row', hrow', hsame.trans hstatus⟩
    · rw [hstatus] at hdetected
      exact absurd hdetected (by decide)
  have hprocessed := h.spent o ho hspent hrunes
  refine hprocessed.of_kept (fun row hrow => ?_) (fun k row hrow => ?_) fun n row' hrow' => ?_
  · obtain ⟨row', hrow', -⟩ := hkept.incoming _ row hrow
    exact ⟨row', hrow'⟩
  · obtain ⟨row', hrow', hrowkept⟩ := hkept.deposits k row hrow
    refine ⟨row', hrow', fun hsubmitted => ?_⟩
    rcases hrowkept.status with hsame | ⟨hdetected, -⟩
    · exact hsame ▸ hsubmitted
    · rw [hdetected] at hsubmitted
      exact absurd hsubmitted (by decide)
  -- a scan has rows for the runes on the output only, and those were there
  · obtain ⟨o', -, hby⟩ := hscan.accounted _ rfl _ row' hrow'
    obtain ⟨e, he, rune, hrune, hn, -⟩ := hby.reported
    rw [hby.outpoint] at he
    obtain ⟨rune', row, hrune', hrow⟩ := hprocessed.deposits e he
    obtain rfl : rune = rune' := Except.ok.inj (hrune.symm.trans hrune')
    obtain rfl : rune.n = n := hn
    exact ⟨row, hrow⟩

/-- A deposit that is settled is processed. -/
lemma processed_of_settled (h : SpendingInv service hashAt runesOf s) {o : Receipt}
    (hsettled : Settled service s o) (hrunes : runesOf o.outpoint ≠ []) :
    Processed runesOf s.node.db o.outpoint := by
  obtain ⟨T, hT, hheight, hmature⟩ := hsettled.scanned
  have hrecorded := h.scan.recorded T hT o hsettled.watched hheight
  have hsubmitted {n : ℕ} {row : RuneDeposit Hash}
      (hrow : s.node.db.runeDeposits.get? ⟨o.outpoint.txid, o.outpoint.vout, n⟩ = some row) :
      row.status.submitted = true := by
    obtain ⟨o', -, hby⟩ := h.scan.accounted T hT _ row hrow
    obtain ⟨e, he, rune, hrune, hn, -⟩ := hby.reported
    rw [hby.outpoint] at he
    obtain ⟨rune', row', hrune', hrow', hreached⟩ := hrecorded e he
    obtain rfl : rune = rune' := Except.ok.inj (hrune.symm.trans hrune')
    obtain rfl : rune.n = n := hn
    obtain rfl : row = row' := Option.some.inj (hrow.symm.trans hrow')
    exact RuneDepositStatus.submitted_of_reachedAccepted (hreached hmature)
      (hsettled.sent _ row hrow)
  obtain ⟨e, he⟩ := List.exists_mem_of_ne_nil _ hrunes
  obtain ⟨rune, row, -, hrow, -⟩ := hrecorded e he
  refine ⟨h.linked _ row hrow, fun e he => ?_, fun n row => hsubmitted⟩
  obtain ⟨rune, row, hrune, hrow, -⟩ := hrecorded e he
  exact ⟨rune, row, hrune, hrow⟩

lemma payout {views : Views Hash} {transfers : List RuneTransfer} {feeRate : ℤ}
    {maxNumInputs : ℕ} {psbt : Psbt} {selected : List UTXO}
    (hms : service.ordMultisig.DerivesAddresses) (h : SpendingInv service hashAt runesOf s)
    (hsettled : ∀ o, Spendable service runesOf s transfers o → Settled service s o)
    (hsees : SeesUnspent runesOf s.node views)
    (hstep : service.ordMultisig.createRunePsbtSelecting views.bitcoinRpc views.ordClient
      service.codec transfers feeRate maxNumInputs = .ok (psbt, selected)) :
    SpendingInv service hashAt runesOf
      { s with payouts := s.payouts ++ [⟨selected, s.node.db⟩] } := by
  -- a receipt at a deposit address that is selected
  have hprocessed {u : UTXO} (hu : u ∈ selected) {o : Receipt} (ho : o ∈ s.node.receipts)
      (houtpoint : o.outpoint = u.outpoint)
      (hknown : (s.node.db.depositAddresses.get? o.address).isSome = true)
      (hrunes : runesOf o.outpoint ≠ []) : Processed runesOf s.node.db o.outpoint := by
    have hchange : o.address ≠ service.ordMultisig.changeAddress := by
      obtain ⟨row, hrow⟩ := Option.isSome_iff_exists.1 hknown
      obtain ⟨index, hindex, haddress⟩ := h.scan.derived _ row hrow
      rw [haddress, hms.change]
      intro heq
      have hzero := hms.injective heq
      omega
    exact h.processed_of_settled (hsettled o (hsees.spendable hstep hu ho houtpoint hknown hchange
      hrunes)) hrunes
  have hlisted {u : UTXO} (hu : u ∈ selected) : ∃ utxos,
      views.bitcoinRpc.listunspent = .ok utxos ∧ u ∈ utxos := by
    obtain ⟨selection, outputAmountSat, hselects, -, rfl⟩ :=
      OrdMultisig.createRunePsbtSelecting_eq_ok.1 hstep
    obtain ⟨utxos, hlist, hall⟩ := hselects.mem_selected
    exact ⟨utxos, hlist, (hall u hu).1⟩
  refine ⟨h.scan, h.linked, h.sending, fun p hp u hu address haddress hknown hrunes => ?_,
    fun o ho hspent hrunes => ?_⟩
  · rcases List.mem_append.1 hp with hp | hp
    · exact h.selected p hp u hu address haddress hknown hrunes
    · obtain rfl := List.mem_singleton.1 hp
      obtain ⟨utxos, hlist, hmem⟩ := hlisted hu
      obtain ⟨o, ho, houtpoint⟩ := hsees.received utxos hlist u hmem address haddress hknown
      have hsame := (hsees.receipt utxos hlist u hmem o ho houtpoint).1
      obtain rfl : o.address = address := Option.some.inj (hsame.symm.trans haddress)
      rw [← houtpoint] at hrunes ⊢
      exact hprocessed hu ho houtpoint hknown hrunes
  · obtain ⟨p, hp, u, hu, houtpoint⟩ := hspent
    rcases List.mem_append.1 hp with hp | hp
    · exact h.spent o ho ⟨p, hp, u, hu, houtpoint⟩ hrunes
    · obtain rfl := List.mem_singleton.1 hp
      obtain ⟨hmem, -, hknown⟩ := h.scan.watched o ho
      exact hprocessed hu hmem houtpoint.symm hknown hrunes

/-- The transactions with no action of their own: a sent deposit may be confirmed. -/
lemma work {views : Views Hash} {t : NodeTransaction Hash} {db : Db Hash}
    (h : SpendingInv service hashAt runesOf s) (helsewhere : t.Elsewhere)
    (hstep : t.run service views s.node.db = .ok db) :
    SpendingInv service hashAt runesOf { s with node := { s.node with db := db } } := by
  have hchanges : StatusChanges (fun st st' => st = .sentToEvm ∧ st'.submitted = true)
      s.node.db db := by
    cases t with
    | generateDepositAddress => exact helsewhere.elim
    | scanRuneDeposits => exact helsewhere.elim
    | beginSendingRuneDeposit => exact helsewhere.elim
    | failSendingRuneDeposit => exact helsewhere.elim
    | finishSendingRuneDeposit => exact helsewhere.elim
    | scanRuneTokenDeposits =>
        simp only [NodeTransaction.run, bind_eq_ok, pure_eq_ok] at hstep
        obtain ⟨⟨n, db₁⟩, hscan, rfl⟩ := hstep
        have hrecorded := RuneBridgeService.scanRuneTokenDeposits_ok hscan
        exact .of_eq hrecorded.users hrecorded.depositAddresses hrecorded.incomingBtcTxs
          hrecorded.lastScannedBlock hrecorded.runeDeposits
    | updateRuneDepositSignatures key messageHash answers =>
        simp only [NodeTransaction.run, bind_eq_ok, pure_eq_ok] at hstep
        obtain ⟨⟨ready, db₁⟩, hupdate, rfl⟩ := hstep
        obtain ⟨deposit, kept, numRequired, deposit', hrow, -, -, -, rfl, -, rfl⟩ :=
          RuneBridgeService.updateRuneDepositSignatures_ok hupdate
        obtain ⟨added, -, heq⟩ := RuneBridgeService.foldl_addSignature_eq kept
          { deposit with acceptTransferMessageHash := some messageHash }
        exact .setRuneDeposit hrow (by rw [heq]) (.inl (by rw [heq]))
    | confirmRuneDeposit key status =>
        obtain ⟨receipt, hreceipt⟩ := helsewhere
        obtain ⟨deposit, hrow, hsent, rfl⟩ := RuneBridgeService.confirmRuneDeposit_eq_ok.1 hstep
        refine .setRuneDeposit hrow rfl (.inr ⟨hsent, ?_⟩)
        cases receipt with
        | none => exact absurd hreceipt (by simp [RuneBridgeService.updatedStatus])
        | some success =>
            cases success <;> rw [← Option.some.inj hreceipt] <;> rfl
    | beginPayout key finalizedPsbt =>
        obtain ⟨deposit, -, -, rfl⟩ := RuneBridgeService.beginPayout_eq_ok.1 hstep
        exact .of_eq rfl rfl rfl rfl rfl
    | failPayout key =>
        obtain ⟨deposit, -, rfl⟩ := RuneBridgeService.failPayout_eq_ok.1 hstep
        exact .of_eq rfl rfl rfl rfl rfl
    | finishPayout key txid =>
        obtain ⟨deposit, -, -, rfl⟩ := RuneBridgeService.finishPayout_eq_ok.1 hstep
        exact .of_eq rfl rfl rfl rfl rfl
  refine h.changes hchanges (fun st st' hmove => ?_) fun key hkey => ?_
  · exact ⟨by rw [hmove.1]; rfl, RuneDepositStatus.reachedAccepted_of_submitted hmove.2,
      fun _ => hmove.2⟩
  · obtain ⟨row, hrow, hstatus⟩ := h.sending key hkey
    obtain ⟨row', hrow', -, hsame | ⟨hsent, -⟩⟩ := hchanges.deposits key row hrow
    · exact ⟨row', hrow', hsame.trans hstatus⟩
    · rw [hstatus] at hsent
      exact absurd hsent (by decide)

lemma beginSending {key : RuneDepositKey} {numRequiredSigners : ℕ}
    {call : Option AcceptTransferCall} {db : Db Hash} (h : SpendingInv service hashAt runesOf s)
    (hstep : RuneBridgeService.beginSendingRuneDeposit key numRequiredSigners s.node.db =
      .ok (call, db)) :
    SpendingInv service hashAt runesOf
      { s with node := { s.node with db := db }, sending := call.map fun _ => key } := by
  obtain ⟨deposit, hrow, haccepted, ⟨-, rfl, rfl⟩ | ⟨-, rfl, rfl⟩⟩ :=
    RuneBridgeService.beginSendingRuneDeposit_eq_ok.1 hstep
  · exact ⟨h.scan, h.linked, fun key hkey => absurd hkey (by simp), h.selected, h.spent⟩
  · have hchanges : StatusChanges (fun st st' => st = .accepted ∧ st' = .sendingToEvm) s.node.db
        (s.node.db.setRuneDeposit key { deposit with status := .sendingToEvm }) :=
      .setRuneDeposit hrow rfl (.inr ⟨haccepted, rfl⟩)
    refine h.changes hchanges ?_ fun key' hkey => ?_
    · rintro _ _ ⟨rfl, rfl⟩
      decide
    · obtain rfl : key = key' := Option.some.inj hkey
      exact ⟨_, by rw [Db.setRuneDeposit, Table.get?_set, if_pos rfl], rfl⟩

/-- A submission ends, one way or the other. -/
lemma endSending {key : RuneDepositKey} {row row' : RuneDeposit Hash}
    (h : SpendingInv service hashAt runesOf s) (hsending : s.sending = some key)
    (hrow : s.node.db.runeDeposits.get? key = some row)
    (hamount : row'.transferAmountRaw = row.transferAmountRaw)
    (hreached : row'.status.reachedAccepted = true) :
    SpendingInv service hashAt runesOf
      { s with
        node := { s.node with db := s.node.db.setRuneDeposit key row' }
        sending := none } := by
  obtain ⟨row₀, hrow₀, hstatus⟩ := h.sending key hsending
  obtain rfl : row = row₀ := Option.some.inj (hrow.symm.trans hrow₀)
  have hchanges : StatusChanges (fun st st' => st = .sendingToEvm ∧ st'.reachedAccepted = true)
      s.node.db (s.node.db.setRuneDeposit key row') :=
    .setRuneDeposit hrow hamount (.inr ⟨hstatus, hreached⟩)
  refine h.changes hchanges ?_ fun key hkey => absurd hkey (by simp)
  rintro _ st' ⟨rfl, hst'⟩
  exact ⟨rfl, hst', fun hsubmitted => absurd hsubmitted (by decide)⟩

/-- **One step.** -/
lemma step {a : SpendingAction Hash} (hms : service.ordMultisig.DerivesAddresses)
    (h : SpendingInv service hashAt runesOf s) (hcond : PaysSettled service runesOf s a)
    (hstep : SpendingStep service hashAt runesOf s a s') :
    SpendingInv service hashAt runesOf s' := by
  cases hstep with
  | block hnew hunspent => exact h.block hnew hunspent
  | address hstep => exact h.address hstep
  | scan hsees hstep => exact h.scanned hms hsees hstep
  | work helsewhere hstep => exact h.work helsewhere hstep
  | beginSending hstep => exact h.beginSending hstep
  | sent hsending hstep =>
      obtain ⟨row, hrow, rfl⟩ := RuneBridgeService.finishSendingRuneDeposit_eq_ok.1 hstep
      exact h.endSending hsending hrow rfl rfl
  | failed hsending hstep =>
      obtain ⟨row, hrow, rfl⟩ := RuneBridgeService.failSendingRuneDeposit_eq_ok.1 hstep
      exact h.endSending hsending hrow rfl rfl
  | raised => exact ⟨h.scan, h.linked, fun key hkey => absurd hkey (by simp), h.selected, h.spent⟩
  | payout hsees hstep => exact h.payout hms hcond hsees hstep

end SpendingInv

/-- **Deposits are spent after they were processed.**  In every run in which payouts start with
settled deposits, a payout selects no deposit output that was not submitted to the EVM chain, and no
output is spent that is still to be indexed, validated or signed. -/
theorem deposits_spent_after_processing (hms : service.ordMultisig.DerivesAddresses)
    {tr : List (SpendingAction Hash)}
    (hr : Run SpendingInit (fun s a s' => PaysSettled service runesOf s a ∧
      SpendingStep service hashAt runesOf s a s') tr s) : SpendsProcessed runesOf s := by
  have hinv : SpendingInv service hashAt runesOf s := by
    refine hr.invariant_of_condition (C := PaysSettled service runesOf) (fun _ h => h.inv) ?_
    intro s a s' h hcond hstep
    exact h.step hms hcond hstep
  exact hinv.spendsProcessed

end Invariant

/-! ## Runs -/

namespace ExampleNode

/-- The node on mainnet, where deposits need two confirmations and their outputs three. -/
def mainnetNode : RuneBridgeService Bytes :=
  { service '4' [] with
    config := { config with btcNetwork := .mainnet }
    ordMultisig := { ExampleWallet.ms with minNonChangeRuneUtxoConfirmations := 3 } }

lemma mainnetNode_derivesAddresses : mainnetNode.ordMultisig.DerivesAddresses where
  injective := derivesAddresses.injective
  ne_empty := derivesAddresses.ne_empty
  change := derivesAddresses.change

/-- After the scan of the deposit, at tip 2. -/
def depositDb : Db Bytes := afterwards (NodeTransaction.scanRuneDeposits.run mainnetNode scanViews
  addressDb)

def walletKey : RuneDepositKey := ⟨"aa", 0, 0⟩

/-- The wallet at tip 3. -/
def paymentViews : Views Bytes :=
  { scanViews with
    bitcoinRpc := { scanViews.bitcoinRpc with
      listunspent := .ok
        [{ ExampleWallet.runeUtxo with
            confirmations := 3
            address := some (ExampleWallet.ms.deriveAddress 1) },
          ExampleWallet.btcUtxo] } }

/-- The deposit waits for signatures. -/
def waiting : SpendingState Bytes :=
  ⟨{ beforeScan addressDb with db := depositDb, scanned := some 2 }, none, []⟩

/-- And another block arrives. -/
def nextBlock (s : SpendingState Bytes) : SpendingState Bytes := { s with node := s.node.mine [] }

/-- A federator's answer, for the hash that is stored with it. -/
def waitingAnswer : SignRuneToEvmTransferAnswer Bytes := ⟨sign '4' [], String.ofList ['4'], []⟩

def signedDb : Db Bytes := afterwards
  ((NodeTransaction.updateRuneDepositSignatures walletKey [] [waitingAnswer]).run mainnetNode
    scanViews depositDb)

def sendingDb : Db Bytes := afterwards
  ((NodeTransaction.beginSendingRuneDeposit walletKey 1).run mainnetNode scanViews signedDb)

def sentDb : Db Bytes := afterwards
  ((NodeTransaction.finishSendingRuneDeposit walletKey "0x").run mainnetNode scanViews sendingDb)

/-- The deposit was sent. -/
def sent : SpendingState Bytes := ⟨{ waiting.node with db := sentDb }, none, []⟩

def depositReceipt : Receipt :=
  ⟨ExampleWallet.runeUtxo.outpoint, ExampleWallet.ms.deriveAddress 1, 1⟩

/-- The payout of five units from the wallet. -/
abbrev selectsPayout : PyResult (Psbt × List UTXO) :=
  mainnetNode.ordMultisig.createRunePsbtSelecting paymentViews.bitcoinRpc paymentViews.ordClient
    mainnetNode.codec [ExampleWallet.transfer 5] 10 200

/-- What the node's calls compute here. -/
structure SpendingComputed : Prop where
  scan : (mainnetNode.scanRuneDeposits scanViews addressDb).isOk = true
  status : (depositDb.runeDeposits.get? walletKey).map RuneDeposit.status = some .accepted
  address : (depositDb.depositAddresses.get? depositReceipt.address).isSome = true
  unchanged : (depositDb.depositAddresses.get? "change").isSome = false
  sign : ((NodeTransaction.updateRuneDepositSignatures walletKey [] [waitingAnswer]).run mainnetNode
    scanViews depositDb).isOk = true
  begin : (RuneBridgeService.beginSendingRuneDeposit walletKey 1 signedDb).isOk = true
  call : (RuneBridgeService.beginSendingRuneDeposit walletKey 1 signedDb).toOption.map
    (fun r => r.1.isSome) = some true
  finish : ((NodeTransaction.finishSendingRuneDeposit walletKey "0x").run mainnetNode scanViews
    sendingDb).isOk = true
  rows : sentDb.runeDeposits.rows.all (fun p => p.2.status.waits = false) = true
  sentUnchanged : (sentDb.depositAddresses.get? "change").isSome = false
  watched : depositReceipt ∈ (nextBlock sent).node.watched
  select : selectsPayout.isOk = true
  spends : selectsPayout.toOption.map (fun r => r.2.any fun u =>
    u.outpoint = depositReceipt.outpoint ∧ u.address = some depositReceipt.address) = some true

lemma spendingComputed : SpendingComputed where
  scan := by decide +kernel
  status := by decide +kernel
  address := by decide +kernel
  unchanged := by decide +kernel
  sign := by decide +kernel
  begin := by decide +kernel
  call := by decide +kernel
  finish := by decide +kernel
  rows := by decide +kernel
  sentUnchanged := by decide +kernel
  watched := by decide +kernel
  select := by decide +kernel
  spends := by decide +kernel

/-- The runs of this node in which payouts start with settled deposits. -/
abbrev SettledRun := Run SpendingInit fun s a s' =>
  PaysSettled mainnetNode runesOf s a ∧ SpendingStep mainnetNode hashAt runesOf s a s'

lemma waiting_reached : ∃ tr, SettledRun tr waiting := by
  obtain ⟨address, haddress⟩ := generateDepositAddress_addressDb
  obtain ⟨⟨n, db⟩, hscan⟩ : ∃ r, mainnetNode.scanRuneDeposits scanViews addressDb = .ok r :=
    exists_ok_of_isOk (spendingComputed).scan
  have hdb : depositDb = db := by
    rw [depositDb, NodeTransaction.run, hscan]
    rfl
  have hunspent {received : List (Outpoint × String)} {s : SpendingState Bytes}
      (hs : s.payouts = []) : ∀ o ∈ received, ¬ s.Spent o.1 := by
    rintro o - ⟨p, hp, -⟩
    rw [hs] at hp
    exact absurd hp (by simp)
  have hinit : SpendingInit (⟨start, none, []⟩ : SpendingState Bytes) :=
    ⟨⟨rfl, by simp [start], by simp [start], rfl, rfl⟩, rfl, rfl⟩
  have hstart : SettledRun [] ⟨start, none, []⟩ := .init hinit
  have hknown : SettledRun _ ⟨{ start with db := addressDb }, none, []⟩ :=
    hstart.step ⟨by exact trivial, .address haddress⟩
  have hdeposit : SettledRun _ ⟨{ start with db := addressDb }.mine deposit, none, []⟩ :=
    hknown.step ⟨by exact trivial, .block (List.nodup_singleton _) (hunspent rfl)⟩
  have hblocks : SettledRun _ ⟨beforeScan addressDb, none, []⟩ :=
    hdeposit.step ⟨by exact trivial, .block (List.nodup_singleton _) (hunspent rfl)⟩
  have hscanned := hblocks.step ⟨by exact trivial, .scan (seesOutputs addressDb) hscan⟩
  rw [← hdb] at hscanned
  exact ⟨_, hscanned⟩

lemma sent_reached : ∃ tr, SettledRun tr sent := by
  obtain ⟨tr, hwaiting⟩ := waiting_reached
  have hsign := eq_ok_afterwards (r := (NodeTransaction.updateRuneDepositSignatures walletKey []
    [waitingAnswer]).run mainnetNode scanViews depositDb) (spendingComputed).sign
  have hsigned : SettledRun _ ⟨{ waiting.node with db := signedDb }, none, []⟩ :=
    hwaiting.step ⟨by exact trivial, .work (by exact trivial) hsign⟩
  obtain ⟨⟨call, db⟩, hbegin⟩ : ∃ r,
      RuneBridgeService.beginSendingRuneDeposit walletKey 1 signedDb = .ok r :=
    exists_ok_of_isOk (spendingComputed).begin
  have hcall := (spendingComputed).call
  have hdb : sendingDb = db := by
    rw [sendingDb, NodeTransaction.run, hbegin]
    rfl
  rw [hbegin] at hcall
  obtain ⟨call, rfl⟩ := Option.isSome_iff_exists.1 (Option.some.inj hcall)
  have hsending := hsigned.step ⟨by exact trivial, .beginSending hbegin⟩
  rw [← hdb] at hsending
  have hfinish := eq_ok_afterwards (r := (NodeTransaction.finishSendingRuneDeposit walletKey
    "0x").run mainnetNode scanViews sendingDb) (spendingComputed).finish
  exact ⟨_, hsending.step ⟨by exact trivial, .sent rfl hfinish⟩⟩

/-- The wallet lists the deposit and change. -/
lemma seesUnspent {s : ScanState Bytes} (hreceipts : s.receipts = [depositReceipt])
    (htip : s.tip = 3) (hchange : (s.db.depositAddresses.get? "change").isSome = false) :
    SeesUnspent runesOf s paymentViews where
  received utxos hlist u hu address haddress hknown := by
    rw [← Except.ok.inj hlist] at hu
    simp only [List.mem_cons, List.not_mem_nil, or_false] at hu
    rcases hu with rfl | rfl
    · exact ⟨depositReceipt, by rw [hreceipts]; exact List.mem_singleton_self _, rfl⟩
    · obtain rfl : "change" = address := Option.some.inj haddress
      rw [hchange] at hknown
      exact absurd hknown (by simp)
  receipt utxos hlist u hu o ho houtpoint := by
    rw [hreceipts, List.mem_singleton] at ho
    subst ho
    rw [← Except.ok.inj hlist] at hu
    simp only [List.mem_cons, List.not_mem_nil, or_false] at hu
    rcases hu with rfl | rfl
    · rw [htip]
      exact ⟨rfl, rfl⟩
    · exact absurd houtpoint (by decide)
  reported o _ _ response hresponse _ := by
    rw [← Except.ok.inj hresponse]
    rfl

/-- Five units of the rune are paid out from the deposit. -/
lemma payout_selects : ∃ psbt selected,
    mainnetNode.ordMultisig.createRunePsbtSelecting paymentViews.bitcoinRpc
      paymentViews.ordClient mainnetNode.codec [ExampleWallet.transfer 5] 10 200 =
        .ok (psbt, selected) ∧
      ∃ u ∈ selected, u.outpoint = depositReceipt.outpoint ∧
        u.address = some depositReceipt.address := by
  obtain ⟨⟨psbt, selected⟩, hselect⟩ := exists_ok_of_isOk (spendingComputed).select
  have hany := (spendingComputed).spends
  rw [hselect] at hany
  obtain ⟨u, hu, hdeposit⟩ := List.any_eq_true.1 (Option.some.inj hany)
  exact ⟨psbt, selected, hselect, u, hu, by simpa using hdeposit⟩

/-- No deposit waits to be sent once the one there is was sent. -/
lemma sent_settled {o : Receipt} (ho : o ∈ (nextBlock sent).node.receipts) :
    Settled mainnetNode (nextBlock sent) o := by
  have hreceipts : (nextBlock sent).node.receipts = [depositReceipt] := rfl
  rw [hreceipts, List.mem_singleton] at ho
  subst ho
  refine ⟨(spendingComputed).watched, ⟨2, rfl, by decide, by decide⟩, fun n row hrow => ?_⟩
  have hwaits := List.all_eq_true.1 (spendingComputed).rows _ (Table.mem_of_get? hrow)
  simpa using hwaits

end ExampleNode

open ExampleNode in
/-- A deposit that was sent is spent. -/
theorem deposits_spent_after_processing_example :
    ∃ s : SpendingState Bytes, SpendsProcessed runesOf s ∧ s.Spent depositReceipt.outpoint ∧
      Processed runesOf s.node.db depositReceipt.outpoint := by
  obtain ⟨tr, hsent⟩ := sent_reached
  obtain ⟨psbt, selected, hselect, u, hu, houtpoint, -⟩ := payout_selects
  have hblock : SettledRun _ (nextBlock sent) :=
    hsent.step ⟨by exact trivial, .block (List.nodup_singleton _) (by simp)⟩
  have hcond : PaysSettled mainnetNode runesOf (nextBlock sent)
      (.payout paymentViews [ExampleWallet.transfer 5] 10 200) :=
    fun o ho => sent_settled ho.mem
  have hpaid := hblock.step
    ⟨hcond, .payout (seesUnspent rfl rfl (spendingComputed).sentUnchanged) hselect⟩
  have hprocessed := deposits_spent_after_processing mainnetNode_derivesAddresses hpaid
  have hspent : SpendingState.Spent { nextBlock sent with
      payouts := (nextBlock sent).payouts ++ [⟨selected, (nextBlock sent).node.db⟩] }
      depositReceipt.outpoint :=
    ⟨_, List.mem_append_right _ (List.mem_singleton_self _), u, hu, houtpoint⟩
  refine ⟨_, hprocessed, hspent, ?_⟩
  by_contra hnot
  exact hprocessed.visible depositReceipt (spendingComputed).watched (by decide) hnot hspent

open ExampleNode in
/-- **A deposit that waits is spent.**  On mainnet a deposit was accepted with its two
confirmations; no federator answers, another block arrives, and a payout selects its output. -/
theorem waiting_deposit_spent :
    mainnetNode.ordMultisig.DerivesAddresses ∧
    mainnetNode.ordMultisig.minNonChangeRuneUtxoConfirmations =
      mainnetNode.config.minNonChangeRuneUtxoConfirmations ∧
    ∃ (tr : List (SpendingAction Bytes)) (s : SpendingState Bytes),
      Run SpendingInit (SpendingStep mainnetNode hashAt runesOf) tr s ∧
      (s.node.db.runeDeposits.get? walletKey).map RuneDeposit.status = some .accepted ∧
      ¬ SpendsProcessed runesOf s := by
  refine ⟨mainnetNode_derivesAddresses, rfl, ?_⟩
  obtain ⟨tr, hwaiting⟩ := waiting_reached
  obtain ⟨psbt, selected, hselect, u, hu, houtpoint, haddress⟩ := payout_selects
  have hrun : Run SpendingInit (SpendingStep mainnetNode hashAt runesOf) tr waiting :=
    hwaiting.mono fun _ _ _ hs => hs.2
  have hblock : Run SpendingInit (SpendingStep mainnetNode hashAt runesOf) _ (nextBlock waiting) :=
    hrun.step (.block (List.nodup_singleton _) (by simp))
  have hpaid := hblock.step (.payout (seesUnspent rfl rfl (spendingComputed).unchanged) hselect)
  have hstatus := (spendingComputed).status
  refine ⟨_, _, hpaid, hstatus, fun hprocessed => ?_⟩
  have hrunes : runesOf u.outpoint ≠ [] := by
    rw [houtpoint]
    decide
  have hsubmitted := (hprocessed.selected _ (List.mem_append_right _ (List.mem_singleton_self _)) u
    hu _ haddress (spendingComputed).address hrunes).submitted
  rw [houtpoint] at hsubmitted
  obtain ⟨row, hrow, haccepted⟩ := Option.map_eq_some_iff.1 hstatus
  have hsent := hsubmitted 0 row hrow
  rw [haccepted] at hsent
  exact absurd hsent (by decide)

end NbteBridge
