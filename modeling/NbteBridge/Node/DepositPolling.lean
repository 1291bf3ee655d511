import NbteBridge.Node.DepositScan
import NbteBridge.Node.PendingDeposits
import NbteBridge.Node.TransactionEffects

/-!
# A deposit that was shown

The user interface takes the last scanned block once, and from then on polls with it.  The block
stands for the tip `T₀` of the scan that stored it: it is the one at height `T₀ + 1 - buffer`, so
that an `ACCEPTED` transaction is shown if its block is at `T₀ + 1` or above (and at `buffer` or
above, on a chain that is shorter than the buffer).  A `DETECTED` transaction is shown by its time.
With one confirmation a transaction that is `DETECTED` is above the last tip, and nothing that was
shown vanishes but for outputs without runes.  With more confirmations a transaction is `DETECTED`
for some blocks more, and is gone once it is `ACCEPTED` if its block is not above `T₀`
(`shown_deposit_kept_iff`, `shown_deposit_vanishes`).
-/

namespace NbteBridge

open Checked Tables Runs

/-! ## The chain and the wallet -/

/-- The blocks of a chain, and what the wallet says of outputs in every answer.  `conflicted T` are
the outputs of transactions that conflict with a block up to `T`. -/
structure WalletHistory where
  hashAt : ℕ → String
  blockTime : ℕ → ℕ
  time : Outpoint → ℕ
  address : Outpoint → Option String
  conflicted : ℕ → Outpoint → Prop
  conflicted_mono : ∀ {T T' : ℕ} {o : Outpoint}, T ≤ T' → conflicted T o → conflicted T' o

section Environment

variable {Hash : Type} (W : WalletHistory)

/-- What `listsinceblock` says of an output: it is in a block, or unconfirmed, or conflicted. -/
structure WalletHistory.Lists (s : ScanState Hash) (tx : WalletTransaction) : Prop where
  time : tx.time = W.time ⟨tx.txid, tx.vout⟩
  address : tx.address = W.address ⟨tx.txid, tx.vout⟩
  conflicted : tx.confirmations < 0 ↔ W.conflicted s.tip ⟨tx.txid, tx.vout⟩
  mined : ∀ r ∈ s.receipts, r.outpoint = ⟨tx.txid, tx.vout⟩ →
    tx.confirmations = (s.tip : ℤ) + 1 - r.height ∧ tx.blockheight = some r.height
  unmined : (∀ r ∈ s.receipts, r.outpoint ≠ ⟨tx.txid, tx.vout⟩) →
    tx.confirmations ≤ 0 ∧ tx.blockheight = none

/-- What a scan can count on: `listsinceblock` answers as `SeesOutputs` has it, with the transactions
that are unconfirmed too, and `ord` with anything. -/
structure SeesHistory (s : ScanState Hash) (views : Views Hash) : Prop where
  target_pos : ∀ b k r, views.bitcoinRpc.listsinceblock b k = .ok r → 0 < k
  lastblock : ∀ b k r, views.bitcoinRpc.listsinceblock b k = .ok r →
    r.lastblock = W.hashAt (s.tip + 1 - k)
  listed : ∀ b k r, views.bitcoinRpc.listsinceblock b k = .ok r → ∀ tx ∈ r.transactions,
    tx.category = "receive" → W.Lists s tx
  complete : ∀ b k r, views.bitcoinRpc.listsinceblock b k = .ok r → ∀ o ∈ s.receipts,
    (b = "" ∨ ∃ height, b = W.hashAt height ∧ height < o.height) →
      ∃ tx ∈ r.transactions, tx.category = "receive" ∧ o.outpoint = ⟨tx.txid, tx.vout⟩

/-- `getblock` knows the blocks of the chain. -/
def SeesBlocks (s : ScanState Hash) (getblock : String → PyResult Block) : Prop :=
  ∀ height, height ≤ s.tip → getblock (W.hashAt height) = .ok ⟨W.blockTime height, height⟩

end Environment

inductive PollAction (Hash : Type)
  | block (received : List (Outpoint × String))
  | scan (views : Views Hash)
  | failedScan
  | work (views : Views Hash) (t : NodeTransaction Hash)

section Runs

variable {Hash : Type} (service : RuneBridgeService Hash) (W : WalletHistory)

/-- The node starts with an empty database on any chain, the first block of which pays nobody. -/
structure PollInit (s : ScanState Hash) : Prop where
  start : ScanInit s
  height_pos : ∀ o ∈ s.receipts, 0 < o.height

/-- Blocks arrive, scans succeed or fail, and in between the node does anything else. -/
inductive PollStep : ScanState Hash → PollAction Hash → ScanState Hash → Prop
  | block {s : ScanState Hash} {received : List (Outpoint × String)}
      (hnew : ((s.mine received).receipts.map Receipt.outpoint).Nodup) :
      PollStep s (.block received) (s.mine received)
  | scan {s : ScanState Hash} {views : Views Hash} {n : ℕ} {db' : Db Hash}
      (hsees : SeesHistory W s views) (h : service.scanRuneDeposits views s.db = .ok (n, db')) :
      PollStep s (.scan views) { s with db := db', scanned := some s.tip }
  | failedScan {s : ScanState Hash} : PollStep s .failedScan s
  | work {s : ScanState Hash} {views : Views Hash} {t : NodeTransaction Hash} {db' : Db Hash}
      (hother : t ≠ .scanRuneDeposits) (h : t.run service views s.db = .ok db') :
      PollStep s (.work views t) { s with db := db' }

abbrev PollRun := Run (@PollInit Hash) (PollStep service W)

/-- A run that goes on from a state. -/
abbrev PollRunFrom (s : ScanState Hash) := Run (fun s' => s' = s) (PollStep service W)

/-- An output has its confirmations at tip `T`. -/
def MaturedAt (T : ℕ) (o : Receipt) : Prop :=
  o.height ≤ T ∧ service.config.btcMinConfirmations + o.height ≤ T + 1

/-- **The condition.**  Once an output has its confirmations, its block is above the tip `T₀` at
which the block to poll with was stored, and not below the buffer, and runes were recorded on it. -/
def StaysShown (T₀ : ℕ) (s : ScanState Hash) (o : Outpoint) : Prop :=
  ∀ r ∈ s.receipts, r.outpoint = o → (∃ T, s.scanned = some T ∧ MaturedAt service T r) →
    (T₀ < r.height ∧ service.config.btcListsinceblockBuffer ≤ r.height) ∧
      ∃ n row, s.db.runeDeposits.get? ⟨o.txid, o.vout, n⟩ = some row

end Runs

/-! ## What a scan writes of a transaction -/

/-- What a transaction's row says at tip `T`. -/
structure TxInv {Hash : Type} (service : RuneBridgeService Hash) (W : WalletHistory)
    (receipts : List Receipt) (T : ℕ) (addresses : Table String DepositAddress) (o : Outpoint)
    (row : IncomingBtcTx) : Prop where
  time : row.time = W.time o
  address : W.address o = some row.address
  ne_empty : row.address ≠ ""
  ne_change : row.address ≠ service.ordMultisig.changeAddress
  user : ∀ user, row.user = some user →
    ∃ a, addresses.get? row.address = some a ∧ a.user = user
  block : ∀ n, row.blockNumber = some n → n ≤ T ∧ ∃ r ∈ receipts, r.outpoint = o ∧ r.height = n
  accepted : row.status = .accepted → service.config.btcMinConfirmations = 0 ∨
    ∃ n, row.blockNumber = some n ∧ service.config.btcMinConfirmations + n ≤ T + 1
  detected : row.status = .detected → service.config.btcMinConfirmations = 0 → W.conflicted T o

/-- What stays of a transaction's row: its user, its block, and `ACCEPTED`, and `DETECTED` too where
no confirmations are needed. -/
structure TxKept (confirmations : ℕ) (row row' : IncomingBtcTx) : Prop where
  user : ∀ user, row.user = some user → row'.user = some user
  block : ∀ n, row.blockNumber = some n → row'.blockNumber = some n
  accepted : row.status = .accepted → row'.status = .accepted
  detected : confirmations = 0 → row.status = .detected → row'.status = .detected

lemma TxKept.refl (confirmations : ℕ) (row : IncomingBtcTx) : TxKept confirmations row row :=
  ⟨fun _ h => h, fun _ h => h, fun h => h, fun _ h => h⟩

lemma TxKept.trans {confirmations : ℕ} {row row' row'' : IncomingBtcTx}
    (h : TxKept confirmations row row') (h' : TxKept confirmations row' row'') :
    TxKept confirmations row row'' where
  user user huser := h'.user user (h.user user huser)
  block n hn := h'.block n (h.block n hn)
  accepted hrow := h'.accepted (h.accepted hrow)
  detected hzero hrow := h'.detected hzero (h.detected hzero hrow)

section Written

variable {Hash : Type} {service : RuneBridgeService Hash} {W : WalletHistory} {s : ScanState Hash}
  {receipts : List Receipt} {T T' : ℕ} {addresses : Table String DepositAddress} {o : Outpoint}
  {row : IncomingBtcTx} {tx : WalletTransaction} {old : Option IncomingBtcTx}

lemma TxInv.mono {receipts' : List Receipt} {addresses' : Table String DepositAddress}
    (hle : T ≤ T') (hreceipts : ∀ r ∈ receipts, r ∈ receipts')
    (haddresses : ∀ a row, addresses.get? a = some row → addresses'.get? a = some row)
    (h : TxInv service W receipts T addresses o row) :
    TxInv service W receipts' T' addresses' o row where
  time := h.time
  address := h.address
  ne_empty := h.ne_empty
  ne_change := h.ne_change
  user user huser := by
    obtain ⟨a, ha, rfl⟩ := h.user user huser
    exact ⟨a, haddresses _ a ha, rfl⟩
  block n hn := by
    obtain ⟨hnT, r, hr, hrow⟩ := h.block n hn
    exact ⟨hnT.trans hle, r, hreceipts r hr, hrow⟩
  accepted haccepted := by
    rcases h.accepted haccepted with hzero | ⟨n, hn, hmature⟩
    · exact .inl hzero
    · exact .inr ⟨n, hn, by omega⟩
  detected hdetected hzero := W.conflicted_mono hle (h.detected hdetected hzero)

/-- A transaction with a block is of a receipt. -/
lemma WalletHistory.Lists.exists_receipt (h : W.Lists s tx)
    (hmined : 0 < tx.confirmations ∨ ∃ n, tx.blockheight = some n) :
    ∃ r ∈ s.receipts, r.outpoint = ⟨tx.txid, tx.vout⟩ ∧
      tx.confirmations = (s.tip : ℤ) + 1 - r.height ∧ tx.blockheight = some r.height := by
  by_contra hnone
  have hno : ∀ r ∈ s.receipts, r.outpoint ≠ ⟨tx.txid, tx.vout⟩ := fun r hr ho =>
    hnone ⟨r, hr, ho, h.mined r hr ho⟩
  obtain ⟨hconf, hblock⟩ := h.unmined hno
  rcases hmined with hpos | ⟨n, hn⟩
  · omega
  · rw [hblock] at hn
    exact absurd hn (by simp)

lemma exists_address_of_isDeposit (h : service.isDeposit tx = true) :
    ∃ a, tx.address = some a ∧ a ≠ "" ∧ a ≠ service.ordMultisig.changeAddress := by
  simp only [RuneBridgeService.isDeposit, ne_eq, decide_eq_true_eq] at h
  obtain ⟨-, hnone, hempty, hchange⟩ := h
  obtain ⟨a, ha⟩ := Option.ne_none_iff_exists'.1 hnone
  rw [ha, Option.some.injEq] at hempty hchange
  exact ⟨a, ha, hempty, hchange⟩

/-- The block of a row with one is the block the wallet lists. -/
lemma TxInv.blockheight (h : TxInv service W s.receipts T addresses ⟨tx.txid, tx.vout⟩ row)
    (hlists : W.Lists s tx) {n : ℕ} (hn : row.blockNumber = some n) : tx.blockheight = some n := by
  obtain ⟨-, r, hr, ho, rfl⟩ := h.block n hn
  exact (hlists.mined r hr ho).2

lemma TxInv.writtenTx_user (h : TxInv service W s.receipts T addresses ⟨tx.txid, tx.vout⟩ row)
    (hlists : W.Lists s tx) {user : User} (huser : row.user = some user) :
    ∃ a, addresses.get? (tx.address.getD "") = some a ∧ a.user = user := by
  rw [hlists.address, h.address]
  exact h.user user huser

/-- A transaction is `ACCEPTED` when it was before, or has the confirmations. -/
lemma status_writtenTx_eq_accepted (service : RuneBridgeService Hash)
    (addresses : Table String DepositAddress) (tx : WalletTransaction)
    (old : Option IncomingBtcTx) :
    (service.writtenTx addresses tx old).status = .accepted ↔
      (service.config.btcMinConfirmations : ℤ) ≤ tx.confirmations ∨
        ∃ row, old = some row ∧ row.status = .accepted := by
  unfold RuneBridgeService.writtenTx RuneBridgeService.updateIncomingBtcTx
  by_cases hconf : (service.config.btcMinConfirmations : ℤ) ≤ tx.confirmations
  · cases old with
    | none => simp [hconf]
    | some row => cases hstatus : row.status <;> simp [hconf, hstatus]
  · cases old with
    | none => simp [hconf]
    | some row => simp [hconf]

lemma IncomingBtcTxStatus.eq_detected_iff {status : IncomingBtcTxStatus} :
    status = .detected ↔ status ≠ .accepted := by
  cases status <;> simp

/-- The row that is written says what it should. -/
lemma txInv_writtenTx (hheight : ∀ r ∈ s.receipts, r.height ≤ s.tip) (hlists : W.Lists s tx)
    (hdeposit : service.isDeposit tx = true) (hold : ∀ row, old = some row →
      TxInv service W s.receipts s.tip addresses ⟨tx.txid, tx.vout⟩ row) :
    TxInv service W s.receipts s.tip addresses ⟨tx.txid, tx.vout⟩
      (service.writtenTx addresses tx old) := by
  obtain ⟨a, ha, hempty, hchange⟩ := exists_address_of_isDeposit hdeposit
  have haddress : (service.writtenTx addresses tx old).address = a := by
    show tx.address.getD "" = a
    rw [ha]
    rfl
  have hblock : (service.writtenTx addresses tx old).blockNumber = tx.blockheight := rfl
  have hstatus := status_writtenTx_eq_accepted service addresses tx old
  refine ⟨hlists.time, ?_, haddress ▸ hempty, haddress ▸ hchange, fun user huser => ?_,
    fun n hn => ?_, fun haccepted => ?_, fun hdetected hzero => ?_⟩
  · rw [haddress, ← hlists.address, ha]
  · have hknown : ((addresses.get? (tx.address.getD "")).map DepositAddress.user).or
        (old.bind IncomingBtcTx.user) = some user := huser
    show ∃ a, addresses.get? (tx.address.getD "") = some a ∧ a.user = user
    cases hget : addresses.get? (tx.address.getD "") with
    | some row =>
        rw [hget] at hknown
        exact ⟨row, rfl, Option.some.inj hknown⟩
    | none =>
        rw [hget] at hknown
        obtain ⟨row, hrow, huser'⟩ := Option.bind_eq_some_iff.1 hknown
        obtain ⟨a, hsome, -⟩ := (hold row hrow).writtenTx_user hlists huser'
        rw [hget] at hsome
        exact absurd hsome (by simp)
  · obtain ⟨r, hr, ho, -, hheight'⟩ := hlists.exists_receipt (.inr ⟨n, hn⟩)
    rw [hblock, hheight', Option.some.injEq] at hn
    exact ⟨hn ▸ hheight r hr, r, hr, ho, hn⟩
  · rcases Nat.eq_zero_or_pos service.config.btcMinConfirmations with hzero | hpos
    · exact .inl hzero
    rcases hstatus.1 haccepted with hconf | ⟨row, hrow, hrow'⟩
    · obtain ⟨r, hr, ho, hconf', hheight'⟩ := hlists.exists_receipt (.inl (by omega))
      exact .inr ⟨r.height, hheight', by omega⟩
    · rcases (hold row hrow).accepted hrow' with hzero | ⟨n, hn, hmature⟩
      · exact .inl hzero
      · exact .inr ⟨n, (hold row hrow).blockheight hlists hn, hmature⟩
  · rw [IncomingBtcTxStatus.eq_detected_iff, ne_eq, hstatus, not_or] at hdetected
    exact hlists.conflicted.1 (by omega)

/-- It keeps what it should of the row before. -/
lemma txKept_writtenTx (hlists : W.Lists s tx)
    (hrow : TxInv service W s.receipts s.tip addresses ⟨tx.txid, tx.vout⟩ row) :
    TxKept service.config.btcMinConfirmations row
      (service.writtenTx addresses tx (some row)) := by
  have hstatus := status_writtenTx_eq_accepted service addresses tx (some row)
  refine ⟨fun user huser => ?_, fun n hn => hrow.blockheight hlists hn,
    fun haccepted => hstatus.2 (.inr ⟨row, rfl, haccepted⟩), fun hzero hdetected => ?_⟩
  · obtain ⟨a, hget, rfl⟩ := hrow.writtenTx_user hlists huser
    show ((addresses.get? (tx.address.getD "")).map DepositAddress.user).or row.user = _
    rw [hget]
    rfl
  · -- where no confirmations are needed, only a conflict keeps a transaction `DETECTED`
    have hconf := hlists.conflicted.2 (hrow.detected hdetected hzero)
    rw [IncomingBtcTxStatus.eq_detected_iff, ne_eq, hstatus]
    rintro (hle | ⟨row', hrow', haccepted⟩)
    · omega
    · rw [← Option.some.inj hrow', hdetected] at haccepted
      exact absurd haccepted (by decide)

/-- It is `ACCEPTED` once the output has its confirmations. -/
lemma writtenTx_accepted (hlists : W.Lists s tx) (addresses : Table String DepositAddress)
    (old : Option IncomingBtcTx) {r : Receipt} (hr : r ∈ s.receipts)
    (ho : r.outpoint = ⟨tx.txid, tx.vout⟩) (hmature : MaturedAt service s.tip r) :
    (service.writtenTx addresses tx old).status = .accepted ∧
      (service.writtenTx addresses tx old).blockNumber = some r.height := by
  obtain ⟨hconf, hblock⟩ := hlists.mined r hr ho
  have hmature' := hmature.2
  exact ⟨(status_writtenTx_eq_accepted service addresses tx old).2 (.inl (by omega)), hblock⟩

end Written

/-! ## What a scan does -/

section Scan

variable {Hash : Type} {service : RuneBridgeService Hash} {W : WalletHistory} {s : ScanState Hash}
  {views : Views Hash} {db' : Db Hash} {n : ℕ}

/-- What can be said of a transaction after a scan: its row is in order, and keeps what it should of
the row before. -/
def TxScanned (service : RuneBridgeService Hash) (W : WalletHistory) (s : ScanState Hash)
    (o : Outpoint) (row' : Option IncomingBtcTx) : Prop :=
  (∀ row, row' = some row → TxInv service W s.receipts s.tip s.db.depositAddresses o row) ∧
    ∀ row, s.db.incomingBtcTxs.get? o = some row →
      ∃ row'', row' = some row'' ∧ TxKept service.config.btcMinConfirmations row row''

/-- The row of an output that has its confirmations. -/
def TxMatured (service : RuneBridgeService Hash) (s : ScanState Hash) (T : ℕ) (o : Outpoint)
    (row' : Option IncomingBtcTx) : Prop :=
  ∀ r ∈ s.receipts, r.outpoint = o → MaturedAt service T r →
    ∃ row, row' = some row ∧ row.status = .accepted ∧ row.blockNumber = some r.height

lemma txScanned_writtenTx (hheight : ∀ r ∈ s.receipts, r.height ≤ s.tip) {tx : WalletTransaction}
    (hlists : W.Lists s tx) (hdeposit : service.isDeposit tx = true) {old : Option IncomingBtcTx}
    (hold : TxScanned service W s ⟨tx.txid, tx.vout⟩ old) :
    TxScanned service W s ⟨tx.txid, tx.vout⟩
      (some (service.writtenTx s.db.depositAddresses tx old)) := by
  refine ⟨fun row hrow => ?_, fun row hrow => ?_⟩
  · rw [← Option.some.inj hrow]
    exact txInv_writtenTx hheight hlists hdeposit hold.1
  · obtain ⟨row', rfl, hkept⟩ := hold.2 row hrow
    exact ⟨_, rfl, hkept.trans (txKept_writtenTx hlists (hold.1 row' rfl))⟩

/-- **What a scan does to transactions.** -/
theorem scanRuneDeposits_txs (hsees : SeesHistory W s views)
    (hheight : ∀ r ∈ s.receipts, r.height ≤ s.tip)
    (hdb : ∀ o row, s.db.incomingBtcTxs.get? o = some row →
      TxInv service W s.receipts s.tip s.db.depositAddresses o row)
    (h : service.scanRuneDeposits views s.db = .ok (n, db')) :
    (∀ o, TxScanned service W s o (db'.incomingBtcTxs.get? o)) ∧
    ∀ r ∈ s.receipts, (s.db.lastScannedBlock = none ∨
        ∃ height, s.db.lastScannedBlock = some (W.hashAt height) ∧ height < r.height) →
      ∀ a, W.address r.outpoint = some a → a ≠ "" → a ≠ service.ordMultisig.changeAddress →
        TxMatured service s s.tip r.outpoint (db'.incomingBtcTxs.get? r.outpoint) := by
  obtain ⟨response, scanned, names, runes, db₁, m, -, hresponse, hscanned, htxs, rfl⟩ :=
    RuneBridgeService.scanRuneDeposits_ok h
  obtain ⟨hread, hall⟩ := RuneBridgeService.fetchOrdOutputs_ok hscanned
  have hlists : ∀ t ∈ scanned, W.Lists s t.tx := by
    intro t ht
    obtain ⟨hmem, hdeposit, -⟩ := hread t ht
    simp only [RuneBridgeService.isDeposit, decide_eq_true_eq] at hdeposit
    exact hsees.listed _ _ _ hresponse t.tx hmem hdeposit.1
  have hstart : ∀ o, TxScanned service W s o (s.db.incomingBtcTxs.get? o) := fun o =>
    ⟨hdb o, fun row hrow => ⟨row, hrow, .refl _ row⟩⟩
  have hnew : ∀ t ∈ scanned, ∀ old, TxScanned service W s ⟨t.tx.txid, t.tx.vout⟩ old →
      TxScanned service W s ⟨t.tx.txid, t.tx.vout⟩
        (some (service.writtenTx s.db.depositAddresses t.tx old)) := fun t ht old hold =>
    txScanned_writtenTx hheight (hlists t ht) (hread t ht).2.1 hold
  have hmatured : ∀ t ∈ scanned, TxMatured service s s.tip ⟨t.tx.txid, t.tx.vout⟩
      (db₁.incomingBtcTxs.get? ⟨t.tx.txid, t.tx.vout⟩) := by
    refine RuneBridgeService.indexTxs_written ?_ (fun t ht old hold => ⟨hnew t ht old hold, ?_⟩) ?_
      htxs
    · rfl
    · intro r hr ho hmature
      exact ⟨_, rfl, writtenTx_accepted (hlists t ht) _ old hr ho hmature⟩
    · exact hstart
  have hkept : ∀ o, TxScanned service W s o (db₁.incomingBtcTxs.get? o) := by
    refine RuneBridgeService.indexTxs_txs ?_ hnew ?_ htxs
    · rfl
    · exact hstart
  refine ⟨hkept, fun r hr hcursor a ha hempty hchange => ?_⟩
  obtain ⟨tx, htx, hreceive, ho⟩ := hsees.complete _ _ _ hresponse r hr <| by
    rcases hcursor with hnone | ⟨height, hsome, hlt⟩
    · left
      rw [hnone]
      rfl
    · right
      exact ⟨height, by rw [hsome]; rfl, hlt⟩
  have haddress : tx.address = some a := by
    rw [(hsees.listed _ _ _ hresponse tx htx hreceive).address, ← ho, ha]
  have hdeposit : service.isDeposit tx = true := by
    simp [RuneBridgeService.isDeposit, hreceive, haddress, hempty, hchange]
  obtain ⟨t, ht, rfl⟩ := hall tx htx hdeposit
  rw [ho]
  exact hmatured t ht

end Scan

/-! ## What the other transactions do -/

namespace Db.DepositsOfTxs

variable {Hash : Type} {service : RuneBridgeService Hash} {views : Views Hash} {db db' : Db Hash}

lemma empty : (Db.empty : Db Hash).DepositsOfTxs := fun _ _ h => absurd h (by simp [Db.empty])

lemma changeRuneDeposit (h : db.DepositsOfTxs) {key : RuneDepositKey} {row row' : RuneDeposit Hash}
    (hrow : db.runeDeposits.get? key = some row) (hsame : row'.incomingBtcTx = row.incomingBtcTx) :
    (db.setRuneDeposit key row').DepositsOfTxs :=
  Table.forall_get?_set h (hsame.trans (h key row hrow))

lemma scanRuneDeposits {n : ℕ} (h : db.DepositsOfTxs)
    (hscan : service.scanRuneDeposits views db = .ok (n, db')) : db'.DepositsOfTxs :=
  RuneBridgeService.scanRuneDeposits_rows (P := fun k row => row.incomingBtcTx = ⟨k.txId, k.vout⟩)
    (fun _ _ _ _ _ _ _ _ _ => rfl) h hscan

end Db.DepositsOfTxs

/-- What stays when the node does anything but scan deposits. -/
structure OutsideScan {Hash : Type} (db db' : Db Hash) : Prop where
  incomingBtcTxs : db'.incomingBtcTxs = db.incomingBtcTxs
  lastScannedBlock : db'.lastScannedBlock = db.lastScannedBlock
  users : ∀ e user, db.users.get? e = some user → db'.users.get? e = some user
  depositAddresses : ∀ a row, db.depositAddresses.get? a = some row →
    db'.depositAddresses.get? a = some row
  deposits : db.DepositsOfTxs → db'.DepositsOfTxs

lemma NodeTransaction.outsideScan {Hash : Type} {service : RuneBridgeService Hash}
    {views : Views Hash} {db db' : Db Hash} {t : NodeTransaction Hash}
    (hother : t ≠ .scanRuneDeposits) (h : t.run service views db = .ok db') :
    OutsideScan db db' := by
  cases NodeTransaction.run_effect h with
  | unchanged => exact ⟨rfl, rfl, fun _ _ h => h, fun _ _ h => h, fun h => h⟩
  | addresses husers haddresses => exact ⟨rfl, rfl, husers, haddresses, fun h => h⟩
  | deposits => exact absurd rfl hother
  | tokenDeposits hscan =>
      have hrecorded := RuneBridgeService.scanRuneTokenDeposits_ok hscan
      refine ⟨hrecorded.incomingBtcTxs, hrecorded.lastScannedBlock, fun e user huser => ?_,
        fun a row hrow => ?_, fun hdb k row hrow => ?_⟩
      · rw [hrecorded.users, huser]
      · rw [hrecorded.depositAddresses, hrow]
      · exact hdb k row (hrecorded.runeDeposits ▸ hrow)
  | signatures row hrow =>
      exact ⟨rfl, rfl, fun _ _ h => h, fun _ _ h => h, fun h => h.changeRuneDeposit hrow rfl⟩
  | deposit hrow =>
      exact ⟨rfl, rfl, fun _ _ h => h, fun _ _ h => h, fun h => h.changeRuneDeposit hrow rfl⟩
  | tokenDeposit => exact ⟨rfl, rfl, fun _ _ h => h, fun _ _ h => h, fun h => h⟩

/-! ## The invariant -/

section Invariant

variable {Hash : Type} {service : RuneBridgeService Hash} {W : WalletHistory}

/-- What holds in every state of a run. -/
structure PollInv (service : RuneBridgeService Hash) (W : WalletHistory) (s : ScanState Hash) :
    Prop where
  nodup : (s.receipts.map Receipt.outpoint).Nodup
  height : ∀ o ∈ s.receipts, 0 < o.height ∧ o.height ≤ s.tip
  cursor : s.db.lastScannedBlock =
    s.scanned.map fun T => W.hashAt (T + 1 - service.config.btcListsinceblockBuffer)
  scanned : ∀ T, s.scanned = some T → T ≤ s.tip ∧ 0 < service.config.btcListsinceblockBuffer ∧
    service.config.btcMinConfirmations ≤ service.config.btcListsinceblockBuffer
  unscanned : s.scanned = none → ∀ o, s.db.incomingBtcTxs.get? o = none
  txs : ∀ T, s.scanned = some T → ∀ o row, s.db.incomingBtcTxs.get? o = some row →
    TxInv service W s.receipts T s.db.depositAddresses o row
  matured : ∀ T, s.scanned = some T → ∀ o a, W.address o = some a → a ≠ "" →
    a ≠ service.ordMultisig.changeAddress → TxMatured service s T o (s.db.incomingBtcTxs.get? o)
  deposits : s.db.DepositsOfTxs

/-- What stays from one state to a later one. -/
structure PollKept (service : RuneBridgeService Hash) (s s' : ScanState Hash) : Prop where
  tip_le : s.tip ≤ s'.tip
  scanned : ∀ T, s.scanned = some T → ∃ T', s'.scanned = some T' ∧ T ≤ T'
  receipts_of : ∀ r ∈ s'.receipts, r ∈ s.receipts ∨ s.tip < r.height
  users : ∀ e user, s.db.users.get? e = some user → s'.db.users.get? e = some user
  depositAddresses : ∀ a row, s.db.depositAddresses.get? a = some row →
    s'.db.depositAddresses.get? a = some row
  txs : ∀ o row, s.db.incomingBtcTxs.get? o = some row → ∃ row',
    s'.db.incomingBtcTxs.get? o = some row' ∧
      TxKept service.config.btcMinConfirmations row row'

lemma PollInit.inv {s : ScanState Hash} (h : PollInit s) : PollInv service W s where
  nodup := h.start.nodup
  height o ho := ⟨h.height_pos o ho, h.start.height_le o ho⟩
  cursor := by rw [h.start.db, h.start.scanned]; rfl
  scanned T hT := by
    rw [h.start.scanned] at hT
    exact absurd hT (by simp)
  unscanned _ o := by rw [h.start.db]; rfl
  txs T hT := by
    rw [h.start.scanned] at hT
    exact absurd hT (by simp)
  matured T hT := by
    rw [h.start.scanned] at hT
    exact absurd hT (by simp)
  deposits := h.start.db ▸ Db.DepositsOfTxs.empty

lemma PollKept.refl (s : ScanState Hash) : PollKept service s s where
  tip_le := le_rfl
  scanned T hT := ⟨T, hT, le_rfl⟩
  receipts_of _ hr := .inl hr
  users _ _ h := h
  depositAddresses _ _ h := h
  txs _ row h := ⟨row, h, .refl _ row⟩

lemma PollKept.trans {s s' s'' : ScanState Hash} (h : PollKept service s s')
    (h' : PollKept service s' s'') : PollKept service s s'' where
  tip_le := h.tip_le.trans h'.tip_le
  scanned T hT := by
    obtain ⟨T', hT', hle⟩ := h.scanned T hT
    obtain ⟨T'', hT'', hle'⟩ := h'.scanned T' hT'
    exact ⟨T'', hT'', hle.trans hle'⟩
  receipts_of r hr := by
    rcases h'.receipts_of r hr with hr | hlt
    · exact h.receipts_of r hr
    · exact .inr (h.tip_le.trans_lt hlt)
  users e user huser := h'.users e user (h.users e user huser)
  depositAddresses a row hrow := h'.depositAddresses a row (h.depositAddresses a row hrow)
  txs o row hrow := by
    obtain ⟨row', hrow', hkept⟩ := h.txs o row hrow
    obtain ⟨row'', hrow'', hkept'⟩ := h'.txs o row' hrow'
    exact ⟨row'', hrow'', hkept.trans hkept'⟩

/-! ## Its preservation -/

variable {s s' : ScanState Hash}

/-- A block adds outputs above the tip. -/
lemma mem_mine {received : List (Outpoint × String)} {r : Receipt}
    (hr : r ∈ (s.mine received).receipts) : r ∈ s.receipts ∨ r.height = s.tip + 1 := by
  rcases List.mem_append.1 hr with hr | hr
  · exact .inl hr
  · obtain ⟨p, -, rfl⟩ := List.mem_map.1 hr
    exact .inr rfl

lemma PollInv.block {received : List (Outpoint × String)} (h : PollInv service W s)
    (hnew : ((s.mine received).receipts.map Receipt.outpoint).Nodup) :
    PollInv service W (s.mine received) ∧ PollKept service s (s.mine received) := by
  have hreceipts : ∀ r ∈ s.receipts, r ∈ (s.mine received).receipts := fun r hr =>
    List.mem_append_left _ hr
  have htip : (s.mine received).tip = s.tip + 1 := rfl
  refine ⟨⟨hnew, fun r hr => ?_, h.cursor, fun T hT => ?_, h.unscanned, fun T hT o row hrow => ?_,
    fun T hT o a ha hempty hchange r hr ho hmature => ?_, h.deposits⟩, ⟨?_, fun T hT => ?_,
    fun r hr => ?_, fun _ _ h => h, fun _ _ h => h, fun _ row hrow => ⟨row, hrow, .refl _ row⟩⟩⟩
  · rcases mem_mine hr with hr | hheight
    · have hold := h.height r hr
      omega
    · omega
  · obtain ⟨hle, hbuffer⟩ := h.scanned T hT
    exact ⟨by omega, hbuffer⟩
  · exact (h.txs T hT o row hrow).mono le_rfl hreceipts fun _ _ h => h
  · -- what has its confirmations at `T` is not in the new block
    rcases mem_mine hr with hr | hheight
    · exact h.matured T hT o a ha hempty hchange r hr ho hmature
    · have hle := (h.scanned T hT).1
      have hmature' := hmature.1
      omega
  · omega
  · exact ⟨T, hT, le_rfl⟩
  · rcases mem_mine hr with hr | hheight
    · exact .inl hr
    · exact .inr (by omega)

/-- The cursor lies below every output that has not been seen with its confirmations. -/
lemma PollInv.matured_or_above (h : PollInv service W s) {r : Receipt} (hr : r ∈ s.receipts) :
    (∃ T, s.scanned = some T ∧ MaturedAt service T r) ∨ (s.db.lastScannedBlock = none ∨
      ∃ height, s.db.lastScannedBlock = some (W.hashAt height) ∧ height < r.height) := by
  cases hT : s.scanned with
  | none =>
      right
      left
      rw [h.cursor, hT]
      rfl
  | some T =>
      have hpos := (h.height r hr).1
      obtain ⟨-, hbuffer, hconf⟩ := h.scanned T hT
      by_cases habove : T + 1 - service.config.btcListsinceblockBuffer < r.height
      · right
        right
        exact ⟨_, by rw [h.cursor, hT]; rfl, habove⟩
      · left
        exact ⟨T, rfl, by omega, by omega⟩

lemma PollInv.scan {views : Views Hash} {n : ℕ} {db' : Db Hash} (h : PollInv service W s)
    (hsees : SeesHistory W s views) (hscan : service.scanRuneDeposits views s.db = .ok (n, db')) :
    PollInv service W { s with db := db', scanned := some s.tip } ∧
      PollKept service s { s with db := db', scanned := some s.tip } := by
  have hdb : ∀ o row, s.db.incomingBtcTxs.get? o = some row →
      TxInv service W s.receipts s.tip s.db.depositAddresses o row := by
    intro o row hrow
    cases hT : s.scanned with
    | none =>
        rw [h.unscanned hT] at hrow
        exact absurd hrow (by simp)
    | some T =>
        exact (h.txs T hT o row hrow).mono (h.scanned T hT).1 (fun _ hr => hr) fun _ _ h => h
  obtain ⟨htxs, hmatured⟩ := scanRuneDeposits_txs hsees (fun r hr => (h.height r hr).2) hdb hscan
  have hkept := RuneBridgeService.scanRuneDeposits_kept hscan
  have hdeposits := h.deposits.scanRuneDeposits hscan
  obtain ⟨response, -, -, -, db₁, -, hbuffer, hresponse, -, -, hdb'⟩ :=
    RuneBridgeService.scanRuneDeposits_ok hscan
  refine ⟨⟨h.nodup, h.height, ?_, fun T hT => ?_, fun hnone => absurd hnone (by simp),
    fun T hT o row hrow => ?_, fun T hT o a ha hempty hchange r hr ho hmature => ?_, hdeposits⟩,
    ⟨le_rfl, fun T hT => ⟨s.tip, rfl, (h.scanned T hT).1⟩, fun r hr => .inl hr,
    fun e user huser => ?_, fun a row hrow => ?_, fun o row hrow => (htxs o).2 row hrow⟩⟩
  · show db'.lastScannedBlock = some _
    rw [hdb']
    exact congrArg some (hsees.lastblock _ _ _ hresponse)
  · obtain rfl := Option.some.inj hT
    exact ⟨le_rfl, hsees.target_pos _ _ _ hresponse, hbuffer⟩
  · obtain rfl := Option.some.inj hT
    show TxInv service W s.receipts s.tip db'.depositAddresses o row
    rw [hkept.depositAddresses]
    exact (htxs o).1 row hrow
  · obtain rfl := Option.some.inj hT
    rcases h.matured_or_above hr with ⟨T, hT, hbefore⟩ | habove
    -- seen with its confirmations before, and kept
    · obtain ⟨row, hrow, haccepted, hblock⟩ :=
        h.matured T hT o a ha hempty hchange r hr ho hbefore
      obtain ⟨row', hrow', htx⟩ := (htxs o).2 row hrow
      exact ⟨row', hrow', htx.accepted haccepted, htx.block _ hblock⟩
    · subst ho
      exact hmatured r hr habove a ha hempty hchange r hr rfl hmature
  · show db'.users.get? e = some user
    rw [hkept.users, huser]
  · show db'.depositAddresses.get? a = some row
    rw [hkept.depositAddresses, hrow]

lemma PollInv.work {views : Views Hash} {t : NodeTransaction Hash} {db' : Db Hash}
    (h : PollInv service W s) (hother : t ≠ .scanRuneDeposits)
    (ht : t.run service views s.db = .ok db') :
    PollInv service W { s with db := db' } ∧ PollKept service s { s with db := db' } := by
  have hkept := NodeTransaction.outsideScan hother ht
  refine ⟨⟨h.nodup, h.height, hkept.lastScannedBlock.trans h.cursor, h.scanned, fun hT o => ?_,
    fun T hT o row hrow => ?_, fun T hT o a ha hempty hchange => ?_, hkept.deposits h.deposits⟩,
    ⟨le_rfl, fun T hT => ⟨T, hT, le_rfl⟩, fun r hr => .inl hr, hkept.users, hkept.depositAddresses,
    fun o row hrow => ⟨row, ?_, .refl _ row⟩⟩⟩
  · show db'.incomingBtcTxs.get? o = none
    rw [hkept.incomingBtcTxs]
    exact h.unscanned hT o
  · have hold := h.txs T hT o row (hkept.incomingBtcTxs ▸ hrow)
    exact hold.mono le_rfl (fun _ hr => hr) hkept.depositAddresses
  · show TxMatured service s T o (db'.incomingBtcTxs.get? o)
    rw [hkept.incomingBtcTxs]
    exact h.matured T hT o a ha hempty hchange
  · show db'.incomingBtcTxs.get? o = some row
    rw [hkept.incomingBtcTxs, hrow]

/-- **One step.** -/
theorem PollInv.step {a : PollAction Hash} (h : PollInv service W s)
    (hstep : PollStep service W s a s') : PollInv service W s' ∧ PollKept service s s' := by
  cases hstep with
  | block hnew => exact h.block hnew
  | scan hsees hscan => exact h.scan hsees hscan
  | failedScan => exact ⟨h, .refl s⟩
  | work hother ht => exact h.work hother ht

/-- **The invariant holds along every run.** -/
theorem PollRun.inv {tr : List (PollAction Hash)} (hr : PollRun service W tr s) :
    PollInv service W s :=
  hr.stateInvariant (fun _ h => h.inv) fun _ _ _ h hstep => (h.step hstep).1

/-- A run that goes on keeps what it should. -/
theorem PollInv.run (h : PollInv service W s) {tr : List (PollAction Hash)}
    (hr : PollRunFrom service W s tr s') : PollInv service W s' ∧ PollKept service s s' := by
  refine hr.stateInvariant (I := fun s' => PollInv service W s' ∧ PollKept service s s') ?_ ?_
  · rintro _ rfl
    exact ⟨h, .refl _⟩
  · rintro s₁ a s₂ ⟨hinv, hkept⟩ hstep
    obtain ⟨hinv', hkept'⟩ := hinv.step hstep
    exact ⟨hinv', hkept.trans hkept'⟩

end Invariant

/-! ## Polling -/

section Polling

variable {Hash : Type} {service : RuneBridgeService Hash} {W : WalletHistory}
  {s s' : ScanState Hash} {evmAddress lastBlock : String} {o : Outpoint} {row : IncomingBtcTx}
  {T T₀ : ℕ}

/-- Whoever polls goes on polling as the same user. -/
lemma RuneBridgeService.PollsAs.of_kept {block : Block} {user : User} (hkept : PollKept service s s')
    (h : service.PollsAs evmAddress lastBlock block s.db user) :
    service.PollsAs evmAddress lastBlock block s'.db user where
  known := by
    obtain ⟨checksumAddress, hchecksum, huser⟩ := h.known
    exact ⟨checksumAddress, hchecksum, hkept.users _ _ huser⟩
  address := by
    obtain ⟨p, hp, hpuser⟩ := h.address
    have hget := hkept.depositAddresses p.1 p.2 (Table.lookup_of_mem s.db.depositAddresses.nodup hp)
    exact ⟨p, Table.mem_of_get? hget, hpuser⟩
  hash := h.hash
  time := h.time

/-- The block to poll with is of the chain. -/
lemma PollInv.polled (h : PollInv service W s)
    (hlast : RuneBridgeService.getLastScannedBitcoinBlock s.db = some lastBlock) :
    ∃ T₀, s.scanned = some T₀ ∧
      lastBlock = W.hashAt (T₀ + 1 - service.config.btcListsinceblockBuffer) ∧
      T₀ + 1 - service.config.btcListsinceblockBuffer ≤ s.tip := by
  have hcursor := h.cursor.symm.trans hlast
  obtain ⟨T₀, hT₀, rfl⟩ := Option.map_eq_some_iff.1 hcursor
  obtain ⟨hle, hbuffer, -⟩ := h.scanned T₀ hT₀
  exact ⟨T₀, hT₀, rfl, by omega⟩

lemma PollInv.exists_scanned (h : PollInv service W s)
    (hrow : s.db.incomingBtcTxs.get? o = some row) : ∃ T, s.scanned = some T := by
  rw [← Option.ne_none_iff_exists']
  intro hnone
  rw [h.unscanned hnone] at hrow
  exact absurd hrow (by simp)

/-- A transaction that is `ACCEPTED` is of an output that has its confirmations. -/
lemma PollInv.receipt_of_accepted (h : PollInv service W s) (hT : s.scanned = some T)
    (hrow : s.db.incomingBtcTxs.get? o = some row) (haccepted : row.status = .accepted)
    (hblock : service.config.btcMinConfirmations = 0 → ∃ n, row.blockNumber = some n) :
    ∃ r ∈ s.receipts, r.outpoint = o ∧ row.blockNumber = some r.height ∧ MaturedAt service T r := by
  have hinv := h.txs T hT o row hrow
  obtain ⟨n, hn, hmature⟩ : ∃ n, row.blockNumber = some n ∧
      service.config.btcMinConfirmations + n ≤ T + 1 := by
    rcases hinv.accepted haccepted with hzero | hmature
    · obtain ⟨n, hn⟩ := hblock hzero
      exact ⟨n, hn, by have hle := (hinv.block n hn).1; omega⟩
    · exact hmature
  obtain ⟨hle, r, hr, ho, rfl⟩ := hinv.block n hn
  exact ⟨r, hr, ho, hn, hle, hmature⟩

/-- The condition, for an output with its confirmations. -/
lemma staysShown_iff (h : PollInv service W s) (hT : s.scanned = some T) {r : Receipt}
    (hr : r ∈ s.receipts) (ho : r.outpoint = o) (hmature : MaturedAt service T r) :
    StaysShown service T₀ s o ↔
      (T₀ < r.height ∧ service.config.btcListsinceblockBuffer ≤ r.height) ∧
        ∃ n deposit, s.db.runeDeposits.get? ⟨o.txid, o.vout, n⟩ = some deposit := by
  constructor
  · exact fun hstays => hstays r hr ho ⟨T, hT, hmature⟩
  · intro hshown r' hr' ho' _
    obtain rfl : r' = r := List.inj_on_of_nodup_map h.nodup hr' hr (ho'.trans ho.symm)
    exact hshown

/-- The condition asks nothing of an output without its confirmations. -/
lemma staysShown_of_detected (h : PollInv service W s)
    (hrow : s.db.incomingBtcTxs.get? o = some row) (hdetected : row.status = .detected) :
    StaysShown service T₀ s o := by
  rintro r hr ho ⟨T, hT, hmature⟩
  have hinv := h.txs T hT o row hrow
  obtain ⟨row', hrow', haccepted, -⟩ :=
    h.matured T hT o _ hinv.address hinv.ne_empty hinv.ne_change r hr ho hmature
  rw [hrow, Option.some.injEq] at hrow'
  rw [← hrow', hdetected] at haccepted
  exact absurd haccepted (by decide)

/-- The number a block is compared with. -/
lemma cursor_add_le_iff {buffer height : ℕ} :
    T₀ + 1 - buffer + buffer ≤ height ↔ T₀ < height ∧ buffer ≤ height := by
  omega

variable {s₀ s₁ s₂ : ScanState Hash} {tr₀ tr₁ tr₂ : List (PollAction Hash)}
  {getblock₁ getblock₁' getblock₂ getblock₂' : String → PyResult Block}

/-- What is shown later of what is shown now, to a user who polls with the block at height
`T₀ + 1 - buffer`. -/
lemma PollInv.shows_iff (hinv₁ : PollInv service W s₁) (h₂ : PollRunFrom service W s₁ tr₂ s₂)
    (hle₁ : T₀ + 1 - service.config.btcListsinceblockBuffer ≤ s₁.tip)
    (hblocks₁ : SeesBlocks W s₁ getblock₁) (hblocks₁' : SeesBlocks W s₁ getblock₁')
    (hblocks₂ : SeesBlocks W s₂ getblock₂) (hblocks₂' : SeesBlocks W s₂ getblock₂')
    (hshown : service.Shows getblock₁ getblock₁' evmAddress
      (W.hashAt (T₀ + 1 - service.config.btcListsinceblockBuffer)) s₁.db o) :
    service.Shows getblock₂ getblock₂' evmAddress
      (W.hashAt (T₀ + 1 - service.config.btcListsinceblockBuffer)) s₂.db o ↔
      StaysShown service T₀ s₂ o := by
  obtain ⟨hinv₂, hkept₂⟩ := hinv₁.run h₂
  have hle₂ := hle₁.trans hkept₂.tip_le
  rw [RuneBridgeService.shows_iff hinv₁.deposits (hblocks₁ _ hle₁) (hblocks₁' _ hle₁)] at hshown
  obtain ⟨user, hpolls, row₁, hrow₁, ⟨huser, hselected⟩, -⟩ := hshown
  obtain ⟨row₂, hrow₂, hkept⟩ := hkept₂.txs o row₁ hrow₁
  obtain ⟨T₁, hT₁⟩ := hinv₁.exists_scanned hrow₁
  obtain ⟨T₂, hT₂⟩ := hinv₂.exists_scanned hrow₂
  have hpolls₂ := hpolls.of_kept hkept₂
  -- the row is still of the user, and as old
  have huser₂ : row₂.user.map User.id = some user.id := by
    obtain ⟨u, hu, hid⟩ := Option.map_eq_some_iff.1 huser
    rw [hkept.user u hu, Option.map_some, hid]
  have htime : row₂.time = row₁.time :=
    (hinv₂.txs T₂ hT₂ o row₂ hrow₂).time.trans (hinv₁.txs T₁ hT₁ o row₁ hrow₁).time.symm
  cases hstatus : row₂.status with
  | detected =>
      have hdetected₁ : row₁.status = .detected := by
        rw [IncomingBtcTxStatus.eq_detected_iff]
        intro haccepted
        rw [hkept.accepted haccepted] at hstatus
        exact absurd hstatus (by decide)
      have hold : W.blockTime (T₀ + 1 - service.config.btcListsinceblockBuffer) ≤ row₁.time := by
        rcases hselected with ⟨-, hold⟩ | ⟨haccepted, -⟩
        · exact hold
        · rw [hdetected₁] at haccepted
          exact absurd haccepted (by decide)
      refine iff_of_true ?_ (staysShown_of_detected hinv₂ hrow₂ hstatus)
      exact RuneBridgeService.shows_of_detected hinv₂.deposits (hblocks₂ _ hle₂) (hblocks₂' _ hle₂)
        hpolls₂ hrow₂ huser₂ hstatus (htime ▸ hold)
  | accepted =>
      have hblock : service.config.btcMinConfirmations = 0 → ∃ n, row₂.blockNumber = some n := by
        intro hzero
        rcases hselected with ⟨hdetected, -⟩ | ⟨-, n, hn, -⟩
        · rw [hkept.detected hzero hdetected] at hstatus
          exact absurd hstatus (by decide)
        · exact ⟨n, hkept.block n hn⟩
      obtain ⟨r, hr, ho, hnumber, hmature⟩ :=
        hinv₂.receipt_of_accepted hT₂ hrow₂ hstatus hblock
      have hbound : (∃ n, row₂.blockNumber = some n ∧
          T₀ + 1 - service.config.btcListsinceblockBuffer +
            service.config.btcListsinceblockBuffer ≤ n) ↔
          T₀ < r.height ∧ service.config.btcListsinceblockBuffer ≤ r.height := by
        rw [hnumber]
        simp only [Option.some.injEq, exists_eq_left']
        exact cursor_add_le_iff
      rw [RuneBridgeService.shows_iff_of_accepted hinv₂.deposits (hblocks₂ _ hle₂)
        (hblocks₂' _ hle₂) hpolls₂ hrow₂ huser₂ hstatus, hbound]
      exact (staysShown_iff hinv₂ hT₂ hr ho hmature).symm

/-- **One confirmation.**  Where one confirmation is enough, and the chain was as long as the buffer,
a deposit of runes that was shown does not vanish. -/
theorem shown_deposit_kept_of_one_confirmation
    (hone : service.config.btcMinConfirmations ≤ 1) (h₀ : PollRun service W tr₀ s₀)
    (hT₀ : s₀.scanned = some T₀) (hlong : service.config.btcListsinceblockBuffer ≤ T₀ + 1)
    (hlast : RuneBridgeService.getLastScannedBitcoinBlock s₀.db = some lastBlock)
    (h₁ : PollRunFrom service W s₀ tr₁ s₁) (h₂ : PollRunFrom service W s₁ tr₂ s₂)
    (hblocks₁ : SeesBlocks W s₁ getblock₁) (hblocks₁' : SeesBlocks W s₁ getblock₁')
    (hblocks₂ : SeesBlocks W s₂ getblock₂) (hblocks₂' : SeesBlocks W s₂ getblock₂')
    (hshown : service.Shows getblock₁ getblock₁' evmAddress lastBlock s₁.db o)
    (hrunes : ∃ n row, s₂.db.runeDeposits.get? ⟨o.txid, o.vout, n⟩ = some row) :
    service.Shows getblock₂ getblock₂' evmAddress lastBlock s₂.db o := by
  obtain ⟨T₀', hT₀', rfl, hle₀⟩ := h₀.inv.polled hlast
  obtain rfl : T₀' = T₀ := Option.some.inj (hT₀'.symm.trans hT₀)
  obtain ⟨hinv₁, hkept₁⟩ := h₀.inv.run h₁
  have hle₁ := hle₀.trans hkept₁.tip_le
  rw [hinv₁.shows_iff h₂ hle₁ hblocks₁ hblocks₁' hblocks₂ hblocks₂' hshown]
  rw [RuneBridgeService.shows_iff hinv₁.deposits (hblocks₁ _ hle₁) (hblocks₁' _ hle₁)] at hshown
  obtain ⟨user, -, row, hrow, ⟨-, hselected⟩, -⟩ := hshown
  obtain ⟨T₁, hT₁, hleT⟩ := hkept₁.scanned T₀' hT₀
  have hleTip := (hinv₁.scanned T₁ hT₁).1
  intro r hr ho _
  suffices habove : T₀' < r.height from ⟨⟨habove, by omega⟩, hrunes⟩
  by_contra hbelow
  -- a block up to `T₀` was scanned by the first call, which shows the row as `ACCEPTED`
  have hr₁ : r ∈ s₁.receipts := ((hinv₁.run h₂).2.receipts_of r hr).resolve_right (by omega)
  have htx := hinv₁.txs T₁ hT₁ o row hrow
  obtain ⟨row', hrow', haccepted, hblock⟩ := hinv₁.matured T₁ hT₁ o _ htx.address htx.ne_empty
    htx.ne_change r hr₁ ho ⟨by omega, by omega⟩
  obtain rfl : row = row' := Option.some.inj (hrow.symm.trans hrow')
  rcases hselected with ⟨hdetected, -⟩ | ⟨-, n, hn, hbound⟩
  · rw [hdetected] at haccepted
    exact absurd haccepted (by decide)
  · rw [hblock, Option.some.injEq] at hn
    rw [← hn] at hbound
    exact hbelow (cursor_add_le_iff.1 hbound).1

/-- **A deposit that was shown.**  A user polls with the block stored by the scan at tip `T₀`, and an
output is shown.  It is shown in a later call exactly when it does not have its confirmations by the
last scan, or is in a block above `T₀` and not below the buffer and has runes recorded. -/
theorem shown_deposit_kept_iff (h₀ : PollRun service W tr₀ s₀)
    (hlast : RuneBridgeService.getLastScannedBitcoinBlock s₀.db = some lastBlock)
    (h₁ : PollRunFrom service W s₀ tr₁ s₁) (h₂ : PollRunFrom service W s₁ tr₂ s₂)
    (hblocks₁ : SeesBlocks W s₁ getblock₁) (hblocks₁' : SeesBlocks W s₁ getblock₁')
    (hblocks₂ : SeesBlocks W s₂ getblock₂) (hblocks₂' : SeesBlocks W s₂ getblock₂')
    (hshown : service.Shows getblock₁ getblock₁' evmAddress lastBlock s₁.db o) :
    service.Shows getblock₂ getblock₂' evmAddress lastBlock s₂.db o ↔
      ∀ T₀, s₀.scanned = some T₀ → StaysShown service T₀ s₂ o := by
  obtain ⟨T₀, hT₀, rfl, hle₀⟩ := h₀.inv.polled hlast
  obtain ⟨hinv₁, hkept₁⟩ := h₀.inv.run h₁
  rw [hinv₁.shows_iff h₂ (hle₀.trans hkept₁.tip_le) hblocks₁ hblocks₁' hblocks₂ hblocks₂' hshown,
    hT₀]
  simp only [Option.some.injEq, forall_eq']

end Polling

/-! ## Two deposits -/

namespace ExampleNode

/-- Blocks with hashes of 64 characters, and a wallet with one address. -/
def history : WalletHistory where
  hashAt height :=
    String.ofList (List.replicate (64 - height) '0' ++ List.replicate (min height 64) '1')
  blockTime height := height + 1
  time _ := 9
  address _ := some (ExampleWallet.ms.deriveAddress 1)
  conflicted _ _ := False
  conflicted_mono _ h := h

def getblock (blockHash : String) : PyResult Block :=
  let height := blockHash.toList.count '1'
  .ok ⟨height + 1, height⟩

lemma length_hashAt (height : ℕ) : (history.hashAt height).length = 64 := by
  rw [history, String.length_ofList, List.length_append, List.length_replicate,
    List.length_replicate]
  omega

lemma seesBlocks {s : ScanState Bytes} (htip : s.tip ≤ 64) : SeesBlocks history s getblock := by
  intro height hle
  have hcount : (history.hashAt height).toList.count '1' = height := by
    rw [history, String.toList_ofList, List.count_append, List.count_replicate_self,
      List.count_replicate]
    simp
    omega
  rw [getblock, hcount]
  rfl

/-- The deposit as the wallet lists it, in a block or unconfirmed. -/
def listedTx (tip : ℕ) (height : Option ℕ) : WalletTransaction :=
  { walletTx with
    confirmations := height.elim 0 fun height => (tip : ℤ) + 1 - height
    blockheight := height
    time := 9 }

def pollViews (tip : ℕ) (height : Option ℕ) : Views Bytes :=
  { views ['4'] with
    bitcoinRpc := { ExampleWallet.rpc with
      listsinceblock := fun _ target =>
        if 0 < target then .ok ⟨history.hashAt (tip + 1 - target), [listedTx tip height]⟩
        else .error (.other "Invalid parameter") } }

lemma listsinceblock_pollViews {tip : ℕ} {height : Option ℕ} {b : String} {k : ℕ}
    {r : ListSinceBlock} (h : (pollViews tip height).bitcoinRpc.listsinceblock b k = .ok r) :
    0 < k ∧ r = ⟨history.hashAt (tip + 1 - k), [listedTx tip height]⟩ := by
  simp only [pollViews] at h
  split at h
  · exact ⟨‹_›, (Except.ok.inj h).symm⟩
  · exact absurd h (by simp)

/-- The receipt of the deposit, if there is a block with it. -/
def receiptsOf (height : Option ℕ) : List Receipt :=
  (height.map fun height =>
    ⟨ExampleWallet.runeUtxo.outpoint, ExampleWallet.ms.deriveAddress 1, height⟩).toList

lemma lists {s : ScanState Bytes} {height : Option ℕ} (hreceipts : s.receipts = receiptsOf height)
    (hle : ∀ h, height = some h → h ≤ s.tip) : history.Lists s (listedTx s.tip height) where
  time := rfl
  address := rfl
  conflicted := by
    refine ⟨fun hneg => ?_, False.elim⟩
    cases height with
    | none => exact absurd hneg (lt_irrefl (0 : ℤ))
    | some height =>
        have htip := hle height rfl
        have hneg' : (s.tip : ℤ) + 1 - height < 0 := hneg
        omega
  mined r hr _ := by
    rw [hreceipts] at hr
    cases height with
    | none => exact absurd hr List.not_mem_nil
    | some height =>
        obtain rfl := List.mem_singleton.1 hr
        exact ⟨rfl, rfl⟩
  unmined hno := by
    rw [hreceipts] at hno
    cases height with
    | none => exact ⟨le_rfl, rfl⟩
    | some height => exact absurd rfl (hno _ (List.mem_singleton_self _))

lemma seesHistory {s : ScanState Bytes} {height : Option ℕ}
    (hreceipts : s.receipts = receiptsOf height) (hle : ∀ h, height = some h → h ≤ s.tip) :
    SeesHistory history s (pollViews s.tip height) where
  target_pos b k r h := (listsinceblock_pollViews h).1
  lastblock b k r h := by rw [(listsinceblock_pollViews h).2]
  listed b k r h tx htx _ := by
    rw [(listsinceblock_pollViews h).2, List.mem_singleton] at htx
    exact htx ▸ lists hreceipts hle
  complete b k r h o ho _ := by
    rw [(listsinceblock_pollViews h).2]
    rw [hreceipts] at ho
    cases height with
    | none => exact absurd ho List.not_mem_nil
    | some height =>
        obtain rfl := List.mem_singleton.1 ho
        exact ⟨_, List.mem_singleton_self _, rfl, rfl⟩

/-- The user has an address. -/
def known : ScanState Bytes := { start with db := addressDb }

/-- The database after a scan at this tip. -/
def scannedDb (tip : ℕ) (height : Option ℕ) (db : Db Bytes) : Db Bytes :=
  afterwards (NodeTransaction.scanRuneDeposits.run (service '4' []) (pollViews tip height) db)

def scannedState (s : ScanState Bytes) (height : Option ℕ) : ScanState Bytes :=
  { s with db := scannedDb s.tip height s.db, scanned := some s.tip }

/-- A scan in this state returns. -/
abbrev scans (s : ScanState Bytes) (height : Option ℕ) : Bool :=
  ((service '4' []).scanRuneDeposits (pollViews s.tip height) s.db).isOk

lemma scan_step {s : ScanState Bytes} {height : Option ℕ}
    (hreceipts : s.receipts = receiptsOf height) (hle : ∀ h, height = some h → h ≤ s.tip)
    (hok : scans s height = true) :
    PollStep (service '4' []) history s (.scan (pollViews s.tip height))
      (scannedState s height) := by
  obtain ⟨⟨n, db⟩, hscan⟩ := exists_ok_of_isOk hok
  have hdb : scannedDb s.tip height s.db = db := by
    rw [scannedDb, NodeTransaction.run, hscan]
    rfl
  rw [scannedState, hdb]
  exact .scan (seesHistory hreceipts hle) hscan

lemma known_reached : ∃ tr, PollRun (service '4' []) history tr known := by
  obtain ⟨address, haddress⟩ := generateDepositAddress_addressDb
  have hstart : PollRun (service '4' []) history [] start :=
    .init ⟨⟨rfl, by simp [start], by simp [start], rfl, rfl⟩, by simp [start]⟩
  have hgenerate : (NodeTransaction.generateDepositAddress "u").run (service '4' []) (views ['4'])
      start.db = .ok addressDb := by
    rw [NodeTransaction.run, start, haddress]
    rfl
  exact ⟨_, hstart.step (.work (by simp) hgenerate)⟩

/-- The deposit is in block 1, and a scan sees it with one confirmation of two. -/
def seen : ScanState Bytes := scannedState (known.mine deposit) (some 1)

/-- Another block, and a scan accepts it. -/
def accepted : ScanState Bytes := scannedState (seen.mine []) (some 1)

/-- At tip 2 the deposit is unconfirmed. -/
def pending : ScanState Bytes := scannedState ((known.mine []).mine []) none

/-- It is in block 3, and has its confirmations at tip 4. -/
def confirmed : ScanState Bytes := scannedState ((pending.mine deposit).mine []) (some 3)

/-- What the row of the deposit says: its user, its status, its block and its time. -/
def rowOf (db : Db Bytes) : Option (Option ℕ × IncomingBtcTxStatus × Option ℕ × ℕ) :=
  (db.incomingBtcTxs.get? ExampleWallet.runeUtxo.outpoint).map fun row =>
    (row.user.map User.id, row.status, row.blockNumber, row.time)

/-- What the scans compute here. -/
structure PollComputed : Prop where
  scanSeen : scans (known.mine deposit) (some 1) = true
  scanAccepted : scans (seen.mine []) (some 1) = true
  scanPending : scans ((known.mine []).mine []) none = true
  scanConfirmed : scans ((pending.mine deposit).mine []) (some 3) = true
  users : ∀ s ∈ [seen, accepted, pending], s.db.users.get? "u" = some user ∧
    (s.db.depositAddresses.rows.map fun p => p.2.user) = [user]
  seenRow : rowOf seen.db = some (some 1, .detected, some 1, 9)
  acceptedRow : rowOf accepted.db = some (some 1, .accepted, some 1, 9)
  pendingRow : rowOf pending.db = some (some 1, .detected, none, 9)
  status : (confirmed.db.incomingBtcTxs.get? ExampleWallet.runeUtxo.outpoint).map
    IncomingBtcTx.status = some .accepted
  rune : (confirmed.db.runeDeposits.get? ⟨"aa", 0, 0⟩).isSome = true

lemma pollComputed : PollComputed where
  scanSeen := by decide +kernel
  scanAccepted := by decide +kernel
  scanPending := by decide +kernel
  scanConfirmed := by decide +kernel
  users := by decide +kernel
  seenRow := by decide +kernel
  acceptedRow := by decide +kernel
  pendingRow := by decide +kernel
  status := by decide +kernel
  rune := by decide +kernel

lemma seen_reached : ∃ tr, PollRun (service '4' []) history tr seen := by
  obtain ⟨tr, hknown⟩ := known_reached
  have hblock : PollRun (service '4' []) history _ (known.mine deposit) :=
    hknown.step (.block (List.nodup_singleton _))
  exact ⟨_, hblock.step (scan_step rfl (by rintro _ ⟨⟩; decide) (pollComputed).scanSeen)⟩

lemma accepted_reached : ∃ tr, PollRunFrom (service '4' []) history seen tr accepted := by
  have hstart : PollRunFrom (service '4' []) history seen [] seen := .init rfl
  have hblock : PollRunFrom (service '4' []) history seen _ (seen.mine []) :=
    hstart.step (.block (List.nodup_singleton _))
  exact ⟨_, hblock.step (scan_step rfl (by rintro _ ⟨⟩; decide) (pollComputed).scanAccepted)⟩

lemma pending_reached : ∃ tr, PollRun (service '4' []) history tr pending := by
  obtain ⟨tr, hknown⟩ := known_reached
  have hblock : PollRun (service '4' []) history _ (known.mine []) :=
    hknown.step (.block List.nodup_nil)
  have hblocks : PollRun (service '4' []) history _ ((known.mine []).mine []) :=
    hblock.step (.block List.nodup_nil)
  exact ⟨_, hblocks.step (scan_step rfl (by simp) (pollComputed).scanPending)⟩

lemma confirmed_reached : ∃ tr, PollRunFrom (service '4' []) history pending tr confirmed := by
  have hstart : PollRunFrom (service '4' []) history pending [] pending := .init rfl
  have hblock : PollRunFrom (service '4' []) history pending _ (pending.mine deposit) :=
    hstart.step (.block (List.nodup_singleton _))
  have hblocks : PollRunFrom (service '4' []) history pending _ ((pending.mine deposit).mine []) :=
    hblock.step (.block (List.nodup_singleton _))
  exact ⟨_, hblocks.step (scan_step rfl (by rintro _ ⟨⟩; decide) (pollComputed).scanConfirmed)⟩

/-- The user polls with the block of this height. -/
lemma pollsAs {db : Db Bytes} (height : ℕ) (h : db.users.get? "u" = some user ∧
    (db.depositAddresses.rows.map fun p => p.2.user) = [user]) :
    (service '4' []).PollsAs "u" (history.hashAt height) ⟨height + 1, height⟩ db user where
  known := ⟨"u", rfl, h.1⟩
  address := by
    have hmem : user ∈ db.depositAddresses.rows.map fun p => p.2.user := by
      rw [h.2]
      exact List.mem_singleton_self _
    exact List.mem_map.1 hmem
  hash := length_hashAt height
  time := Nat.succ_ne_zero height

lemma exists_row {db : Db Bytes} {status : IncomingBtcTxStatus} {height : Option ℕ}
    (h : rowOf db = some (some 1, status, height, 9)) :
    ∃ row, db.incomingBtcTxs.get? ExampleWallet.runeUtxo.outpoint = some row ∧
      row.user.map User.id = some user.id ∧ row.status = status ∧ row.blockNumber = height ∧
      row.time = 9 := by
  obtain ⟨row, hrow, hfacts⟩ := Option.map_eq_some_iff.1 h
  simp only [Prod.mk.injEq] at hfacts
  exact ⟨row, hrow, hfacts⟩

end ExampleNode

open ExampleNode in
/-- A deposit that was unconfirmed is shown on. -/
theorem shown_deposit_kept_iff_example :
    ∃ (tr : List (PollAction Bytes)) (s : ScanState Bytes),
      PollRunFrom (service '4' []) history pending tr s ∧
      (s.db.incomingBtcTxs.get? ExampleWallet.runeUtxo.outpoint).map IncomingBtcTx.status =
        some .accepted ∧
      (service '4' []).Shows getblock getblock "u" (history.hashAt 1) s.db
        ExampleWallet.runeUtxo.outpoint := by
  obtain ⟨tr, hpending⟩ := pending_reached
  obtain ⟨tr', hconfirmed⟩ := confirmed_reached
  have hinv := hpending.inv
  have hblocks : SeesBlocks history pending getblock := seesBlocks (by decide)
  have hblocks' : SeesBlocks history confirmed getblock := seesBlocks (by decide)
  obtain ⟨row, hrow, huser, hdetected, -, htime⟩ := exists_row (pollComputed).pendingRow
  have hshown : (service '4' []).Shows getblock getblock "u" (history.hashAt 1) pending.db
      ExampleWallet.runeUtxo.outpoint :=
    RuneBridgeService.shows_of_detected hinv.deposits (hblocks 1 (by decide))
      (hblocks 1 (by decide)) (pollsAs 1 ((pollComputed).users pending (by simp))) hrow huser
      hdetected (by rw [htime]; decide)
  refine ⟨tr', confirmed, hconfirmed, (pollComputed).status, ?_⟩
  refine (shown_deposit_kept_iff hpending hinv.cursor (.init rfl) hconfirmed hblocks hblocks
    hblocks' hblocks' hshown).2 fun T₀ hT₀ r hr _ _ => ?_
  obtain rfl : 2 = T₀ := Option.some.inj hT₀
  have hreceipts : confirmed.receipts = receiptsOf (some 3) := rfl
  rw [hreceipts] at hr
  obtain rfl := List.mem_singleton.1 hr
  exact ⟨⟨by decide, by decide⟩, 0, Option.isSome_iff_exists.1 (pollComputed).rune⟩

open ExampleNode in
/-- **A deposit that was shown vanishes.**  Two confirmations are needed, and the buffer is two
blocks.  A deposit is in block 1, the tip of the scan that stores block 0; it is shown to the user
who polls with block 0, until the scan at tip 2 accepts it. -/
theorem shown_deposit_vanishes :
    (service '4' []).config.btcMinConfirmations ≤ (service '4' []).config.btcListsinceblockBuffer ∧
    ∃ (tr tr' : List (PollAction Bytes)) (s s' : ScanState Bytes) (lastBlock : String),
      PollRun (service '4' []) history tr s ∧
      RuneBridgeService.getLastScannedBitcoinBlock s.db = some lastBlock ∧
      PollRunFrom (service '4' []) history s tr' s' ∧
      SeesBlocks history s getblock ∧ SeesBlocks history s' getblock ∧
      (service '4' []).Shows getblock getblock "u" lastBlock s.db ExampleWallet.runeUtxo.outpoint ∧
      ¬ (service '4' []).Shows getblock getblock "u" lastBlock s'.db
        ExampleWallet.runeUtxo.outpoint := by
  refine ⟨le_rfl, ?_⟩
  obtain ⟨tr, hseen⟩ := seen_reached
  obtain ⟨tr', haccepted⟩ := accepted_reached
  have hinv := hseen.inv
  have hinv' := (hinv.run haccepted).1
  have hblocks : SeesBlocks history seen getblock := seesBlocks (by decide)
  have hblocks' : SeesBlocks history accepted getblock := seesBlocks (by decide)
  refine ⟨tr, tr', seen, accepted, history.hashAt 0, hseen, hinv.cursor, haccepted, hblocks,
    hblocks', ?_, ?_⟩
  · obtain ⟨row, hrow, huser, hdetected, -, htime⟩ := exists_row (pollComputed).seenRow
    exact RuneBridgeService.shows_of_detected hinv.deposits (hblocks 0 (by decide))
      (hblocks 0 (by decide)) (pollsAs 0 ((pollComputed).users seen (by simp))) hrow huser
      hdetected (by rw [htime]; decide)
  · obtain ⟨row, hrow, huser, hstatus, hblock, -⟩ := exists_row (pollComputed).acceptedRow
    rw [RuneBridgeService.shows_iff_of_accepted hinv'.deposits (hblocks' 0 (by decide))
      (hblocks' 0 (by decide)) (pollsAs 0 ((pollComputed).users accepted (by simp))) hrow huser
      hstatus]
    rintro ⟨⟨n, hn, hbound⟩, -⟩
    rw [hblock, Option.some.injEq] at hn
    rw [← hn] at hbound
    exact absurd hbound (by decide)

end NbteBridge
