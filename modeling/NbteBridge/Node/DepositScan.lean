import NbteBridge.Foundations.Runs
import NbteBridge.Node.Reference
import NbteBridge.Node.ScanEffects

/-!
# Every deposit is counted once

Runs of a node that scans a growing chain: blocks arrive, deposit addresses are handed out, scans
succeed or fail, and between them the node goes on with the deposits it has.  After a successful
scan every output received at a known deposit address that has its confirmations is recorded, rune
by rune, in the amount `ord` reports, and has reached `ACCEPTED`; and no deposit reaches it
earlier.

The invariant is `ScanInv`.  Its core is the cursor: a scan at tip `T` stores the block at height
`T + 1 - buffer`, and an output in that block or below has at least `buffer` confirmations, so the
next scan, which asks for what lies above, passes over settled outputs only.
-/

namespace NbteBridge

open Checked Tables Runs

/-! ## The chain and the node -/

/-- An output the wallet received, in a block. -/
structure Receipt where
  outpoint : Outpoint
  address : String
  height : ℕ
  deriving DecidableEq

/-- Whether a deposit got to `ACCEPTED`, and maybe beyond. -/
def RuneDepositStatus.reachedAccepted : RuneDepositStatus → Bool
  | .detected => false
  | .rejected => false
  | _ => true

structure ScanState (Hash : Type) where
  db : Db Hash
  tip : ℕ
  receipts : List Receipt
  /-- The receipts at an address that was known when their block arrived. -/
  watched : List Receipt
  /-- The tip of the last successful scan. -/
  scanned : Option ℕ

/-- A block with these outputs in it arrives. -/
def ScanState.mine {Hash : Type} (s : ScanState Hash) (received : List (Outpoint × String)) :
    ScanState Hash :=
  let new := received.map fun o => ⟨o.1, o.2, s.tip + 1⟩
  { s with
    tip := s.tip + 1
    receipts := s.receipts ++ new
    watched := s.watched ++ new.filter fun o => (s.db.depositAddresses.get? o.address).isSome }

/-- The runes `ord` reports on an output. -/
abbrev ReportedRunes := Outpoint → List (String × RuneBalanceEntry)

section Environment

variable {Hash : Type} (hashAt : ℕ → String) (runesOf : ReportedRunes)

/-- What a scan can count on.  `listsinceblock` answers with the wallet's transactions that are
unconfirmed or in blocks above the given one, and with the block at height `tip + 1 - target`, and
it refuses a target of zero; `ord` has indexed the outputs at deposit addresses, but for those that
are gone, and reports the same runes every time. -/
structure SeesOutputs (gone : Outpoint → Prop) (s : ScanState Hash) (views : Views Hash) :
    Prop where
  target_pos : ∀ b k r, views.bitcoinRpc.listsinceblock b k = .ok r → 0 < k
  lastblock : ∀ b k r, views.bitcoinRpc.listsinceblock b k = .ok r →
    r.lastblock = hashAt (s.tip + 1 - k)
  listed : ∀ b k r, views.bitcoinRpc.listsinceblock b k = .ok r → ∀ tx ∈ r.transactions,
    tx.category = "receive" → 0 < tx.confirmations → ∃ o ∈ s.receipts,
      o.outpoint = ⟨tx.txid, tx.vout⟩ ∧ tx.address = some o.address ∧
      tx.confirmations = (s.tip : ℤ) + 1 - o.height
  complete : ∀ b k r, views.bitcoinRpc.listsinceblock b k = .ok r → ∀ o ∈ s.receipts,
    (b = "" ∨ ∃ height, b = hashAt height ∧ height < o.height) → ∃ tx ∈ r.transactions,
      tx.category = "receive" ∧ o.outpoint = ⟨tx.txid, tx.vout⟩ ∧ tx.address = some o.address ∧
      tx.confirmations = (s.tip : ℤ) + 1 - o.height
  indexed : ∀ o ∈ s.receipts, (s.db.depositAddresses.get? o.address).isSome = true →
    ¬ gone o.outpoint → ∀ response,
      views.ordClient.getOutput o.outpoint.txid o.outpoint.vout = .ok response →
        response.indexed = true
  reported : ∀ o ∈ s.receipts, (s.db.depositAddresses.get? o.address).isSome = true →
    ∀ response, views.ordClient.getOutput o.outpoint.txid o.outpoint.vout = .ok response →
      response.indexed = true → response.runes = runesOf o.outpoint

/-- And when all outputs are there. -/
abbrev SeesWallet (s : ScanState Hash) (views : Views Hash) : Prop :=
  SeesOutputs hashAt runesOf (fun _ => False) s views

/-- What the node does between scans, with the deposits it has: it never takes a status back to
`DETECTED`, and neither adds nor removes a row. -/
structure ProcessKept (db db' : Db Hash) : Prop where
  users : db'.users = db.users
  depositAddresses : db'.depositAddresses = db.depositAddresses
  lastScannedBlock : db'.lastScannedBlock = db.lastScannedBlock
  deposits : ∀ k row, db.runeDeposits.get? k = some row →
    ∃ row', db'.runeDeposits.get? k = some row' ∧
      row'.transferAmountRaw = row.transferAmountRaw ∧ (row'.status = row.status ∨
        (row.status.reachedAccepted = true ∧ row'.status.reachedAccepted = true))
  deposits_of : ∀ k row', db'.runeDeposits.get? k = some row' →
    ∃ row, db.runeDeposits.get? k = some row

end Environment

inductive ScanAction (Hash : Type)
  | block (received : List (Outpoint × String))
  | address (evmAddress : String)
  | scan (views : Views Hash)
  | failedScan
  | process (db' : Db Hash)

section Runs

variable {Hash : Type} (service : RuneBridgeService Hash) (hashAt : ℕ → String)
  (runesOf : ReportedRunes)

/-- The node starts with an empty database, on any chain. -/
structure ScanInit (s : ScanState Hash) : Prop where
  db : s.db = Db.empty
  nodup : (s.receipts.map Receipt.outpoint).Nodup
  height_le : ∀ o ∈ s.receipts, o.height ≤ s.tip
  watched : s.watched = []
  scanned : s.scanned = none

/-- A scan that raises, wherever it does, is rolled back. -/
inductive ScanStep : ScanState Hash → ScanAction Hash → ScanState Hash → Prop
  | block {s : ScanState Hash} {received : List (Outpoint × String)}
      (hnew : ((s.mine received).receipts.map Receipt.outpoint).Nodup) :
      ScanStep s (.block received) (s.mine received)
  | address {s : ScanState Hash} {evmAddress btcAddress : String} {db' : Db Hash}
      (h : service.generateDepositAddress evmAddress s.db = .ok (btcAddress, db')) :
      ScanStep s (.address evmAddress) { s with db := db' }
  | scan {s : ScanState Hash} {views : Views Hash} {n : ℕ} {db' : Db Hash}
      (hsees : SeesWallet hashAt runesOf s views)
      (h : service.scanRuneDeposits views s.db = .ok (n, db')) :
      ScanStep s (.scan views) { s with db := db', scanned := some s.tip }
  | failedScan {s : ScanState Hash} : ScanStep s .failedScan s
  | process {s : ScanState Hash} {db' : Db Hash} (h : ProcessKept s.db db') :
      ScanStep s (.process db') { s with db := db' }

abbrev ScanRun := Run (@ScanInit Hash) (ScanStep service hashAt runesOf)

end Runs

/-- What the wallet promises of the addresses it derives. -/
structure OrdMultisig.DerivesAddresses (ms : OrdMultisig) : Prop where
  injective : Function.Injective ms.deriveAddress
  ne_empty : ∀ index, ms.deriveAddress index ≠ ""
  change : ms.changeAddress = ms.deriveAddress 0

/-! ## Rows and outputs -/

section Accounted

variable {Hash : Type} (confirmations : ℕ) (receipts : List Receipt) (runesOf : ReportedRunes)
  (T : ℕ)

/-- A row is of an output in a block, in a rune reported on it and in the amount reported, and it
reached `ACCEPTED` only with the confirmations. -/
structure AccountedBy (o : Receipt) (k : RuneDepositKey) (row : RuneDeposit Hash) : Prop where
  outpoint : o.outpoint = ⟨k.txId, k.vout⟩
  height_le : o.height ≤ T
  ne_rejected : row.status ≠ .rejected
  matured : row.status.reachedAccepted = true → confirmations + o.height ≤ T + 1
  reported : ∃ e ∈ runesOf o.outpoint, ∃ rune, runeFromStr e.1 = .ok rune ∧
    rune.n = k.runeNumber ∧ row.transferAmountRaw = e.2.amount

/-- All rows are accounted for at tip `T`. -/
def Accounted (db : Db Hash) : Prop :=
  ∀ k row, db.runeDeposits.get? k = some row →
    ∃ o ∈ receipts, AccountedBy confirmations runesOf T o k row

/-- The rows of an output are there, and past `ACCEPTED` if it has the confirmations. -/
def Recorded (db : Db Hash) (o : Receipt) : Prop :=
  ∀ e ∈ runesOf o.outpoint, ∃ rune row, runeFromStr e.1 = .ok rune ∧
    db.runeDeposits.get? ⟨o.outpoint.txid, o.outpoint.vout, rune.n⟩ = some row ∧
    (confirmations + o.height ≤ T + 1 → row.status.reachedAccepted = true)

/-- The rows of an output are there, and past `ACCEPTED`. -/
def Reached (db : Db Hash) (o : Receipt) : Prop :=
  ∀ e ∈ runesOf o.outpoint, ∃ rune row, runeFromStr e.1 = .ok rune ∧
    db.runeDeposits.get? ⟨o.outpoint.txid, o.outpoint.vout, rune.n⟩ = some row ∧
    row.status.reachedAccepted = true

end Accounted

section Rows

variable {Hash : Type} {confirmations : ℕ} {receipts : List Receipt} {runesOf : ReportedRunes}
  {T T' : ℕ} {db db' : Db Hash} {o : Receipt}

lemma AccountedBy.mono {k : RuneDepositKey} {row : RuneDeposit Hash} (hle : T ≤ T')
    (h : AccountedBy confirmations runesOf T o k row) :
    AccountedBy confirmations runesOf T' o k row where
  outpoint := h.outpoint
  height_le := h.height_le.trans hle
  ne_rejected := h.ne_rejected
  matured hreached := (h.matured hreached).trans (by omega)
  reported := h.reported

lemma Accounted.mono (hle : T ≤ T') (h : Accounted confirmations receipts runesOf T db) :
    Accounted confirmations receipts runesOf T' db := by
  intro k row hrow
  obtain ⟨o, ho, hby⟩ := h k row hrow
  exact ⟨o, ho, hby.mono hle⟩

lemma reachedAccepted_of_scanForward {s s' : RuneDepositStatus} (h : s.ScanForward s')
    (hreached : s.reachedAccepted = true) : s'.reachedAccepted = true := by
  rcases h with rfl | ⟨rfl, -⟩
  · exact hreached
  · exact absurd hreached (by decide)

lemma Reached.recorded (h : Reached runesOf db o) : Recorded confirmations runesOf T db o := by
  intro e he
  obtain ⟨rune, row, hrune, hrow, hreached⟩ := h e he
  exact ⟨rune, row, hrune, hrow, fun _ => hreached⟩

/-- What is recorded stays recorded. -/
lemma Recorded.of_scanKept (h : Recorded confirmations runesOf T db o) (hkept : ScanKept db db') :
    Recorded confirmations runesOf T db' o := by
  intro e he
  obtain ⟨rune, row, hrune, hrow, hreached⟩ := h e he
  obtain ⟨row', hrow', hkept'⟩ := hkept.deposits _ row hrow
  exact ⟨rune, row', hrune, hrow', fun hmature =>
    reachedAccepted_of_scanForward hkept'.status (hreached hmature)⟩

end Rows

/-! ## What indexing records -/

namespace RuneBridgeService

variable {Hash : Type} {service : RuneBridgeService Hash} {receipts : List Receipt}
  {runesOf : ReportedRunes} {T : ℕ} {db db' : Db Hash} {o : Receipt}

/-- A wallet transaction is what the chain says of an output at tip `T`. -/
structure TxOf (T : ℕ) (o : Receipt) (tx : WalletTransaction) : Prop where
  outpoint : o.outpoint = ⟨tx.txid, tx.vout⟩
  height_le : o.height ≤ T
  confirmations : tx.confirmations = (T : ℤ) + 1 - o.height

lemma TxOf.mature_iff {tx : WalletTransaction} (h : TxOf T o tx) (confirmations : ℕ) :
    (confirmations : ℤ) ≤ tx.confirmations ↔ confirmations + o.height ≤ T + 1 := by
  rw [h.confirmations]
  omega

/-- A status moved from `DETECTED` under a condition that holds of it if it is past. -/
lemma reachedAccepted_moved {s : RuneDepositStatus} {mature : Prop} [Decidable mature]
    (hrejected : s ≠ .rejected) (hreached : s.reachedAccepted = true → mature) :
    (if mature ∧ s = .detected then RuneDepositStatus.accepted else s) ≠ .rejected ∧
      ((if mature ∧ s = .detected then RuneDepositStatus.accepted else s).reachedAccepted = true ↔
        mature) := by
  by_cases hmature : mature
  · cases s <;> simp_all [RuneDepositStatus.reachedAccepted]
  · have hnot : ¬ s.reachedAccepted = true := fun h => hmature (hreached h)
    simp [hmature, hrejected, hnot]

/-- The status a scan writes: past `DETECTED` exactly if the output is mature. -/
lemma status_updateRuneDeposit (service : RuneBridgeService Hash) {tx : WalletTransaction}
    (blockheight : ℕ) (user : User) (postage : ℕ) (rune : RuneRow) (balance : RuneBalanceEntry)
    {row : Option (RuneDeposit Hash)} (htx : TxOf T o tx)
    (hold : ∀ old, row = some old → old.status ≠ .rejected ∧
      (old.status.reachedAccepted = true → service.config.btcMinConfirmations + o.height ≤ T + 1)) :
    let new := service.updateRuneDeposit tx blockheight user postage rune balance row
    new.status ≠ .rejected ∧
      (new.status.reachedAccepted = true ↔
        service.config.btcMinConfirmations + o.height ≤ T + 1) := by
  have hmature := htx.mature_iff service.config.btcMinConfirmations
  rw [← hmature] at hold ⊢
  refine reachedAccepted_moved ?_ ?_
  · cases row with
    | none => exact fun h => RuneDepositStatus.noConfusion h
    | some old => exact (hold old rfl).1
  · cases row with
    | none => exact fun h => Bool.noConfusion h
    | some old => exact (hold old rfl).2

/-- One rune of an output: its row is recorded, and all rows stay accounted for. -/
lemma indexRuneDeposit_accounted {tx : WalletTransaction} {user : User} {postage : ℕ}
    {entry : String × RuneBalanceEntry} (hnodup : (receipts.map Receipt.outpoint).Nodup)
    (ho : o ∈ receipts) (htx : TxOf T o tx) (hentry : entry ∈ runesOf o.outpoint)
    (hdb : Accounted service.config.btcMinConfirmations receipts runesOf T db)
    (h : service.indexRuneDeposit tx user postage entry db = .ok db') :
    Accounted service.config.btcMinConfirmations receipts runesOf T db' ∧
      ∃ rune row, runeFromStr entry.1 = .ok rune ∧
        db'.runeDeposits.get? ⟨o.outpoint.txid, o.outpoint.vout, rune.n⟩ = some row ∧
        (service.config.btcMinConfirmations + o.height ≤ T + 1 →
          row.status.reachedAccepted = true) := by
  obtain ⟨rune, runeRow, blockheight, hrune, -, -, rfl⟩ := indexRuneDeposit_ok h
  have hold : ∀ old, db.runeDeposits.get? ⟨tx.txid, tx.vout, rune.n⟩ = some old →
      old.status ≠ .rejected ∧ (old.status.reachedAccepted = true →
        service.config.btcMinConfirmations + o.height ≤ T + 1) := by
    intro old hrow
    obtain ⟨o', ho', hby⟩ := hdb _ old hrow
    obtain rfl : o' = o :=
      List.inj_on_of_nodup_map hnodup ho' ho (hby.outpoint.trans htx.outpoint.symm)
    exact ⟨hby.ne_rejected, hby.matured⟩
  obtain ⟨hrejected, hreached⟩ :=
    status_updateRuneDeposit service blockheight user postage runeRow entry.2 htx hold
  refine ⟨fun k row hrow => ?_, rune, _, hrune, ?_, hreached.2⟩
  · rw [Db.setRuneDeposit, Table.get?_set] at hrow
    by_cases hk : k = ⟨tx.txid, tx.vout, rune.n⟩
    · rw [if_pos hk] at hrow
      obtain rfl := Option.some.inj hrow
      subst hk
      exact ⟨o, ho, htx.outpoint, htx.height_le, hrejected, hreached.1, entry, hentry, rune, hrune,
        rfl, rfl⟩
    · rw [if_neg hk] at hrow
      exact hdb k row hrow
  · rw [Db.setRuneDeposit, Table.get?_set, htx.outpoint, if_pos rfl]

/-- The runes of an output. -/
lemma indexRuneDeposits_accounted {tx : WalletTransaction} {user : User} {postage : ℕ}
    {entries : List (String × RuneBalanceEntry)} (hnodup : (receipts.map Receipt.outpoint).Nodup)
    (ho : o ∈ receipts) (htx : TxOf T o tx) (hentries : ∀ e ∈ entries, e ∈ runesOf o.outpoint)
    (hdb : Accounted service.config.btcMinConfirmations receipts runesOf T db)
    (h : service.indexRuneDeposits tx user postage entries db = .ok db') :
    Accounted service.config.btcMinConfirmations receipts runesOf T db' ∧
      ∀ e ∈ entries, ∃ rune row, runeFromStr e.1 = .ok rune ∧
        db'.runeDeposits.get? ⟨o.outpoint.txid, o.outpoint.vout, rune.n⟩ = some row ∧
        (service.config.btcMinConfirmations + o.height ≤ T + 1 →
          row.status.reachedAccepted = true) := by
  induction entries generalizing db with
  | nil =>
      obtain rfl := pure_eq_ok.1 h
      exact ⟨hdb, by simp⟩
  | cons entry entries ih =>
      simp only [indexRuneDeposits, bind_eq_ok] at h
      obtain ⟨db₁, hentry, hrest⟩ := h
      obtain ⟨hdb₁, rune, row, hrune, hrow, hreached⟩ :=
        indexRuneDeposit_accounted hnodup ho htx (hentries entry (by simp)) hdb hentry
      obtain ⟨hdb', hall⟩ := ih (fun e he => hentries e (by simp [he])) hdb₁ hrest
      refine ⟨hdb', fun e he => ?_⟩
      rcases List.mem_cons.1 he with rfl | he
      · obtain ⟨row', hrow', hkept⟩ := (indexRuneDeposits_kept hrest).deposits _ row hrow
        exact ⟨rune, row', hrune, hrow', fun hmature =>
          reachedAccepted_of_scanForward hkept.status (hreached hmature)⟩
      · exact hall e he

/-- The output read for a wallet transaction is that of a receipt, with the runes reported on it if
its address is known. -/
def Genuine (receipts : List Receipt) (runesOf : ReportedRunes) (T : ℕ)
    (addresses : Table String DepositAddress) (scanned : ScannedTx) : Prop :=
  ∀ response, scanned.ordOutput = some response → ∃ o ∈ receipts, TxOf T o scanned.tx ∧
    scanned.tx.address = some o.address ∧
    ((addresses.get? o.address).isSome = true → response.runes = runesOf o.outpoint)

lemma indexTx_accounted {scanned : ScannedTx} {n : ℕ}
    (hnodup : (receipts.map Receipt.outpoint).Nodup)
    (hgenuine : Genuine receipts runesOf T db.depositAddresses scanned)
    (hdb : Accounted service.config.btcMinConfirmations receipts runesOf T db)
    (h : service.indexTx scanned db = .ok (n, db')) :
    Accounted service.config.btcMinConfirmations receipts runesOf T db' ∧
      ∀ response, scanned.ordOutput = some response → ∀ o ∈ receipts, TxOf T o scanned.tx →
        (db.depositAddresses.get? o.address).isSome = true →
        Recorded service.config.btcMinConfirmations runesOf T db' o := by
  obtain ⟨db₁, hkept, hdeposits, -, hcase⟩ := indexTx_ok h
  have hdb₁ : Accounted service.config.btcMinConfirmations receipts runesOf T db₁ := by
    intro k row hrow
    exact hdb k row (hdeposits ▸ hrow)
  rcases hcase with ⟨row, ordOutput, haddress, hout, hindex⟩ | ⟨rfl, hnone⟩
  · obtain ⟨o, ho, htx, hoaddress, hruns⟩ := hgenuine ordOutput hout
    have hknown : db.depositAddresses.get? o.address = some row := by
      rw [hoaddress] at haddress
      exact haddress
    have hruns' := hruns (by rw [hknown]; rfl)
    obtain ⟨hdb', hall⟩ := indexRuneDeposits_accounted hnodup ho htx
      (fun e he => hruns' ▸ he) hdb₁ hindex
    refine ⟨hdb', fun response _ o' ho' htx' _ e he => ?_⟩
    obtain rfl : o' = o :=
      List.inj_on_of_nodup_map hnodup ho' ho (htx'.outpoint.trans htx.outpoint.symm)
    exact hall e (hruns' ▸ he)
  · refine ⟨hdb₁, fun response hresponse o ho htx hknown => ?_⟩
    obtain ⟨o', ho', htx', haddress, -⟩ := hgenuine response hresponse
    obtain rfl : o = o' :=
      List.inj_on_of_nodup_map hnodup ho ho' (htx.outpoint.trans htx'.outpoint.symm)
    rcases hnone with hnone | hnone
    · rw [hnone] at hresponse
      exact absurd hresponse (by simp)
    · rw [haddress, Option.getD_some] at hnone
      rw [hnone] at hknown
      exact absurd hknown (by simp)

/-- The loop over the wallet's transactions. -/
lemma indexTxs_accounted {txs : List ScannedTx} {n : ℕ}
    (hnodup : (receipts.map Receipt.outpoint).Nodup)
    (hgenuine : ∀ scanned ∈ txs, Genuine receipts runesOf T db.depositAddresses scanned)
    (hdb : Accounted service.config.btcMinConfirmations receipts runesOf T db)
    (h : service.indexTxs txs db = .ok (n, db')) :
    Accounted service.config.btcMinConfirmations receipts runesOf T db' ∧
      ∀ scanned ∈ txs, ∀ response, scanned.ordOutput = some response → ∀ o ∈ receipts,
        TxOf T o scanned.tx → (db.depositAddresses.get? o.address).isSome = true →
        Recorded service.config.btcMinConfirmations runesOf T db' o := by
  induction txs generalizing db n with
  | nil =>
      obtain ⟨-, rfl⟩ := Prod.mk.inj (pure_eq_ok.1 h)
      exact ⟨hdb, by simp⟩
  | cons scanned txs ih =>
      simp only [indexTxs, bind_eq_ok, pure_eq_ok] at h
      obtain ⟨⟨n₁, db₁⟩, htx, ⟨n₂, db₂⟩, hrest, heq⟩ := h
      obtain ⟨-, rfl⟩ := Prod.mk.inj heq
      obtain ⟨hdb₁, hfirst⟩ := indexTx_accounted hnodup (hgenuine scanned (by simp)) hdb htx
      have haddresses := (indexTx_kept htx).depositAddresses
      obtain ⟨hdb', hall⟩ := ih
        (fun s hs => haddresses ▸ hgenuine s (by simp [hs])) hdb₁ hrest
      refine ⟨hdb', fun s hs response hresponse o ho hof hknown => ?_⟩
      rcases List.mem_cons.1 hs with rfl | hs
      · exact (hfirst response hresponse o ho hof hknown).of_scanKept (indexTxs_kept hrest)
      · exact hall s hs response hresponse o ho hof (haddresses ▸ hknown)

/-! ## What fetching reads -/

variable {views : Views Hash}

lemma fetchOrdOutput_ok {tx : WalletTransaction} {scanned : ScannedTx} {names : List String}
    (h : fetchOrdOutput views tx = .ok (scanned, names)) :
    scanned.tx = tx ∧
      (∀ response, scanned.ordOutput = some response → 0 < tx.confirmations ∧
        views.ordClient.getOutput tx.txid tx.vout = .ok response ∧ response.indexed = true) ∧
      (0 < tx.confirmations →
        (∀ response, views.ordClient.getOutput tx.txid tx.vout = .ok response →
          response.indexed = true) → ∃ response, scanned.ordOutput = some response) := by
  unfold fetchOrdOutput at h
  by_cases hconf : 0 < tx.confirmations
  · rw [if_pos hconf] at h
    simp only [bind_eq_ok] at h
    obtain ⟨response, hresponse, h⟩ := h
    by_cases hindexed : response.indexed = true
    · rw [if_pos hindexed] at h
      obtain ⟨rfl, -⟩ := Prod.mk.inj (pure_eq_ok.1 h)
      refine ⟨rfl, fun response' heq => ?_, fun _ _ => ⟨response, rfl⟩⟩
      obtain rfl := Option.some.inj heq
      exact ⟨hconf, hresponse, hindexed⟩
    · rw [if_neg hindexed] at h
      by_cases hspent : response.spent = true
      · rw [if_pos hspent] at h
        obtain ⟨rfl, -⟩ := Prod.mk.inj (pure_eq_ok.1 h)
        exact ⟨rfl, fun response' heq => absurd heq (by simp), fun _ hall =>
          absurd (hall response hresponse) hindexed⟩
      · rw [if_neg hspent] at h
        exact absurd h (by simp)
  · rw [if_neg hconf] at h
    obtain ⟨rfl, -⟩ := Prod.mk.inj (pure_eq_ok.1 h)
    exact ⟨rfl, fun response' heq => absurd heq (by simp), fun h => absurd h hconf⟩

/-- Every deposit among the transactions is read, and nothing else. -/
lemma fetchOrdOutputs_ok {txs : List WalletTransaction} {scanned : List ScannedTx}
    {names : List String} (h : service.fetchOrdOutputs views txs = .ok (scanned, names)) :
    (∀ s ∈ scanned, s.tx ∈ txs ∧ service.isDeposit s.tx = true ∧
      ∃ names, fetchOrdOutput views s.tx = .ok (s, names)) ∧
    ∀ tx ∈ txs, service.isDeposit tx = true → ∃ s ∈ scanned, s.tx = tx := by
  induction txs generalizing scanned names with
  | nil =>
      obtain ⟨rfl, -⟩ := Prod.mk.inj (pure_eq_ok.1 h)
      exact ⟨by simp, by simp⟩
  | cons tx txs ih =>
      unfold fetchOrdOutputs at h
      by_cases hdeposit : service.isDeposit tx = true
      · rw [if_pos hdeposit] at h
        simp only [bind_eq_ok, pure_eq_ok] at h
        obtain ⟨⟨s, sNames⟩, hs, ⟨rest, restNames⟩, hrest, heq⟩ := h
        obtain ⟨rfl, -⟩ := Prod.mk.inj heq
        obtain ⟨hall, hcover⟩ := ih hrest
        have htx : s.tx = tx := (fetchOrdOutput_ok hs).1
        constructor
        · intro s' hs'
          rcases List.mem_cons.1 hs' with rfl | hs'
          · rw [htx]
            exact ⟨by simp, hdeposit, sNames, hs⟩
          · obtain ⟨hmem, hrest⟩ := hall s' hs'
            exact ⟨by simp [hmem], hrest⟩
        · intro tx' htx' hdeposit'
          rcases List.mem_cons.1 htx' with rfl | htx'
          · exact ⟨s, by simp, htx⟩
          · obtain ⟨s', hs', heq⟩ := hcover tx' htx' hdeposit'
            exact ⟨s', by simp [hs'], heq⟩
      · rw [if_neg hdeposit] at h
        obtain ⟨hall, hcover⟩ := ih h
        constructor
        · intro s hs
          obtain ⟨hmem, hrest⟩ := hall s hs
          exact ⟨by simp [hmem], hrest⟩
        · intro tx' htx' hdeposit'
          rcases List.mem_cons.1 htx' with rfl | htx'
          · exact absurd hdeposit' hdeposit
          · exact hcover tx' htx' hdeposit'

/-! ## What a scan records -/

variable {hashAt : ℕ → String} {gone : Outpoint → Prop} {s : ScanState Hash}

/-- The outputs a scan reads are those of the chain. -/
lemma genuine_of_fetchOrdOutputs (hsees : SeesOutputs hashAt runesOf gone s views)
    (hheight : ∀ o ∈ s.receipts, o.height ≤ s.tip) {b : String} {k : ℕ} {r : ListSinceBlock}
    (hr : views.bitcoinRpc.listsinceblock b k = .ok r) {scanned : List ScannedTx}
    {names : List String}
    (h : service.fetchOrdOutputs views r.transactions = .ok (scanned, names)) :
    ∀ t ∈ scanned, Genuine s.receipts runesOf s.tip s.db.depositAddresses t := by
  intro t ht response hresponse
  obtain ⟨hmem, hdeposit, names, hfetch⟩ := (fetchOrdOutputs_ok h).1 t ht
  obtain ⟨hpos, houtput, hindexed⟩ := (fetchOrdOutput_ok hfetch).2.1 response hresponse
  simp only [isDeposit, ne_eq, decide_eq_true_eq] at hdeposit
  obtain ⟨o, ho, houtpoint, haddress, hconf⟩ := hsees.listed b k r hr t.tx hmem hdeposit.1 hpos
  refine ⟨o, ho, ⟨houtpoint, hheight o ho, hconf⟩, haddress, fun hknown => ?_⟩
  refine hsees.reported o ho hknown response ?_ hindexed
  rw [houtpoint]
  exact houtput

/-- **What a successful scan records**: the outputs above the stored block, at their addresses, but
for those that may be gone. -/
theorem scanRuneDeposits_recorded (hsees : SeesOutputs hashAt runesOf gone s views)
    (hnodup : (s.receipts.map Receipt.outpoint).Nodup)
    (hheight : ∀ o ∈ s.receipts, o.height ≤ s.tip)
    (hdb : Accounted service.config.btcMinConfirmations s.receipts runesOf s.tip s.db) {n : ℕ}
    (h : service.scanRuneDeposits views s.db = .ok (n, db')) :
    (0 < service.config.btcListsinceblockBuffer ∧
      service.config.btcMinConfirmations ≤ service.config.btcListsinceblockBuffer) ∧
    db'.lastScannedBlock =
      some (hashAt (s.tip + 1 - service.config.btcListsinceblockBuffer)) ∧
    Accounted service.config.btcMinConfirmations s.receipts runesOf s.tip db' ∧
    ∀ o ∈ s.receipts, (s.db.depositAddresses.get? o.address).isSome = true → o.address ≠ "" →
      o.address ≠ service.ordMultisig.changeAddress →
      (s.db.lastScannedBlock = none ∨
        ∃ height, s.db.lastScannedBlock = some (hashAt height) ∧ height < o.height) →
      ¬ gone o.outpoint → Recorded service.config.btcMinConfirmations runesOf s.tip db' o := by
  obtain ⟨response, scanned, names, runes, db₁, m, hbuffer, hresponse, hscanned, htxs, rfl⟩ :=
    scanRuneDeposits_ok h
  have hgenuine := genuine_of_fetchOrdOutputs hsees hheight hresponse hscanned
  generalize hrunes : ({ s.db with runes := runes } : Db Hash) = db₀ at htxs
  have haddresses : db₀.depositAddresses = s.db.depositAddresses := by rw [← hrunes]
  have hdb₀ : Accounted service.config.btcMinConfirmations s.receipts runesOf s.tip db₀ := by
    rw [← hrunes]
    exact hdb
  rw [← haddresses] at hgenuine
  obtain ⟨haccounted, hrecorded⟩ := indexTxs_accounted hnodup hgenuine hdb₀ htxs
  refine ⟨⟨hsees.target_pos _ _ _ hresponse, hbuffer⟩,
    congrArg some (hsees.lastblock _ _ _ hresponse), haccounted, ?_⟩
  intro o ho hknown hne hchange hcursor hthere
  obtain ⟨tx, htx, hreceive, houtpoint, haddress, hconf⟩ :=
    hsees.complete _ _ _ hresponse o ho <| by
      rcases hcursor with hnone | ⟨height, hsome, hlt⟩
      · left
        rw [hnone]
        rfl
      · right
        exact ⟨height, by rw [hsome]; rfl, hlt⟩
  have hdeposit : service.isDeposit tx = true := by
    simp [isDeposit, hreceive, haddress, hne, hchange]
  obtain ⟨t, ht, rfl⟩ := (fetchOrdOutputs_ok hscanned).2 tx htx hdeposit
  obtain ⟨-, -, names, hfetch⟩ := (fetchOrdOutputs_ok hscanned).1 t ht
  have hle := hheight o ho
  obtain ⟨output, houtput⟩ := (fetchOrdOutput_ok hfetch).2.2 (by omega) fun response' hget =>
    hsees.indexed o ho hknown hthere response' (by rw [houtpoint]; exact hget)
  exact hrecorded t ht output houtput o ho ⟨houtpoint, hle, hconf⟩ (haddresses ▸ hknown)

end RuneBridgeService

/-! ## The invariant -/

section Invariant

variable {Hash : Type} {service : RuneBridgeService Hash} {hashAt : ℕ → String}
  {runesOf : ReportedRunes}

/-- What holds in every state of a run. -/
structure ScanInv (service : RuneBridgeService Hash) (hashAt : ℕ → String)
    (runesOf : ReportedRunes) (s : ScanState Hash) : Prop where
  nodup : (s.receipts.map Receipt.outpoint).Nodup
  height_le : ∀ o ∈ s.receipts, o.height ≤ s.tip
  watched : ∀ o ∈ s.watched, o ∈ s.receipts ∧ 0 < o.height ∧
    (s.db.depositAddresses.get? o.address).isSome = true
  users : ∀ e user, s.db.users.get? e = some user → 0 < user.id
  derived : ∀ a row, s.db.depositAddresses.get? a = some row →
    ∃ index, 0 < index ∧ a = service.ordMultisig.deriveAddress index
  cursor : s.db.lastScannedBlock =
    s.scanned.map fun T => hashAt (T + 1 - service.config.btcListsinceblockBuffer)
  scanned : ∀ T, s.scanned = some T → T ≤ s.tip ∧ 0 < service.config.btcListsinceblockBuffer ∧
    service.config.btcMinConfirmations ≤ service.config.btcListsinceblockBuffer
  unscanned : s.scanned = none → ∀ k, s.db.runeDeposits.get? k = none
  accounted : ∀ T, s.scanned = some T →
    Accounted service.config.btcMinConfirmations s.receipts runesOf T s.db
  recorded : ∀ T, s.scanned = some T → ∀ o ∈ s.watched, o.height ≤ T →
    Recorded service.config.btcMinConfirmations runesOf T s.db o

lemma ScanInit.inv {s : ScanState Hash} (h : ScanInit s) : ScanInv service hashAt runesOf s where
  nodup := h.nodup
  height_le := h.height_le
  watched o ho := by
    rw [h.watched] at ho
    exact absurd ho (by simp)
  users e user huser := by
    rw [h.db] at huser
    exact absurd huser (by simp [Db.empty])
  derived a row hrow := by
    rw [h.db] at hrow
    exact absurd hrow (by simp [Db.empty])
  cursor := by rw [h.db, h.scanned]; rfl
  scanned T hT := by
    rw [h.scanned] at hT
    exact absurd hT (by simp)
  unscanned _ k := by rw [h.db]; rfl
  accounted T hT := by
    rw [h.scanned] at hT
    exact absurd hT (by simp)
  recorded T hT := by
    rw [h.scanned] at hT
    exact absurd hT (by simp)

/-! ## Its preservation -/

variable {s s' : ScanState Hash}

lemma getOrAddUser_ok {db : Db Hash} (evmAddress : String)
    (h : ∀ e user, db.users.get? e = some user → 0 < user.id) :
    let added := RuneBridgeService.getOrAddUser evmAddress db
    0 < added.1.id ∧ (∀ e user, added.2.users.get? e = some user → 0 < user.id) ∧
      added.2.runeDeposits = db.runeDeposits ∧
      added.2.lastScannedBlock = db.lastScannedBlock ∧
      added.2.depositAddresses = db.depositAddresses := by
  unfold RuneBridgeService.getOrAddUser
  cases hold : db.users.get? evmAddress with
  | some user => exact ⟨h _ user hold, h, rfl, rfl, rfl⟩
  | none =>
      refine ⟨Nat.succ_pos _, fun e user huser => ?_, rfl, rfl, rfl⟩
      simp only [Table.get?_set] at huser
      split at huser
      · rw [← Option.some.inj huser]
        exact Nat.succ_pos _
      · exact h e user huser

/-- Handing out an address adds a user or an address, and touches nothing else. -/
lemma generateDepositAddress_ok {db db' : Db Hash} {evmAddress btcAddress : String}
    (h : service.generateDepositAddress evmAddress db = .ok (btcAddress, db'))
    (husers : ∀ e user, db.users.get? e = some user → 0 < user.id) :
    (∀ e user, db'.users.get? e = some user → 0 < user.id) ∧
    db'.runeDeposits = db.runeDeposits ∧ db'.lastScannedBlock = db.lastScannedBlock ∧
    (∀ a row, db.depositAddresses.get? a = some row → db'.depositAddresses.get? a = some row) ∧
    ∀ a row, db'.depositAddresses.get? a = some row → db.depositAddresses.get? a = some row ∨
      ∃ index, 0 < index ∧ a = service.ordMultisig.deriveAddress index := by
  simp only [RuneBridgeService.generateDepositAddress, bind_eq_ok] at h
  obtain ⟨evmAddress', -, h⟩ := h
  obtain ⟨hpos, husers', hdeposits, hcursor, haddresses⟩ := getOrAddUser_ok evmAddress' husers
  split at h
  · obtain ⟨-, rfl⟩ := Prod.mk.inj (pure_eq_ok.1 h)
    rw [haddresses]
    exact ⟨husers', hdeposits, hcursor, fun a row hrow => hrow, fun a row hrow => .inl hrow⟩
  · simp only [bind_eq_ok, exists_unit, require_eq_ok, pure_eq_ok] at h
    obtain ⟨hnew, heq⟩ := h
    obtain ⟨-, rfl⟩ := Prod.mk.inj heq
    rw [haddresses] at hnew ⊢
    refine ⟨husers', hdeposits, hcursor, fun a row hrow => ?_, fun a row hrow => ?_⟩
    · rw [Table.get?_set]
      by_cases ha : a = service.ordMultisig.deriveAddress
          (RuneBridgeService.getOrAddUser evmAddress' db).1.id
      · rw [ha, hnew] at hrow
        exact absurd hrow (by simp)
      · rw [if_neg ha]
        exact hrow
    · rw [Table.get?_set] at hrow
      by_cases ha : a = service.ordMultisig.deriveAddress
          (RuneBridgeService.getOrAddUser evmAddress' db).1.id
      · exact .inr ⟨_, hpos, ha⟩
      · rw [if_neg ha] at hrow
        exact .inl hrow

lemma ScanInv.block {received : List (Outpoint × String)} (h : ScanInv service hashAt runesOf s)
    (hnew : ((s.mine received).receipts.map Receipt.outpoint).Nodup) :
    ScanInv service hashAt runesOf (s.mine received) where
  nodup := hnew
  height_le o ho := by
    rcases List.mem_append.1 ho with ho | ho
    · exact (h.height_le o ho).trans (Nat.le_succ _)
    · obtain ⟨p, -, rfl⟩ := List.mem_map.1 ho
      exact le_rfl
  watched o ho := by
    rcases List.mem_append.1 ho with ho | ho
    · obtain ⟨hmem, hpos, hknown⟩ := h.watched o ho
      exact ⟨List.mem_append_left _ hmem, hpos, hknown⟩
    · obtain ⟨hmem, hknown⟩ := List.mem_filter.1 ho
      refine ⟨List.mem_append_right _ hmem, ?_, hknown⟩
      obtain ⟨p, -, rfl⟩ := List.mem_map.1 hmem
      exact Nat.succ_pos _
  users := h.users
  derived := h.derived
  cursor := h.cursor
  scanned T hT := ⟨(h.scanned T hT).1.trans (Nat.le_succ _), (h.scanned T hT).2⟩
  unscanned := h.unscanned
  accounted T hT k row hrow := by
    obtain ⟨o, ho, hby⟩ := h.accounted T hT k row hrow
    exact ⟨o, List.mem_append_left _ ho, hby⟩
  recorded T hT o ho hle := by
    rcases List.mem_append.1 ho with ho | ho
    · exact h.recorded T hT o ho hle
    · obtain ⟨p, -, rfl⟩ := List.mem_map.1 (List.mem_filter.1 ho).1
      have hT' := (h.scanned T hT).1
      simp only at hle
      omega

lemma ScanInv.address {evmAddress btcAddress : String} {db' : Db Hash}
    (h : ScanInv service hashAt runesOf s)
    (hstep : service.generateDepositAddress evmAddress s.db = .ok (btcAddress, db')) :
    ScanInv service hashAt runesOf { s with db := db' } := by
  obtain ⟨husers, hdeposits, hcursor, hkept, hnew⟩ := generateDepositAddress_ok hstep h.users
  refine ⟨h.nodup, h.height_le, fun o ho => ?_, husers, fun a row hrow => ?_, ?_, h.scanned,
    fun hnone k => ?_, fun T hT k row hrow => ?_, fun T hT o ho hle e he => ?_⟩
  · obtain ⟨hmem, hpos, hknown⟩ := h.watched o ho
    obtain ⟨row, hrow⟩ := Option.isSome_iff_exists.1 hknown
    exact ⟨hmem, hpos, by rw [hkept _ row hrow]; rfl⟩
  · rcases hnew a row hrow with hold | hderived
    · exact h.derived a row hold
    · exact hderived
  · exact hcursor.trans h.cursor
  · exact hdeposits ▸ h.unscanned hnone k
  · exact h.accounted T hT k row (hdeposits ▸ hrow)
  · obtain ⟨rune, row, hrune, hrow, hreached⟩ := h.recorded T hT o ho hle e he
    exact ⟨rune, row, hrune, hdeposits ▸ hrow, hreached⟩

/-- The cursor lies below every output that is not settled yet. -/
lemma ScanInv.settled_or_above (h : ScanInv service hashAt runesOf s) {o : Receipt}
    (ho : o ∈ s.watched) :
    (∃ T, s.scanned = some T ∧ o.height ≤ T ∧
      service.config.btcMinConfirmations + o.height ≤ T + 1) ∨
    (s.db.lastScannedBlock = none ∨
      ∃ height, s.db.lastScannedBlock = some (hashAt height) ∧ height < o.height) := by
  cases hT : s.scanned with
  | none =>
      right
      left
      rw [h.cursor, hT]
      rfl
  | some T =>
      have hpos := (h.watched o ho).2.1
      obtain ⟨-, hbuffer, hconf⟩ := h.scanned T hT
      by_cases habove : T + 1 - service.config.btcListsinceblockBuffer < o.height
      · right
        right
        exact ⟨_, by rw [h.cursor, hT]; rfl, habove⟩
      · left
        exact ⟨T, rfl, by omega, by omega⟩

/-- A scan, when all outputs that may be gone were recorded before. -/
lemma ScanInv.scan {views : Views Hash} {n : ℕ} {db' : Db Hash} {gone : Outpoint → Prop}
    (hms : service.ordMultisig.DerivesAddresses) (h : ScanInv service hashAt runesOf s)
    (hsees : SeesOutputs hashAt runesOf gone s views)
    (hgone : ∀ o ∈ s.watched, gone o.outpoint → Reached runesOf s.db o)
    (hstep : service.scanRuneDeposits views s.db = .ok (n, db')) :
    ScanInv service hashAt runesOf { s with db := db', scanned := some s.tip } := by
  have hdb : Accounted service.config.btcMinConfirmations s.receipts runesOf s.tip s.db := by
    cases hT : s.scanned with
    | none =>
        intro k row hrow
        rw [h.unscanned hT] at hrow
        exact absurd hrow (by simp)
    | some T => exact (h.accounted T hT).mono (h.scanned T hT).1
  obtain ⟨hbuffer, hcursor, haccounted, hrecorded⟩ :=
    RuneBridgeService.scanRuneDeposits_recorded hsees h.nodup h.height_le hdb hstep
  have hkept := RuneBridgeService.scanRuneDeposits_kept hstep
  refine ⟨h.nodup, h.height_le, fun o ho => ?_, fun e user huser => ?_, fun a row hrow => ?_, ?_,
    fun T hT => ?_, fun hnone => ?_, fun T hT => ?_, fun T hT o ho hle => ?_⟩
  · obtain ⟨hmem, hpos, hknown⟩ := h.watched o ho
    exact ⟨hmem, hpos, hkept.depositAddresses ▸ hknown⟩
  · exact h.users e user (hkept.users ▸ huser)
  · exact h.derived a row (hkept.depositAddresses ▸ hrow)
  · rw [hcursor]
    rfl
  · obtain rfl := Option.some.inj hT
    exact ⟨le_rfl, hbuffer⟩
  · exact absurd hnone (by simp)
  · obtain rfl := Option.some.inj hT
    exact haccounted
  · obtain rfl := Option.some.inj hT
    obtain ⟨hmem, hpos, hknown⟩ := h.watched o ho
    rcases h.settled_or_above ho with ⟨T, hT, hheight, hmature⟩ | habove
    -- settled before: it was mature then, and a scan keeps it
    · intro e he
      have hold := (h.recorded T hT o ho hheight).of_scanKept hkept
      obtain ⟨rune, row, hrune, hrow, hreached⟩ := hold e he
      exact ⟨rune, row, hrune, hrow, fun _ => hreached hmature⟩
    · by_cases hthere : gone o.outpoint
      · exact (hgone o ho hthere).recorded.of_scanKept hkept
      obtain ⟨row, hrow⟩ := Option.isSome_iff_exists.1 hknown
      obtain ⟨index, hindex, haddress⟩ := h.derived _ row hrow
      refine hrecorded o hmem hknown ?_ ?_ habove hthere
      · rw [haddress]
        exact hms.ne_empty index
      · rw [haddress, hms.change]
        intro heq
        have hzero := hms.injective heq
        omega

lemma ScanInv.process {db' : Db Hash} (h : ScanInv service hashAt runesOf s)
    (hstep : ProcessKept s.db db') : ScanInv service hashAt runesOf { s with db := db' } := by
  refine ⟨h.nodup, h.height_le, fun o ho => ?_, fun e user huser => ?_, fun a row hrow => ?_, ?_,
    h.scanned, fun hnone k => ?_, fun T hT k row' hrow' => ?_, fun T hT o ho hle e he => ?_⟩
  · exact hstep.depositAddresses ▸ h.watched o ho
  · exact h.users e user (hstep.users ▸ huser)
  · exact h.derived a row (hstep.depositAddresses ▸ hrow)
  · exact hstep.lastScannedBlock.trans h.cursor
  · by_contra hsome
    obtain ⟨row', hrow'⟩ := Option.ne_none_iff_exists'.1 hsome
    obtain ⟨row, hrow⟩ := hstep.deposits_of k row' hrow'
    rw [h.unscanned hnone] at hrow
    exact absurd hrow (by simp)
  · obtain ⟨row, hrow⟩ := hstep.deposits_of k row' hrow'
    obtain ⟨row'', hrow'', hamount, hstatus⟩ := hstep.deposits k row hrow
    obtain rfl := Option.some.inj (hrow''.symm.trans hrow')
    obtain ⟨o, ho, hby⟩ := h.accounted T hT k row hrow
    refine ⟨o, ho, hby.outpoint, hby.height_le, ?_, ?_, hamount ▸ hby.reported⟩
    · rcases hstatus with hsame | ⟨-, hreached⟩
      · exact hsame ▸ hby.ne_rejected
      · intro hrejected
        rw [hrejected] at hreached
        exact absurd hreached (by decide)
    · rcases hstatus with hsame | ⟨hreached, -⟩
      · exact hsame ▸ hby.matured
      · exact fun _ => hby.matured hreached
  · obtain ⟨rune, row, hrune, hrow, hreached⟩ := h.recorded T hT o ho hle e he
    obtain ⟨row', hrow', -, hstatus⟩ := hstep.deposits _ row hrow
    refine ⟨rune, row', hrune, hrow', fun hmature => ?_⟩
    rcases hstatus with hsame | ⟨-, hreached'⟩
    · exact hsame ▸ hreached hmature
    · exact hreached'

/-- **The invariant holds along every run.** -/
theorem ScanRun.inv (hms : service.ordMultisig.DerivesAddresses) {tr : List (ScanAction Hash)}
    (hr : ScanRun service hashAt runesOf tr s) : ScanInv service hashAt runesOf s := by
  refine Run.stateInvariant (I := ScanInv service hashAt runesOf) (fun _ h => h.inv)
    (fun s a s' h hstep => ?_) hr
  cases hstep with
  | block hnew => exact h.block hnew
  | address hstep => exact h.address hstep
  | scan hsees hstep => exact h.scan hms hsees (fun _ _ hgone => hgone.elim) hstep
  | failedScan => exact h
  | process hstep => exact h.process hstep

/-- No rune is reported twice on an output. -/
def DistinctRunes (entries : List (String × RuneBalanceEntry)) : Prop :=
  ∀ e ∈ entries, ∀ e' ∈ entries, ∀ rune rune', runeFromStr e.1 = .ok rune →
    runeFromStr e'.1 = .ok rune' → rune.n = rune'.n → e = e'

/-- **Every Bitcoin deposit is counted, once.**  After a successful scan at tip `T`, each output
received at a known deposit address in a block of height `h` with `T - h + 1` at least the
configured confirmations has one deposit for each rune `ord` reports on it, in the amount reported,
at `ACCEPTED` or beyond.  There are no other deposits of the output, and none of them got to
`ACCEPTED` before.  A scan takes no status backwards. -/
theorem scan_rune_deposits_exactly_once (hms : service.ordMultisig.DerivesAddresses)
    (hdistinct : ∀ o, DistinctRunes (runesOf o)) {tr : List (ScanAction Hash)}
    (hr : ScanRun service hashAt runesOf tr s) :
    (∀ T, s.scanned = some T → ∀ o ∈ s.watched, o.height ≤ T →
      service.config.btcMinConfirmations + o.height ≤ T + 1 → ∀ e ∈ runesOf o.outpoint,
        ∃ rune row, runeFromStr e.1 = .ok rune ∧
          s.db.runeDeposits.get? ⟨o.outpoint.txid, o.outpoint.vout, rune.n⟩ = some row ∧
          row.transferAmountRaw = e.2.amount ∧ row.status.reachedAccepted = true) ∧
    (∀ o ∈ s.watched, ∀ n row,
      s.db.runeDeposits.get? ⟨o.outpoint.txid, o.outpoint.vout, n⟩ = some row →
        (∃ e ∈ runesOf o.outpoint, ∃ rune, runeFromStr e.1 = .ok rune ∧ rune.n = n ∧
          row.transferAmountRaw = e.2.amount) ∧
        (row.status.reachedAccepted = true → ∃ T, s.scanned = some T ∧ o.height ≤ T ∧
          service.config.btcMinConfirmations + o.height ≤ T + 1)) ∧
    ∀ views s', ScanStep service hashAt runesOf s (.scan views) s' →
      (∀ k row, s.db.runeDeposits.get? k = some row → ∃ row',
        s'.db.runeDeposits.get? k = some row' ∧ row.status.ScanForward row'.status) ∧
      ∀ o row, s.db.incomingBtcTxs.get? o = some row → ∃ row',
        s'.db.incomingBtcTxs.get? o = some row' ∧ row.status.ScanForward row'.status := by
  have hinv := ScanRun.inv hms hr
  -- the row of a watched output is accounted for by that output
  have hrow (T : ℕ) (hT : s.scanned = some T) (o : Receipt) (ho : o ∈ s.watched) (n : ℕ)
      (row : RuneDeposit Hash)
      (hget : s.db.runeDeposits.get? ⟨o.outpoint.txid, o.outpoint.vout, n⟩ = some row) :
      AccountedBy service.config.btcMinConfirmations runesOf T o
        ⟨o.outpoint.txid, o.outpoint.vout, n⟩ row := by
    obtain ⟨o', ho', hby⟩ := hinv.accounted T hT _ row hget
    obtain rfl : o' = o :=
      List.inj_on_of_nodup_map hinv.nodup ho' (hinv.watched o ho).1 hby.outpoint
    exact hby
  refine ⟨fun T hT o ho hle hmature e he => ?_, fun o ho n row hget => ?_,
    fun views s' hstep => ?_⟩
  · obtain ⟨rune, row, hrune, hget, hreached⟩ := hinv.recorded T hT o ho hle e he
    obtain ⟨e', he', rune', hrune', hnumber, hamount⟩ := (hrow T hT o ho _ row hget).reported
    obtain rfl : e' = e := hdistinct _ e' he' e he rune' rune hrune' hrune hnumber
    exact ⟨rune, row, hrune, hget, hamount, hreached hmature⟩
  · cases hT : s.scanned with
    | none =>
        rw [hinv.unscanned hT] at hget
        exact absurd hget (by simp)
    | some T =>
        have hby := hrow T hT o ho n row hget
        exact ⟨hby.reported, fun hreached => ⟨T, rfl, hby.height_le, hby.matured hreached⟩⟩
  · cases hstep with
    | scan hsees hscan =>
        have hkept := RuneBridgeService.scanRuneDeposits_kept hscan
        refine ⟨fun k row hget => ?_, hkept.incoming⟩
        obtain ⟨row', hget', hrow'⟩ := hkept.deposits k row hget
        exact ⟨row', hget', hrow'.status⟩

end Invariant

/-! ## A run -/

namespace ExampleNode

def hashAt (height : ℕ) : String := String.ofList ('h' :: List.replicate height 'x')

/-- What `ord` reports on the outputs of the example wallet. -/
def runesOf : ReportedRunes := fun o =>
  if o = ExampleWallet.runeUtxo.outpoint then [("A", ⟨8, 0⟩)] else []

/-- The receipt of the wallet's first output, with two confirmations. -/
def walletTx : WalletTransaction where
  category := "receive"
  address := some (ExampleWallet.ms.deriveAddress 1)
  txid := "aa"
  vout := 0
  confirmations := 2
  blockheight := some 1
  time := 0
  amount := 1 / 10000

/-- At tip 2 the wallet lists that receipt. -/
def scanViews : Views Bytes :=
  { views ['4'] with
    bitcoinRpc := { ExampleWallet.rpc with
      listsinceblock := fun _ target =>
        if 0 < target then .ok ⟨hashAt (2 + 1 - target), [walletTx]⟩
        else .error (.other "Invalid parameter") } }

def start : ScanState Bytes := ⟨Db.empty, 0, [], [], none⟩

def deposit : List (Outpoint × String) :=
  [(ExampleWallet.runeUtxo.outpoint, ExampleWallet.ms.deriveAddress 1)]

/-- The state before the scan, from the database with the deposit address. -/
def beforeScan (db : Db Bytes) : ScanState Bytes := (({ start with db := db }).mine deposit).mine []

lemma derivesAddresses : ExampleWallet.ms.DerivesAddresses where
  injective := ExampleWallet.deriveAddress_injective
  ne_empty index h := by
    simp only [ExampleWallet.ms] at h
    split at h
    · exact absurd h (by decide)
    · have hchars := congrArg String.toList h
      rw [String.toList_ofList] at hchars
      exact absurd hchars (List.cons_ne_nil _ _)
  change := rfl

lemma distinctRunes (o : Outpoint) : DistinctRunes (runesOf o) := by
  intro e he e' he' _ _ _ _ _
  unfold runesOf at he he'
  split at he
  · rw [if_pos ‹_›] at he'
    rw [List.mem_singleton.1 he, List.mem_singleton.1 he']
  · exact absurd he (by simp)

lemma seesOutputs {gone : Outpoint → Prop} (db : Db Bytes) :
    SeesOutputs hashAt runesOf gone (beforeScan db) scanViews where
  target_pos b k r h := by
    by_contra hk
    have herror : scanViews.bitcoinRpc.listsinceblock b k = .error (.other "Invalid parameter") :=
      if_neg hk
    rw [herror] at h
    exact absurd h (by simp)
  lastblock b k r h := by
    simp only [scanViews] at h
    split at h
    · rw [← Except.ok.inj h]
      rfl
    · exact absurd h (by simp)
  listed b k r h tx htx _ _ := by
    simp only [scanViews] at h
    split at h
    · rw [← Except.ok.inj h] at htx
      obtain rfl : tx = walletTx := by simpa using htx
      exact ⟨⟨ExampleWallet.runeUtxo.outpoint, ExampleWallet.ms.deriveAddress 1, 1⟩,
        by simp [beforeScan, ScanState.mine, deposit, start], rfl, rfl, rfl⟩
    · exact absurd h (by simp)
  complete b k r h o ho _ := by
    simp only [scanViews] at h
    split at h
    · obtain rfl : o = ⟨ExampleWallet.runeUtxo.outpoint, ExampleWallet.ms.deriveAddress 1, 1⟩ := by
        simpa [beforeScan, ScanState.mine, deposit, start] using ho
      rw [← Except.ok.inj h]
      exact ⟨walletTx, by simp, rfl, rfl, rfl, rfl⟩
    · exact absurd h (by simp)
  indexed o _ _ _ response h := by
    obtain rfl := Except.ok.inj h
    rfl
  reported o _ _ response h _ := by
    obtain rfl := Except.ok.inj h
    rfl

/-- The database a transaction leaves. -/
def afterwards (r : PyResult (Db Bytes)) : Db Bytes := r.toOption.getD Db.empty

lemma eq_ok_afterwards {r : PyResult (Db Bytes)} (h : r.isOk = true) :
    r = .ok (afterwards r) := by
  obtain ⟨db, rfl⟩ := exists_ok_of_isOk h
  rfl

/-- The database with the user's deposit address. -/
def addressDb : Db Bytes :=
  (((service '4' []).generateDepositAddress "u" Db.empty).toOption.map Prod.snd).getD Db.empty

lemma generateDepositAddress_addressDb : ∃ address,
    (service '4' []).generateDepositAddress "u" Db.empty = .ok (address, addressDb) := by
  obtain ⟨⟨address, db⟩, h⟩ :
      ∃ r, (service '4' []).generateDepositAddress "u" Db.empty = .ok r :=
    exists_ok_of_isOk (by decide +kernel)
  have hdb : addressDb = db := by
    rw [addressDb, h]
    rfl
  exact ⟨address, hdb ▸ h⟩

/-- The user gets an address, a block with a deposit arrives and then another, and a scan finds
the deposit with its two confirmations. -/
lemma scanRun : ∃ tr db, ScanRun (service '4' []) hashAt runesOf tr
    { beforeScan addressDb with db := db, scanned := some 2 } := by
  obtain ⟨address, haddress⟩ := generateDepositAddress_addressDb
  obtain ⟨⟨n, db⟩, hscan⟩ : ∃ r, (service '4' []).scanRuneDeposits scanViews addressDb = .ok r :=
    exists_ok_of_isOk (by decide +kernel)
  have hstart : ScanRun (service '4' []) hashAt runesOf [] start :=
    .init ⟨rfl, by simp [start], by simp [start], rfl, rfl⟩
  have hnew : (({ start with db := addressDb }).mine deposit).receipts.map Receipt.outpoint =
      [ExampleWallet.runeUtxo.outpoint] := rfl
  have hblock := (hstart.step (.address haddress)).step
    (.block (by rw [hnew]; exact List.nodup_singleton _))
  have hnew' : (beforeScan addressDb).receipts.map Receipt.outpoint =
      [ExampleWallet.runeUtxo.outpoint] := rfl
  have hblocks := hblock.step (.block (by
    show ((beforeScan addressDb).receipts.map Receipt.outpoint).Nodup
    rw [hnew']
    exact List.nodup_singleton _))
  exact ⟨_, db, hblocks.step (.scan (seesOutputs addressDb) hscan)⟩

end ExampleNode

theorem scan_rune_deposits_exactly_once_example :
    ∃ tr s row, ScanRun (ExampleNode.service '4' []) ExampleNode.hashAt ExampleNode.runesOf tr s ∧
      s.db.runeDeposits.get? ⟨"aa", 0, 0⟩ = some row ∧ row.transferAmountRaw = 8 ∧
      row.status.reachedAccepted = true := by
  obtain ⟨tr, db, hrun⟩ := ExampleNode.scanRun
  have hwatched : ⟨ExampleWallet.runeUtxo.outpoint, ExampleWallet.ms.deriveAddress 1, 1⟩ ∈
      (ExampleNode.beforeScan ExampleNode.addressDb).watched := by decide +kernel
  have hdeposits := (scan_rune_deposits_exactly_once ExampleNode.derivesAddresses
    ExampleNode.distinctRunes hrun).1
  obtain ⟨rune, row, hrune, hget, hamount, hreached⟩ := hdeposits 2 rfl
    ⟨ExampleWallet.runeUtxo.outpoint, ExampleWallet.ms.deriveAddress 1, 1⟩ hwatched
    (by decide) (by decide) ("A", ⟨8, 0⟩) (by simp [ExampleNode.runesOf])
  have hA : runeFromStr "A" = .ok ExampleWallet.rune := runeFromStr_name ExampleWallet.rune
  obtain rfl : rune = ExampleWallet.rune := Except.ok.inj (hrune.symm.trans hA)
  exact ⟨tr, _, row, hrun, hget, hamount, hreached⟩

end NbteBridge
