import NbteBridge.Node.Scan

/-!
# What a scan does to the database

A scan adds rows and moves rows from `DETECTED` to `ACCEPTED`; it rewrites what the chain says of a
deposit and keeps what the node did about it.  `ScanKept` is this relation between the databases
before and after, shown for each part of a scan and closed under their composition.
-/

namespace NbteBridge

open Checked Tables

/-- A scan moves a status from `DETECTED` to `ACCEPTED`, or not at all. -/
def RuneDepositStatus.ScanForward (s s' : RuneDepositStatus) : Prop :=
  s' = s ∨ (s = .detected ∧ s' = .accepted)

def IncomingBtcTxStatus.ScanForward (s s' : IncomingBtcTxStatus) : Prop :=
  s' = s ∨ (s = .detected ∧ s' = .accepted)

lemma RuneDepositStatus.ScanForward.trans {s s' s'' : RuneDepositStatus} (h : s.ScanForward s')
    (h' : s'.ScanForward s'') : s.ScanForward s'' := by
  unfold ScanForward at *
  grind

lemma IncomingBtcTxStatus.ScanForward.trans {s s' s'' : IncomingBtcTxStatus}
    (h : s.ScanForward s') (h' : s'.ScanForward s'') : s.ScanForward s'' := by
  unfold ScanForward at *
  grind

variable {Hash : Type}

/-- What a scan keeps of a deposit. -/
structure RuneDeposit.ScanKept (row row' : RuneDeposit Hash) : Prop where
  status : row.status.ScanForward row'.status
  evmTxHash : row'.evmTxHash = row.evmTxHash
  messageHash : row'.acceptTransferMessageHash = row.acceptTransferMessageHash
  signatures : row'.acceptTransferSignatures = row.acceptTransferSignatures
  signers : row'.acceptTransferSigners = row.acceptTransferSigners

/-- A deposit nothing was done about yet. -/
structure RuneDeposit.Untouched (row : RuneDeposit Hash) : Prop where
  status : row.status = .detected ∨ row.status = .accepted
  evmTxHash : row.evmTxHash = none
  messageHash : row.acceptTransferMessageHash = none
  signatures : row.acceptTransferSignatures = []
  signers : row.acceptTransferSigners = []

namespace RuneDeposit

lemma ScanKept.refl (row : RuneDeposit Hash) : row.ScanKept row :=
  ⟨.inl rfl, rfl, rfl, rfl, rfl⟩

lemma ScanKept.trans {row row' row'' : RuneDeposit Hash} (h : row.ScanKept row')
    (h' : row'.ScanKept row'') : row.ScanKept row'' :=
  ⟨h.status.trans h'.status, h'.evmTxHash.trans h.evmTxHash,
    h'.messageHash.trans h.messageHash, h'.signatures.trans h.signatures,
    h'.signers.trans h.signers⟩

lemma Untouched.of_scanKept {row row' : RuneDeposit Hash} (h : row.Untouched)
    (h' : row.ScanKept row') : row'.Untouched := by
  refine ⟨?_, h'.evmTxHash.trans h.evmTxHash, h'.messageHash.trans h.messageHash,
    h'.signatures.trans h.signatures, h'.signers.trans h.signers⟩
  rcases h'.status with hsame | ⟨-, haccepted⟩
  · rw [hsame]
    exact h.status
  · exact .inr haccepted

end RuneDeposit

/-- `db'` is `db` after scanning. -/
structure ScanKept (db db' : Db Hash) : Prop where
  users : db'.users = db.users
  depositAddresses : db'.depositAddresses = db.depositAddresses
  runeTokenDeposits : db'.runeTokenDeposits = db.runeTokenDeposits
  lastScannedEvmBlock : db'.lastScannedEvmBlock = db.lastScannedEvmBlock
  incoming : ∀ o row, db.incomingBtcTxs.get? o = some row →
    ∃ row', db'.incomingBtcTxs.get? o = some row' ∧ row.status.ScanForward row'.status
  deposits : ∀ k row, db.runeDeposits.get? k = some row →
    ∃ row', db'.runeDeposits.get? k = some row' ∧ row.ScanKept row'
  deposits_of : ∀ k row', db'.runeDeposits.get? k = some row' →
    (∃ row, db.runeDeposits.get? k = some row ∧ row.ScanKept row') ∨
      (db.runeDeposits.get? k = none ∧ row'.Untouched)

namespace ScanKept

variable {db db' db'' : Db Hash}

/-- The tables of transactions and deposits are all that matters. -/
lemma of_eq (husers : db'.users = db.users) (haddresses : db'.depositAddresses = db.depositAddresses)
    (htokens : db'.runeTokenDeposits = db.runeTokenDeposits)
    (hevm : db'.lastScannedEvmBlock = db.lastScannedEvmBlock)
    (hincoming : db'.incomingBtcTxs = db.incomingBtcTxs)
    (hdeposits : db'.runeDeposits = db.runeDeposits) : ScanKept db db' where
  users := husers
  depositAddresses := haddresses
  runeTokenDeposits := htokens
  lastScannedEvmBlock := hevm
  incoming _ row h := ⟨row, hincoming ▸ h, .inl rfl⟩
  deposits _ row h := ⟨row, hdeposits ▸ h, .refl row⟩
  deposits_of _ row h := .inl ⟨row, hdeposits ▸ h, .refl row⟩

lemma refl (db : Db Hash) : ScanKept db db := of_eq rfl rfl rfl rfl rfl rfl

lemma trans (h : ScanKept db db') (h' : ScanKept db' db'') : ScanKept db db'' where
  users := h'.users.trans h.users
  depositAddresses := h'.depositAddresses.trans h.depositAddresses
  runeTokenDeposits := h'.runeTokenDeposits.trans h.runeTokenDeposits
  lastScannedEvmBlock := h'.lastScannedEvmBlock.trans h.lastScannedEvmBlock
  incoming o row hrow := by
    obtain ⟨row', hrow', hforward⟩ := h.incoming o row hrow
    obtain ⟨row'', hrow'', hforward'⟩ := h'.incoming o row' hrow'
    exact ⟨row'', hrow'', hforward.trans hforward'⟩
  deposits k row hrow := by
    obtain ⟨row', hrow', hkept⟩ := h.deposits k row hrow
    obtain ⟨row'', hrow'', hkept'⟩ := h'.deposits k row' hrow'
    exact ⟨row'', hrow'', hkept.trans hkept'⟩
  deposits_of k row'' hrow'' := by
    rcases h'.deposits_of k row'' hrow'' with ⟨row', hrow', hkept'⟩ | ⟨hnone, hnew⟩
    · rcases h.deposits_of k row' hrow' with ⟨row, hrow, hkept⟩ | ⟨hnone, hnew⟩
      · exact .inl ⟨row, hrow, hkept.trans hkept'⟩
      · exact .inr ⟨hnone, hnew.of_scanKept hkept'⟩
    · right
      refine ⟨?_, hnew⟩
      by_contra hsome
      obtain ⟨row, hrow⟩ := Option.ne_none_iff_exists'.1 hsome
      obtain ⟨row', hrow', -⟩ := h.deposits k row hrow
      rw [hnone] at hrow'
      exact absurd hrow' (by simp)

end ScanKept

/-! ## The parts of a scan -/

namespace RuneBridgeService

variable {service : RuneBridgeService Hash} {views : Views Hash} {db db' : Db Hash}

lemma indexRunes_ok {entries : List RuneEntry} (h : indexRunes entries db = .ok db') :
    ∃ runes, db' = { db with runes := runes } := by
  induction entries generalizing db with
  | nil =>
      obtain rfl := pure_eq_ok.1 h
      exact ⟨db.runes, rfl⟩
  | cons entry entries ih =>
      simp only [indexRunes, bind_eq_ok] at h
      obtain ⟨rune, -, h⟩ := h
      split at h
      · exact ih h
      · obtain ⟨runes, rfl⟩ := ih h
        exact ⟨runes, rfl⟩

/-- A new row is untouched, an old one kept. -/
lemma updateRuneDeposit_of_none {tx : WalletTransaction} {blockheight : ℕ} {user : User}
    {postage : ℕ} {rune : RuneRow} {balance : RuneBalanceEntry} :
    (service.updateRuneDeposit tx blockheight user postage rune balance none).Untouched where
  status := by
    unfold updateRuneDeposit
    dsimp only
    split
    · exact .inr rfl
    · exact .inl rfl
  evmTxHash := rfl
  messageHash := rfl
  signatures := rfl
  signers := rfl

lemma updateRuneDeposit_of_some {tx : WalletTransaction} {blockheight : ℕ} {user : User}
    {postage : ℕ} {rune : RuneRow} {balance : RuneBalanceEntry} {row : RuneDeposit Hash} :
    row.ScanKept (service.updateRuneDeposit tx blockheight user postage rune balance
      (some row)) where
  status := by
    unfold updateRuneDeposit RuneDepositStatus.ScanForward
    dsimp only [Option.map_some, Option.getD_some]
    split
    · rename_i h
      exact .inr ⟨h.2, rfl⟩
    · exact .inl rfl
  evmTxHash := rfl
  messageHash := rfl
  signatures := rfl
  signers := rfl

/-- One rune of an output is one row written. -/
lemma indexRuneDeposit_ok {tx : WalletTransaction} {user : User} {postage : ℕ}
    {entry : String × RuneBalanceEntry}
    (h : service.indexRuneDeposit tx user postage entry db = .ok db') :
    ∃ rune runeRow blockheight, runeFromStr entry.1 = .ok rune ∧
      db.runes.get? rune.n = some runeRow ∧ tx.blockheight = some blockheight ∧
      db' = db.setRuneDeposit ⟨tx.txid, tx.vout, rune.n⟩
        (service.updateRuneDeposit tx blockheight user postage runeRow entry.2
          (db.runeDeposits.get? ⟨tx.txid, tx.vout, rune.n⟩)) := by
  simp only [indexRuneDeposit, bind_eq_ok, orError_eq_ok, pure_eq_ok] at h
  obtain ⟨rune, hrune, runeRow, hrow, blockheight, hheight, rfl⟩ := h
  exact ⟨rune, runeRow, blockheight, hrune, hrow, hheight, rfl⟩

lemma scanKept_setRuneDeposit {key : RuneDepositKey} {row : RuneDeposit Hash}
    (hnone : db.runeDeposits.get? key = none → row.Untouched)
    (hsome : ∀ old, db.runeDeposits.get? key = some old → old.ScanKept row) :
    ScanKept db (db.setRuneDeposit key row) where
  users := rfl
  depositAddresses := rfl
  runeTokenDeposits := rfl
  lastScannedEvmBlock := rfl
  incoming _ row h := ⟨row, h, .inl rfl⟩
  deposits k old h := by
    by_cases hk : k = key
    · subst hk
      exact ⟨row, by rw [Db.setRuneDeposit, Table.get?_set, if_pos rfl], hsome old h⟩
    · exact ⟨old, by rw [Db.setRuneDeposit, Table.get?_set, if_neg hk]; exact h, .refl old⟩
  deposits_of k row' h := by
    rw [Db.setRuneDeposit, Table.get?_set] at h
    by_cases hk : k = key
    · subst hk
      rw [if_pos rfl] at h
      obtain rfl := Option.some.inj h
      cases hold : db.runeDeposits.get? k with
      | none => exact .inr ⟨rfl, hnone hold⟩
      | some old => exact .inl ⟨old, rfl, hsome old hold⟩
    · rw [if_neg hk] at h
      exact .inl ⟨row', h, .refl row'⟩

lemma indexRuneDeposit_kept {tx : WalletTransaction} {user : User} {postage : ℕ}
    {entry : String × RuneBalanceEntry}
    (h : service.indexRuneDeposit tx user postage entry db = .ok db') : ScanKept db db' := by
  obtain ⟨rune, runeRow, blockheight, -, -, -, rfl⟩ := indexRuneDeposit_ok h
  refine scanKept_setRuneDeposit (fun hnone => ?_) (fun old hsome => ?_)
  · rw [hnone]
    exact updateRuneDeposit_of_none
  · rw [hsome]
    exact updateRuneDeposit_of_some

lemma indexRuneDeposits_kept {tx : WalletTransaction} {user : User} {postage : ℕ}
    {entries : List (String × RuneBalanceEntry)}
    (h : service.indexRuneDeposits tx user postage entries db = .ok db') : ScanKept db db' := by
  induction entries generalizing db with
  | nil =>
      obtain rfl := pure_eq_ok.1 h
      exact .refl db
  | cons entry entries ih =>
      simp only [indexRuneDeposits, bind_eq_ok] at h
      obtain ⟨db₁, hentry, hrest⟩ := h
      exact (indexRuneDeposit_kept hentry).trans (ih hrest)

/-- The row of a wallet transaction. -/
lemma scanKept_setIncomingBtcTx (service : RuneBridgeService Hash) (db : Db Hash)
    (tx : WalletTransaction) (address : String) (user : Option User) :
    ScanKept db (db.setIncomingBtcTx ⟨tx.txid, tx.vout⟩ (service.updateIncomingBtcTx tx address
      user (db.incomingBtcTxs.get? ⟨tx.txid, tx.vout⟩))) where
  users := rfl
  depositAddresses := rfl
  runeTokenDeposits := rfl
  lastScannedEvmBlock := rfl
  incoming o row h := by
    by_cases ho : o = ⟨tx.txid, tx.vout⟩
    · subst ho
      refine ⟨_, by rw [Db.setIncomingBtcTx, Table.get?_set, if_pos rfl], ?_⟩
      rw [h]
      unfold updateIncomingBtcTx IncomingBtcTxStatus.ScanForward
      dsimp only [Option.map_some, Option.getD_some]
      split
      · rename_i hdetected
        exact .inr ⟨hdetected.2, rfl⟩
      · exact .inl rfl
    · exact ⟨row, by rw [Db.setIncomingBtcTx, Table.get?_set, if_neg ho]; exact h, .inl rfl⟩
  deposits _ row h := ⟨row, h, .refl row⟩
  deposits_of _ row h := .inl ⟨row, h, .refl row⟩

/-- One wallet transaction: its own row, and those of its runes if its address and its output are
known. -/
lemma indexTx_ok {scanned : ScannedTx} {n : ℕ} (h : service.indexTx scanned db = .ok (n, db')) :
    ∃ db₁, ScanKept db db₁ ∧ db₁.runeDeposits = db.runeDeposits ∧
      db₁.runes = db.runes ∧
      ((∃ row ordOutput, db.depositAddresses.get? (scanned.tx.address.getD "") = some row ∧
          scanned.ordOutput = some ordOutput ∧
          service.indexRuneDeposits scanned.tx row.user ordOutput.value ordOutput.runes db₁ =
            .ok db') ∨
        (db' = db₁ ∧ (scanned.ordOutput = none ∨
          db.depositAddresses.get? (scanned.tx.address.getD "") = none))) := by
  simp only [indexTx, bind_eq_ok, exists_unit, require_eq_ok] at h
  obtain ⟨-, h⟩ := h
  refine ⟨_, scanKept_setIncomingBtcTx service db scanned.tx (scanned.tx.address.getD "")
    ((db.depositAddresses.get? (scanned.tx.address.getD "")).map DepositAddress.user), rfl, rfl, ?_⟩
  · cases haddress : db.depositAddresses.get? (scanned.tx.address.getD "") with
    | none =>
        rw [haddress] at h
        obtain ⟨-, rfl⟩ := Prod.mk.inj (pure_eq_ok.1 h)
        exact .inr ⟨rfl, .inr rfl⟩
    | some row =>
        rw [haddress] at h
        cases hout : scanned.ordOutput with
        | none =>
            rw [hout] at h
            obtain ⟨-, rfl⟩ := Prod.mk.inj (pure_eq_ok.1 h)
            exact .inr ⟨rfl, .inl rfl⟩
        | some ordOutput =>
            rw [hout] at h
            simp only [Option.map_some, bind_eq_ok, pure_eq_ok] at h
            obtain ⟨db₂, hdeposits, heq⟩ := h
            obtain ⟨-, rfl⟩ := Prod.mk.inj heq
            exact .inl ⟨row, ordOutput, rfl, rfl, hdeposits⟩

lemma indexTx_kept {scanned : ScannedTx} {n : ℕ} (h : service.indexTx scanned db = .ok (n, db')) :
    ScanKept db db' := by
  obtain ⟨db₁, hkept, -, -, ⟨row, ordOutput, -, -, hdeposits⟩ | ⟨rfl, -⟩⟩ := indexTx_ok h
  · exact hkept.trans (indexRuneDeposits_kept hdeposits)
  · exact hkept

lemma indexTxs_kept {txs : List ScannedTx} {n : ℕ} (h : service.indexTxs txs db = .ok (n, db')) :
    ScanKept db db' := by
  induction txs generalizing db n with
  | nil =>
      obtain ⟨-, rfl⟩ := Prod.mk.inj (pure_eq_ok.1 h)
      exact .refl db
  | cons scanned txs ih =>
      simp only [indexTxs, bind_eq_ok, pure_eq_ok] at h
      obtain ⟨⟨n₁, db₁⟩, htx, ⟨n₂, db₂⟩, hrest, heq⟩ := h
      obtain ⟨-, rfl⟩ := Prod.mk.inj heq
      exact (indexTx_kept htx).trans (ih hrest)

lemma indexRuneDeposits_runes {tx : WalletTransaction} {user : User} {postage : ℕ}
    {entries : List (String × RuneBalanceEntry)}
    (h : service.indexRuneDeposits tx user postage entries db = .ok db') :
    db'.runes = db.runes := by
  induction entries generalizing db with
  | nil => rw [← pure_eq_ok.1 h]
  | cons entry entries ih =>
      simp only [indexRuneDeposits, bind_eq_ok] at h
      obtain ⟨db₁, hentry, hrest⟩ := h
      obtain ⟨rune, runeRow, blockheight, -, -, -, rfl⟩ := indexRuneDeposit_ok hentry
      have hrunes := ih hrest
      exact hrunes

/-- Indexing transactions adds no runes. -/
lemma indexTxs_runes {txs : List ScannedTx} {n : ℕ} (h : service.indexTxs txs db = .ok (n, db')) :
    db'.runes = db.runes := by
  induction txs generalizing db n with
  | nil =>
      obtain ⟨-, rfl⟩ := Prod.mk.inj (pure_eq_ok.1 h)
      rfl
  | cons scanned txs ih =>
      simp only [indexTxs, bind_eq_ok, pure_eq_ok] at h
      obtain ⟨⟨n₁, db₁⟩, htx, ⟨n₂, db₂⟩, hrest, heq⟩ := h
      obtain ⟨-, rfl⟩ := Prod.mk.inj heq
      obtain ⟨db₃, -, -, hrunes, hcase⟩ := indexTx_ok htx
      rw [ih hrest, ← hrunes]
      rcases hcase with ⟨row, ordOutput, -, -, hentries⟩ | ⟨rfl, -⟩
      · exact indexRuneDeposits_runes hentries
      · rfl

/-- What a scan has read, and written in its transaction. -/
lemma scanRuneDeposits_ok {n : ℕ} (h : service.scanRuneDeposits views db = .ok (n, db')) :
    ∃ response scanned names runes db₁ m,
      service.config.btcMinConfirmations ≤ service.config.btcListsinceblockBuffer ∧
      views.bitcoinRpc.listsinceblock (db.lastScannedBlock.getD "")
        service.config.btcListsinceblockBuffer = .ok response ∧
      service.fetchOrdOutputs views response.transactions = .ok (scanned, names) ∧
      service.indexTxs scanned { db with runes := runes } = .ok (m, db₁) ∧
      db' = { db₁ with lastScannedBlock := some response.lastblock } := by
  simp only [scanRuneDeposits, fetchDeposits, indexDeposits, bind_eq_ok, exists_unit,
    require_eq_ok, pure_eq_ok] at h
  obtain ⟨batch, ⟨hbuffer, response, hresponse, -, ⟨scanned, names⟩, hscanned, entries, -, rfl⟩,
    db₀, hrunes, ⟨m, db₁⟩, htxs, -, heq⟩ := h
  obtain ⟨-, rfl⟩ := Prod.mk.inj heq
  obtain ⟨runes, rfl⟩ := indexRunes_ok hrunes
  exact ⟨response, scanned, names, runes, db₁, m, hbuffer, hresponse, hscanned, htxs, rfl⟩

/-! ## Rules for rows -/

section Rows

variable {P : RuneDepositKey → RuneDeposit Hash → Prop}

lemma indexRuneDeposits_rows {tx : WalletTransaction} {user : User} {postage : ℕ}
    {entries : List (String × RuneBalanceEntry)}
    (hnew : ∀ n runeRow blockheight balance old, db.runes.get? n = some runeRow →
      P ⟨tx.txid, tx.vout, n⟩
        (service.updateRuneDeposit tx blockheight user postage runeRow balance old))
    (hdb : ∀ k row, db.runeDeposits.get? k = some row → P k row)
    (h : service.indexRuneDeposits tx user postage entries db = .ok db') :
    ∀ k row, db'.runeDeposits.get? k = some row → P k row := by
  induction entries generalizing db with
  | nil =>
      obtain rfl := pure_eq_ok.1 h
      exact hdb
  | cons entry entries ih =>
      simp only [indexRuneDeposits, bind_eq_ok] at h
      obtain ⟨db₁, hentry, hrest⟩ := h
      obtain ⟨rune, runeRow, blockheight, -, hrune, -, rfl⟩ := indexRuneDeposit_ok hentry
      refine ih ?_ ?_ hrest
      · exact hnew
      · exact Table.forall_get?_set hdb (hnew _ _ _ _ _ hrune)

lemma indexTxs_rows {txs : List ScannedTx} {n : ℕ}
    (hnew : ∀ tx user postage n runeRow blockheight balance old, db.runes.get? n = some runeRow →
      P ⟨tx.txid, tx.vout, n⟩
        (service.updateRuneDeposit tx blockheight user postage runeRow balance old))
    (hdb : ∀ k row, db.runeDeposits.get? k = some row → P k row)
    (h : service.indexTxs txs db = .ok (n, db')) :
    ∀ k row, db'.runeDeposits.get? k = some row → P k row := by
  induction txs generalizing db n with
  | nil =>
      obtain ⟨-, rfl⟩ := Prod.mk.inj (pure_eq_ok.1 h)
      exact hdb
  | cons scanned txs ih =>
      simp only [indexTxs, bind_eq_ok, pure_eq_ok] at h
      obtain ⟨⟨n₁, db₁⟩, htx, ⟨n₂, db₂⟩, hrest, heq⟩ := h
      obtain ⟨-, rfl⟩ := Prod.mk.inj heq
      obtain ⟨db₃, -, hdeposits, hrunes, hcase⟩ := indexTx_ok htx
      have hdb₃ : ∀ k row, db₃.runeDeposits.get? k = some row → P k row := hdeposits ▸ hdb
      rcases hcase with ⟨row, ordOutput, -, -, hentries⟩ | ⟨rfl, -⟩
      · refine ih ?_ ?_ hrest
        · rw [indexRuneDeposits_runes hentries, hrunes]
          exact hnew
        · exact indexRuneDeposits_rows (hrunes ▸ hnew _ _ _) hdb₃ hentries
      · exact ih (hrunes ▸ hnew) hdb₃ hrest

/-- **The rule for deposits.**  What holds of all deposits, and of every one a scan writes, holds of
all after a scan. -/
theorem scanRuneDeposits_rows {n : ℕ}
    (hnew : ∀ tx user postage n runeRow blockheight balance old, db'.runes.get? n = some runeRow →
      P ⟨tx.txid, tx.vout, n⟩
        (service.updateRuneDeposit tx blockheight user postage runeRow balance old))
    (hdb : ∀ k row, db.runeDeposits.get? k = some row → P k row)
    (h : service.scanRuneDeposits views db = .ok (n, db')) :
    ∀ k row, db'.runeDeposits.get? k = some row → P k row := by
  obtain ⟨response, scanned, names, runes, db₁, m, -, -, -, htxs, rfl⟩ := scanRuneDeposits_ok h
  have hrunes : db₁.runes = runes := indexTxs_runes htxs
  have hdb₁ : ∀ k row, db₁.runeDeposits.get? k = some row → P k row := by
    refine indexTxs_rows ?_ ?_ htxs
    · rw [← hrunes]
      exact hnew
    · exact hdb
  exact hdb₁

end Rows

/-! ### Transactions -/

/-- The row a scan writes for a wallet transaction. -/
def writtenTx (service : RuneBridgeService Hash) (addresses : Table String DepositAddress)
    (tx : WalletTransaction) (row : Option IncomingBtcTx) : IncomingBtcTx :=
  service.updateIncomingBtcTx tx (tx.address.getD "")
    ((addresses.get? (tx.address.getD "")).map DepositAddress.user) row

lemma indexRuneDeposits_incomingBtcTxs {tx : WalletTransaction} {user : User} {postage : ℕ}
    {entries : List (String × RuneBalanceEntry)}
    (h : service.indexRuneDeposits tx user postage entries db = .ok db') :
    db'.incomingBtcTxs = db.incomingBtcTxs := by
  induction entries generalizing db with
  | nil => rw [← pure_eq_ok.1 h]
  | cons entry entries ih =>
      simp only [indexRuneDeposits, bind_eq_ok] at h
      obtain ⟨db₁, hentry, hrest⟩ := h
      obtain ⟨rune, runeRow, blockheight, -, -, -, rfl⟩ := indexRuneDeposit_ok hentry
      have hincoming := ih hrest
      exact hincoming

lemma indexTx_incomingBtcTxs {scanned : ScannedTx} {n : ℕ}
    (h : service.indexTx scanned db = .ok (n, db')) :
    db'.incomingBtcTxs = db.incomingBtcTxs.set ⟨scanned.tx.txid, scanned.tx.vout⟩
      (service.writtenTx db.depositAddresses scanned.tx
        (db.incomingBtcTxs.get? ⟨scanned.tx.txid, scanned.tx.vout⟩)) := by
  simp only [indexTx, bind_eq_ok, exists_unit, require_eq_ok] at h
  obtain ⟨-, h⟩ := h
  split at h
  · simp only [bind_eq_ok, pure_eq_ok] at h
    obtain ⟨db₁, hdeposits, heq⟩ := h
    obtain ⟨-, rfl⟩ := Prod.mk.inj heq
    exact indexRuneDeposits_incomingBtcTxs hdeposits
  · obtain ⟨-, rfl⟩ := Prod.mk.inj (pure_eq_ok.1 h)
    rfl

section Txs

variable {P Q : Outpoint → Option IncomingBtcTx → Prop} {txs : List ScannedTx} {n : ℕ}
  {addresses : Table String DepositAddress}

lemma indexTx_txs {scanned : ScannedTx} (haddresses : db.depositAddresses = addresses)
    (hnew : P ⟨scanned.tx.txid, scanned.tx.vout⟩ (some (service.writtenTx addresses scanned.tx
      (db.incomingBtcTxs.get? ⟨scanned.tx.txid, scanned.tx.vout⟩))))
    (hdb : ∀ o, P o (db.incomingBtcTxs.get? o)) (h : service.indexTx scanned db = .ok (n, db')) :
    ∀ o, P o (db'.incomingBtcTxs.get? o) := by
  intro o
  rw [indexTx_incomingBtcTxs h, haddresses, Table.get?_set]
  split
  · rename_i ho
    rw [ho]
    exact hnew
  · exact hdb o

/-- What holds of all transactions, and of every one that is written, holds of all. -/
lemma indexTxs_txs (haddresses : db.depositAddresses = addresses)
    (hnew : ∀ scanned ∈ txs, ∀ old, P ⟨scanned.tx.txid, scanned.tx.vout⟩ old →
      P ⟨scanned.tx.txid, scanned.tx.vout⟩ (some (service.writtenTx addresses scanned.tx old)))
    (hdb : ∀ o, P o (db.incomingBtcTxs.get? o)) (h : service.indexTxs txs db = .ok (n, db')) :
    ∀ o, P o (db'.incomingBtcTxs.get? o) := by
  induction txs generalizing db n with
  | nil =>
      obtain ⟨-, rfl⟩ := Prod.mk.inj (pure_eq_ok.1 h)
      exact hdb
  | cons scanned txs ih =>
      simp only [indexTxs, bind_eq_ok, pure_eq_ok] at h
      obtain ⟨⟨n₁, db₁⟩, htx, ⟨n₂, db₂⟩, hrest, heq⟩ := h
      obtain ⟨-, rfl⟩ := Prod.mk.inj heq
      have hdb₁ := indexTx_txs haddresses (hnew scanned List.mem_cons_self _ (hdb _)) hdb htx
      exact ih ((indexTx_kept htx).depositAddresses.trans haddresses)
        (fun s hs => hnew s (List.mem_cons_of_mem _ hs)) hdb₁ hrest

/-- What holds of every transaction that is written holds of it in the end. -/
lemma indexTxs_written (haddresses : db.depositAddresses = addresses)
    (hnew : ∀ scanned ∈ txs, ∀ old, P ⟨scanned.tx.txid, scanned.tx.vout⟩ old →
      P ⟨scanned.tx.txid, scanned.tx.vout⟩ (some (service.writtenTx addresses scanned.tx old)) ∧
      Q ⟨scanned.tx.txid, scanned.tx.vout⟩ (some (service.writtenTx addresses scanned.tx old)))
    (hdb : ∀ o, P o (db.incomingBtcTxs.get? o)) (h : service.indexTxs txs db = .ok (n, db')) :
    ∀ scanned ∈ txs, Q ⟨scanned.tx.txid, scanned.tx.vout⟩
      (db'.incomingBtcTxs.get? ⟨scanned.tx.txid, scanned.tx.vout⟩) := by
  induction txs generalizing db n with
  | nil => simp
  | cons scanned txs ih =>
      simp only [indexTxs, bind_eq_ok, pure_eq_ok] at h
      obtain ⟨⟨n₁, db₁⟩, htx, ⟨n₂, db₂⟩, hrest, heq⟩ := h
      obtain ⟨-, rfl⟩ := Prod.mk.inj heq
      have haddresses₁ := (indexTx_kept htx).depositAddresses.trans haddresses
      have hnew₁ : ∀ s ∈ txs, _ := fun s hs => hnew s (List.mem_cons_of_mem _ hs)
      obtain ⟨hP, hQ⟩ := hnew scanned List.mem_cons_self _ (hdb _)
      have hdb₁ := indexTx_txs haddresses hP hdb htx
      intro s hs
      rcases List.mem_cons.1 hs with rfl | hs
      -- what is written to this row later is as good
      · have hrow : db₁.incomingBtcTxs.get? ⟨s.tx.txid, s.tx.vout⟩ = some (service.writtenTx
            addresses s.tx (db.incomingBtcTxs.get? ⟨s.tx.txid, s.tx.vout⟩)) := by
          rw [indexTx_incomingBtcTxs htx, haddresses, Table.get?_set, if_pos rfl]
        have hall := indexTxs_txs
          (P := fun o row => P o row ∧ (o = ⟨s.tx.txid, s.tx.vout⟩ → Q o row)) haddresses₁
          (fun t ht old hold => ?_) (fun o => ⟨hdb₁ o, fun ho => ?_⟩) hrest
        · exact (hall _).2 rfl
        · obtain ⟨hP', hQ'⟩ := hnew₁ t ht old hold.1
          exact ⟨hP', fun _ => hQ'⟩
        · rw [ho, hrow]
          exact hQ
      · exact ih haddresses₁ hnew₁ hdb₁ hrest s hs

end Txs

/-- **A scan keeps what was done.** -/
theorem indexDeposits_kept {last : Option String} {batch : ScanBatch} {n : ℕ}
    (h : service.indexDeposits last batch db = .ok (n, db')) : ScanKept db db' := by
  simp only [indexDeposits, bind_eq_ok, exists_unit, require_eq_ok, pure_eq_ok] at h
  obtain ⟨db₁, hrunes, ⟨m, db₂⟩, htxs, -, heq⟩ := h
  obtain ⟨-, rfl⟩ := Prod.mk.inj heq
  obtain ⟨runes, rfl⟩ := indexRunes_ok hrunes
  have hfirst : ScanKept db { db with runes := runes } := .of_eq rfl rfl rfl rfl rfl rfl
  exact (hfirst.trans (indexTxs_kept htxs)).trans (.of_eq rfl rfl rfl rfl rfl rfl)

theorem scanRuneDeposits_kept {n : ℕ} (h : service.scanRuneDeposits views db = .ok (n, db')) :
    ScanKept db db' := by
  simp only [scanRuneDeposits, bind_eq_ok] at h
  obtain ⟨batch, -, hindex⟩ := h
  exact indexDeposits_kept hindex

end RuneBridgeService

end NbteBridge
