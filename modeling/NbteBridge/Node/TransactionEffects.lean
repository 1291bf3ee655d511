import NbteBridge.Node.Transactions

/-!
# What each database transaction does

One specification for each transaction of the node, from which the results about runs are derived
without unfolding a transaction again: what it requires of the row it works on, and what it writes.
-/

namespace NbteBridge

open Checked Tables

namespace RuneBridgeService

variable {Hash : Type} {service : RuneBridgeService Hash} {views : Views Hash} {db db' : Db Hash}

/-! ## Deposits -/

lemma runeDeposit_eq_ok {key : RuneDepositKey} {deposit : RuneDeposit Hash} :
    runeDeposit key db = .ok deposit ↔ db.runeDeposits.get? key = some deposit :=
  orError_eq_ok

lemma modifyRuneDeposit_eq_ok {key : RuneDepositKey}
    {change : RuneDeposit Hash → PyResult (RuneDeposit Hash)} :
    modifyRuneDeposit key change db = .ok db' ↔
      ∃ deposit deposit', db.runeDeposits.get? key = some deposit ∧
        change deposit = .ok deposit' ∧ db' = db.setRuneDeposit key deposit' := by
  simp only [modifyRuneDeposit, bind_eq_ok, runeDeposit_eq_ok, pure_eq_ok]
  constructor
  · rintro ⟨deposit, hget, deposit', hchange, rfl⟩
    exact ⟨deposit, deposit', hget, hchange, rfl⟩
  · rintro ⟨deposit, deposit', hget, hchange, rfl⟩
    exact ⟨deposit, hget, deposit', hchange, rfl⟩

lemma failSendingRuneDeposit_eq_ok {key : RuneDepositKey} :
    failSendingRuneDeposit key db = .ok db' ↔
      ∃ deposit, db.runeDeposits.get? key = some deposit ∧
        db' = db.setRuneDeposit key { deposit with status := .sendingToEvmFailed } := by
  simp only [failSendingRuneDeposit, modifyRuneDeposit_eq_ok, pure_eq_ok, exists_and_left,
    exists_eq_left']

lemma finishSendingRuneDeposit_eq_ok {key : RuneDepositKey} {txHash : String} :
    finishSendingRuneDeposit key txHash db = .ok db' ↔
      ∃ deposit, db.runeDeposits.get? key = some deposit ∧
        db' = db.setRuneDeposit key
          { deposit with status := .sentToEvm, evmTxHash := some txHash } := by
  simp only [finishSendingRuneDeposit, modifyRuneDeposit_eq_ok, pure_eq_ok, exists_and_left,
    exists_eq_left']

lemma confirmRuneDeposit_eq_ok {key : RuneDepositKey} {updatedStatus : RuneDepositStatus} :
    confirmRuneDeposit key updatedStatus db = .ok db' ↔
      ∃ deposit, db.runeDeposits.get? key = some deposit ∧ deposit.status = .sentToEvm ∧
        db' = db.setRuneDeposit key { deposit with status := updatedStatus } := by
  simp only [confirmRuneDeposit, modifyRuneDeposit_eq_ok, bind_eq_ok, exists_unit, require_eq_ok,
    pure_eq_ok, and_assoc, exists_and_left, exists_eq_left']

/-- A deposit is taken out for sending once, with the arguments of its mint. -/
lemma beginSendingRuneDeposit_eq_ok {key : RuneDepositKey} {numRequiredSigners : ℕ}
    {call : Option AcceptTransferCall} :
    beginSendingRuneDeposit key numRequiredSigners db = .ok (call, db') ↔
      ∃ deposit, db.runeDeposits.get? key = some deposit ∧ deposit.status = .accepted ∧
        ((deposit.acceptTransferSignatures.length < numRequiredSigners ∧ call = none ∧ db' = db) ∨
          (numRequiredSigners ≤ deposit.acceptTransferSignatures.length ∧
            call = some ⟨deposit.user.evmAddress, key.runeNumber, deposit.netAmountRaw, key.txId,
              key.vout, deposit.acceptTransferSignatures.take numRequiredSigners⟩ ∧
            db' = db.setRuneDeposit key { deposit with status := .sendingToEvm })) := by
  simp only [beginSendingRuneDeposit, bind_eq_ok, runeDeposit_eq_ok, exists_unit, require_eq_ok]
  refine exists_congr fun deposit => and_congr_right fun _ => and_congr_right fun _ => ?_
  by_cases hlen : deposit.acceptTransferSignatures.length < numRequiredSigners
  · rw [if_pos hlen, pure_eq_ok, Prod.mk.injEq]
    constructor
    · rintro ⟨rfl, rfl⟩
      exact .inl ⟨hlen, rfl, rfl⟩
    · rintro (⟨-, rfl, rfl⟩ | ⟨hle, -⟩)
      · exact ⟨rfl, rfl⟩
      · omega
  · rw [if_neg hlen, pure_eq_ok, Prod.mk.injEq]
    constructor
    · rintro ⟨rfl, rfl⟩
      exact .inr ⟨by omega, rfl, rfl⟩
    · rintro (⟨hlt, -⟩ | ⟨-, rfl, rfl⟩)
      · exact absurd hlt hlen
      · exact ⟨rfl, rfl⟩

/-- Adding signatures adds those of some of the answers. -/
lemma foldl_addSignature_eq (answers : List (SignRuneToEvmTransferAnswer Hash))
    (deposit : RuneDeposit Hash) :
    ∃ added : List (SignRuneToEvmTransferAnswer Hash), (∀ answer ∈ added, answer ∈ answers) ∧
      answers.foldl addSignature deposit =
        { deposit with
          acceptTransferSigners := deposit.acceptTransferSigners ++
            added.map SignRuneToEvmTransferAnswer.signer
          acceptTransferSignatures := deposit.acceptTransferSignatures ++
            added.map SignRuneToEvmTransferAnswer.signature } := by
  induction answers generalizing deposit with
  | nil => exact ⟨[], by simp, by simp⟩
  | cons answer answers ih =>
      rw [List.foldl_cons]
      obtain ⟨added, hadded, heq⟩ := ih (addSignature deposit answer)
      by_cases hold : answer.signer ∈ deposit.acceptTransferSigners
      · refine ⟨added, fun a ha => List.mem_cons_of_mem _ (hadded a ha), ?_⟩
        rw [heq, addSignature, if_pos hold]
      · refine ⟨answer :: added, ?_, ?_⟩
        · intro a ha
          rcases List.mem_cons.1 ha with rfl | ha
          · exact List.mem_cons_self
          · exact List.mem_cons_of_mem _ (hadded a ha)
        · rw [heq, addSignature, if_neg hold]
          simp

/-- The answers kept are among those given, and each passed its validation. -/
lemma pruneInvalidSignRuneToEvmTransferAnswers_ok {messageHash : Hash} {signers : List String}
    {answers kept : List (SignRuneToEvmTransferAnswer Hash)}
    (h : service.pruneInvalidSignRuneToEvmTransferAnswers views messageHash signers answers =
      .ok kept) :
    ∀ answer ∈ kept, answer ∈ answers ∧
      service.validateSignRuneToEvmTransferAnswer views messageHash answer = .ok () := by
  induction answers generalizing signers kept with
  | nil =>
      obtain rfl := pure_eq_ok.1 h
      simp
  | cons answer answers ih =>
      have hskip {signers : List String} (h : service.pruneInvalidSignRuneToEvmTransferAnswers
          views messageHash signers answers = .ok kept) : ∀ a ∈ kept, a ∈ answer :: answers ∧
          service.validateSignRuneToEvmTransferAnswer views messageHash a = .ok () := by
        intro a ha
        obtain ⟨hmem, hvalid⟩ := ih h a ha
        exact ⟨List.mem_cons_of_mem _ hmem, hvalid⟩
      rw [pruneInvalidSignRuneToEvmTransferAnswers] at h
      by_cases hseen : answer.signer ∈ signers
      · rw [if_pos hseen] at h
        exact hskip h
      · rw [if_neg hseen] at h
        cases hvalid : service.validateSignRuneToEvmTransferAnswer views messageHash answer with
        | error e =>
            rw [hvalid] at h
            cases e
            case validationError text => exact hskip h
            all_goals exact absurd h (by simp)
        | ok u =>
            rw [hvalid] at h
            simp only [bind_eq_ok, pure_eq_ok] at h
            obtain ⟨rest, hrest, rfl⟩ := h
            intro a ha
            rcases List.mem_cons.1 ha with rfl | ha
            · exact ⟨List.mem_cons_self, hvalid⟩
            · obtain ⟨hmem, hvalid⟩ := ih hrest a ha
              exact ⟨List.mem_cons_of_mem _ hmem, hvalid⟩

lemma updateRuneDepositSignatures_ok {key : RuneDepositKey} {messageHash : Hash}
    {answers : List (SignRuneToEvmTransferAnswer Hash)} {ready : Bool}
    (h : service.updateRuneDepositSignatures views key messageHash answers db =
      .ok (ready, db')) :
    ∃ (deposit : RuneDeposit Hash) (kept : List (SignRuneToEvmTransferAnswer Hash))
      (numRequired : ℕ) (deposit' : RuneDeposit Hash),
      db.runeDeposits.get? key = some deposit ∧
      deposit.status = .accepted ∧
      (∀ answer ∈ kept, answer ∈ answers ∧
        service.validateSignRuneToEvmTransferAnswer views messageHash answer = .ok ()) ∧
      views.contract.numRequiredFederators = .ok numRequired ∧
      deposit' = kept.foldl addSignature
        { deposit with acceptTransferMessageHash := some messageHash } ∧
      ready = decide (numRequired ≤ deposit'.acceptTransferSignatures.length) ∧
      db' = db.setRuneDeposit key deposit' := by
  simp only [updateRuneDepositSignatures, bind_eq_ok, runeDeposit_eq_ok, exists_unit,
    require_eq_ok, pure_eq_ok] at h
  obtain ⟨deposit, hget, hstatus, kept, hkept, numRequired, hnum, heq⟩ := h
  obtain ⟨rfl, rfl⟩ := Prod.mk.inj heq
  exact ⟨deposit, kept, numRequired, _, hget, hstatus,
    pruneInvalidSignRuneToEvmTransferAnswers_ok hkept, hnum, rfl, rfl, rfl⟩

/-! ## Token deposits -/

lemma runeTokenDeposit_eq_ok {key : RuneTokenDepositKey} {deposit : RuneTokenDeposit} :
    runeTokenDeposit key db = .ok deposit ↔ db.runeTokenDeposits.get? key = some deposit :=
  orError_eq_ok

lemma modifyRuneTokenDeposit_eq_ok {key : RuneTokenDepositKey}
    {change : RuneTokenDeposit → PyResult RuneTokenDeposit} :
    modifyRuneTokenDeposit key change db = .ok db' ↔
      ∃ deposit deposit', db.runeTokenDeposits.get? key = some deposit ∧
        change deposit = .ok deposit' ∧ db' = db.setRuneTokenDeposit key deposit' := by
  simp only [modifyRuneTokenDeposit, bind_eq_ok, runeTokenDeposit_eq_ok, pure_eq_ok]
  constructor
  · rintro ⟨deposit, hget, deposit', hchange, rfl⟩
    exact ⟨deposit, deposit', hget, hchange, rfl⟩
  · rintro ⟨deposit, deposit', hget, hchange, rfl⟩
    exact ⟨deposit, hget, deposit', hchange, rfl⟩

lemma beginPayout_eq_ok {key : RuneTokenDepositKey} {finalizedPsbt : Psbt} :
    service.beginPayout key finalizedPsbt db = .ok db' ↔
      ∃ deposit, db.runeTokenDeposits.get? key = some deposit ∧ deposit.status = .accepted ∧
        db' = db.setRuneTokenDeposit key
          { deposit with
            status := .sendingToBtc
            finalizedPsbt := some (service.psbtCodec.toBase64 finalizedPsbt) } := by
  simp only [beginPayout, modifyRuneTokenDeposit_eq_ok, bind_eq_ok, exists_unit, require_eq_ok,
    pure_eq_ok, and_assoc, exists_and_left, exists_eq_left']

lemma failPayout_eq_ok {key : RuneTokenDepositKey} :
    failPayout key db = .ok db' ↔
      ∃ deposit, db.runeTokenDeposits.get? key = some deposit ∧
        db' = db.setRuneTokenDeposit key { deposit with status := .sendingToBtcFailed } := by
  simp only [failPayout, modifyRuneTokenDeposit_eq_ok, pure_eq_ok, exists_and_left,
    exists_eq_left']

lemma finishPayout_eq_ok {key : RuneTokenDepositKey} {txid : String} :
    finishPayout key txid db = .ok db' ↔
      ∃ deposit, db.runeTokenDeposits.get? key = some deposit ∧
        deposit.status = .sendingToBtc ∧
        db' = db.setRuneTokenDeposit key
          { deposit with status := .sentToBtc, btcTxId := some txid } := by
  simp only [finishPayout, modifyRuneTokenDeposit_eq_ok, bind_eq_ok, exists_unit, require_eq_ok,
    pure_eq_ok, and_assoc, exists_and_left, exists_eq_left']

/-! ## Addresses and events -/

lemma getOrAddUser_snd (evmAddress : String) (db : Db Hash) :
    ∃ users, (getOrAddUser evmAddress db).2 = { db with users := users } ∧
      ∀ e user, db.users.get? e = some user → users.get? e = some user := by
  unfold getOrAddUser
  cases hold : db.users.get? evmAddress with
  | some user => exact ⟨db.users, rfl, fun _ _ h => h⟩
  | none => exact ⟨_, rfl, fun e user huser => Table.get?_set_of_none hold huser⟩

/-- Handing out an address adds to the tables of users and of addresses. -/
lemma generateDepositAddress_frame {evmAddress btcAddress : String}
    (h : service.generateDepositAddress evmAddress db = .ok (btcAddress, db')) :
    ∃ users addresses, db' = { db with users := users, depositAddresses := addresses } ∧
      (∀ e user, db.users.get? e = some user → users.get? e = some user) ∧
      ∀ a row, db.depositAddresses.get? a = some row → addresses.get? a = some row := by
  simp only [generateDepositAddress, bind_eq_ok] at h
  obtain ⟨evmAddress', -, h⟩ := h
  obtain ⟨users, husers, hkept⟩ := getOrAddUser_snd evmAddress' db
  split at h
  · obtain ⟨-, rfl⟩ := Prod.mk.inj (pure_eq_ok.1 h)
    exact ⟨users, db.depositAddresses, husers, hkept, fun _ _ h => h⟩
  · simp only [bind_eq_ok, exists_unit, require_eq_ok, pure_eq_ok] at h
    obtain ⟨hnew, heq⟩ := h
    obtain ⟨-, rfl⟩ := Prod.mk.inj heq
    rw [husers] at hnew ⊢
    exact ⟨users, _, rfl, hkept, fun a row hrow => Table.get?_set_of_none hnew hrow⟩

/-- A row an event scan adds. -/
structure NewRuneTokenDeposit (row : RuneTokenDeposit) : Prop where
  status : row.status = .accepted
  btcTxId : row.btcTxId = none
  finalizedPsbt : row.finalizedPsbt = none

/-- `db'` is `db` after recording events: runes and token deposits are added. -/
structure EventsRecorded (db db' : Db Hash) : Prop where
  users : db'.users = db.users
  depositAddresses : db'.depositAddresses = db.depositAddresses
  incomingBtcTxs : db'.incomingBtcTxs = db.incomingBtcTxs
  runeDeposits : db'.runeDeposits = db.runeDeposits
  lastScannedBlock : db'.lastScannedBlock = db.lastScannedBlock
  runes : (∀ n row, db.runes.get? n = some row → row.n = n) →
    ∀ n row, db'.runes.get? n = some row → row.n = n
  tokens : ∀ k row, db.runeTokenDeposits.get? k = some row →
    db'.runeTokenDeposits.get? k = some row
  tokens_of : ∀ k row, db'.runeTokenDeposits.get? k = some row →
    db.runeTokenDeposits.get? k = some row ∨
      (db.runeTokenDeposits.get? k = none ∧ NewRuneTokenDeposit row)

lemma EventsRecorded.refl (db : Db Hash) : EventsRecorded db db :=
  ⟨rfl, rfl, rfl, rfl, rfl, fun h => h, fun _ _ h => h, fun _ _ h => .inl h⟩

lemma EventsRecorded.trans {db'' : Db Hash} (h : EventsRecorded db db')
    (h' : EventsRecorded db' db'') : EventsRecorded db db'' where
  users := h'.users.trans h.users
  depositAddresses := h'.depositAddresses.trans h.depositAddresses
  incomingBtcTxs := h'.incomingBtcTxs.trans h.incomingBtcTxs
  runeDeposits := h'.runeDeposits.trans h.runeDeposits
  lastScannedBlock := h'.lastScannedBlock.trans h.lastScannedBlock
  runes hrunes := h'.runes (h.runes hrunes)
  tokens k row hrow := h'.tokens k row (h.tokens k row hrow)
  tokens_of k row hrow := by
    rcases h'.tokens_of k row hrow with hold | ⟨hnone, hnew⟩
    · exact h.tokens_of k row hold
    · refine .inr ⟨?_, hnew⟩
      by_contra hsome
      obtain ⟨row', hrow'⟩ := Option.ne_none_iff_exists'.1 hsome
      rw [h.tokens k row' hrow'] at hnone
      exact absurd hnone (by simp)

lemma getOrAddRune_ok {n : ℕ} {rune : RuneRow} (h : getOrAddRune views n db = .ok (rune, db')) :
    ∃ runes, db' = { db with runes := runes } ∧
      ((∀ n row, db.runes.get? n = some row → row.n = n) →
        ∀ n row, runes.get? n = some row → row.n = n) := by
  unfold getOrAddRune at h
  split at h
  · obtain ⟨-, rfl⟩ := Prod.mk.inj (pure_eq_ok.1 h)
    exact ⟨db.runes, rfl, fun hrunes => hrunes⟩
  · simp only [bind_eq_ok, pure_eq_ok] at h
    obtain ⟨rune', -, response, -, entry, -, heq⟩ := h
    obtain ⟨-, rfl⟩ := Prod.mk.inj heq
    exact ⟨_, rfl, fun hrunes => Table.forall_get?_set hrunes rfl⟩

lemma indexEvent_ok {event : RuneTransferToBtcEvent} (h : indexEvent views event db = .ok db') :
    EventsRecorded db db' := by
  simp only [indexEvent, bind_eq_ok, exists_unit, require_eq_ok, pure_eq_ok] at h
  obtain ⟨⟨rune, db₁⟩, hrune, hnew, rfl⟩ := h
  obtain ⟨runes, rfl, hnumbers⟩ := getOrAddRune_ok hrune
  refine ⟨rfl, rfl, rfl, rfl, rfl, hnumbers, fun k row hrow => ?_, fun k row hrow => ?_⟩
  · rw [Db.setRuneTokenDeposit, Table.get?_set]
    by_cases hk : k = event.key
    · rw [← hk, hrow] at hnew
      exact absurd hnew (by simp)
    · rw [if_neg hk]
      exact hrow
  · rw [Db.setRuneTokenDeposit, Table.get?_set] at hrow
    by_cases hk : k = event.key
    · rw [if_pos hk] at hrow
      obtain rfl := Option.some.inj hrow
      exact .inr ⟨hk ▸ hnew, ⟨rfl, rfl, rfl⟩⟩
    · rw [if_neg hk] at hrow
      exact .inl hrow

lemma indexEvents_ok {events : List RuneTransferToBtcEvent}
    (h : indexEvents views events db = .ok db') : EventsRecorded db db' := by
  induction events generalizing db with
  | nil =>
      obtain rfl := pure_eq_ok.1 h
      exact .refl db
  | cons event events ih =>
      simp only [indexEvents, bind_eq_ok] at h
      obtain ⟨db₁, hevent, hrest⟩ := h
      exact (indexEvent_ok hevent).trans (ih hrest)

theorem scanRuneTokenDeposits_ok {n : ℕ}
    (h : service.scanRuneTokenDeposits views db = .ok (n, db')) : EventsRecorded db db' := by
  simp only [scanRuneTokenDeposits, bind_eq_ok] at h
  obtain ⟨currentBlock, -, h⟩ := h
  split at h
  · obtain ⟨-, rfl⟩ := Prod.mk.inj (pure_eq_ok.1 h)
    exact .refl db
  · simp only [bind_eq_ok, pure_eq_ok] at h
    obtain ⟨events, -, db₁, hindex, heq⟩ := h
    obtain ⟨-, rfl⟩ := Prod.mk.inj heq
    have hrecorded := indexEvents_ok hindex
    exact ⟨hrecorded.users, hrecorded.depositAddresses, hrecorded.incomingBtcTxs,
      hrecorded.runeDeposits, hrecorded.lastScannedBlock, hrecorded.runes, hrecorded.tokens,
      hrecorded.tokens_of⟩

end RuneBridgeService

/-! ## What a transaction can do -/

section Effect

variable {Hash : Type} (service : RuneBridgeService Hash) (views : Views Hash)

/-- Everything a transaction can do to a database: a scan, or a change of a few columns of one
row. -/
inductive NodeTransaction.Effect (db : Db Hash) : NodeTransaction Hash → Db Hash → Prop
  | unchanged {t : NodeTransaction Hash} : Effect db t db
  | addresses {evmAddress : String} {users : Table String User}
      {addresses : Table String DepositAddress}
      (husers : ∀ e user, db.users.get? e = some user → users.get? e = some user)
      (haddresses : ∀ a row, db.depositAddresses.get? a = some row →
        addresses.get? a = some row) :
      Effect db (.generateDepositAddress evmAddress)
        { db with users := users, depositAddresses := addresses }
  | deposits {n : ℕ} {db' : Db Hash} (h : service.scanRuneDeposits views db = .ok (n, db')) :
      Effect db .scanRuneDeposits db'
  | tokenDeposits {n : ℕ} {db' : Db Hash}
      (h : service.scanRuneTokenDeposits views db = .ok (n, db')) :
      Effect db .scanRuneTokenDeposits db'
  | signatures {key : RuneDepositKey} (row : RuneDeposit Hash) {messageHash : Hash}
      {answers : List (SignRuneToEvmTransferAnswer Hash)} {signers signatures : List String}
      (hrow : db.runeDeposits.get? key = some row) :
      Effect db (.updateRuneDepositSignatures key messageHash answers) (db.setRuneDeposit key
        { row with
          acceptTransferMessageHash := some messageHash
          acceptTransferSigners := signers
          acceptTransferSignatures := signatures })
  | deposit {t : NodeTransaction Hash} {key : RuneDepositKey} {row : RuneDeposit Hash}
      {status : RuneDepositStatus} {evmTxHash : Option String}
      (hrow : db.runeDeposits.get? key = some row) :
      Effect db t (db.setRuneDeposit key { row with status := status, evmTxHash := evmTxHash })
  | tokenDeposit {t : NodeTransaction Hash} {key : RuneTokenDepositKey} {row : RuneTokenDeposit}
      {status : RuneTokenDepositStatus} {finalizedPsbt btcTxId : Option String}
      (hrow : db.runeTokenDeposits.get? key = some row) :
      Effect db t (db.setRuneTokenDeposit key
        { row with status := status, finalizedPsbt := finalizedPsbt, btcTxId := btcTxId })

open RuneBridgeService in
/-- **A transaction does no more than this.** -/
theorem NodeTransaction.run_effect {service : RuneBridgeService Hash} {views : Views Hash}
    {db db' : Db Hash} {t : NodeTransaction Hash} (h : t.run service views db = .ok db') :
    Effect service views db t db' := by
  cases t with
  | generateDepositAddress evmAddress =>
      simp only [NodeTransaction.run, bind_eq_ok, pure_eq_ok] at h
      obtain ⟨⟨btcAddress, db₁⟩, hgenerate, rfl⟩ := h
      obtain ⟨users, addresses, rfl, husers, haddresses⟩ := generateDepositAddress_frame hgenerate
      exact .addresses husers haddresses
  | scanRuneDeposits =>
      simp only [NodeTransaction.run, bind_eq_ok, pure_eq_ok] at h
      obtain ⟨⟨n, db₁⟩, hscan, rfl⟩ := h
      exact .deposits hscan
  | scanRuneTokenDeposits =>
      simp only [NodeTransaction.run, bind_eq_ok, pure_eq_ok] at h
      obtain ⟨⟨n, db₁⟩, hscan, rfl⟩ := h
      exact .tokenDeposits hscan
  | updateRuneDepositSignatures key messageHash answers =>
      simp only [NodeTransaction.run, bind_eq_ok, pure_eq_ok] at h
      obtain ⟨⟨ready, db₁⟩, hupdate, rfl⟩ := h
      obtain ⟨deposit, kept, numRequired, deposit', hrow, -, -, -, rfl, -, rfl⟩ :=
        updateRuneDepositSignatures_ok hupdate
      obtain ⟨added, -, heq⟩ := foldl_addSignature_eq kept
        { deposit with acceptTransferMessageHash := some messageHash }
      rw [heq]
      exact .signatures deposit hrow
  | beginSendingRuneDeposit key numRequiredSigners =>
      simp only [NodeTransaction.run, bind_eq_ok, pure_eq_ok] at h
      obtain ⟨⟨call, db₁⟩, hbegin, rfl⟩ := h
      obtain ⟨deposit, hrow, -, ⟨-, -, rfl⟩ | ⟨-, -, rfl⟩⟩ := beginSendingRuneDeposit_eq_ok.1 hbegin
      · exact .unchanged
      · exact .deposit hrow
  | failSendingRuneDeposit key =>
      obtain ⟨deposit, hrow, rfl⟩ := failSendingRuneDeposit_eq_ok.1 h
      exact .deposit hrow
  | finishSendingRuneDeposit key txHash =>
      obtain ⟨deposit, hrow, rfl⟩ := finishSendingRuneDeposit_eq_ok.1 h
      exact .deposit hrow
  | confirmRuneDeposit key updatedStatus =>
      obtain ⟨deposit, hrow, -, rfl⟩ := confirmRuneDeposit_eq_ok.1 h
      exact .deposit hrow
  | beginPayout key finalizedPsbt =>
      obtain ⟨deposit, hrow, -, rfl⟩ := beginPayout_eq_ok.1 h
      exact .tokenDeposit hrow
  | failPayout key =>
      obtain ⟨deposit, hrow, rfl⟩ := failPayout_eq_ok.1 h
      exact .tokenDeposit hrow
  | finishPayout key txid =>
      obtain ⟨deposit, hrow, -, rfl⟩ := finishPayout_eq_ok.1 h
      exact .tokenDeposit hrow

end Effect

/-! ## Rune numbers -/

/-- Runes and deposits have the numbers their rows stand under. -/
structure Db.Numbered {Hash : Type} (db : Db Hash) : Prop where
  runes : ∀ n row, db.runes.get? n = some row → row.n = n
  deposits : ∀ k row, db.runeDeposits.get? k = some row → row.rune.n = k.runeNumber

namespace Db.Numbered

open RuneBridgeService

variable {Hash : Type} {service : RuneBridgeService Hash} {views : Views Hash} {db db' : Db Hash}

lemma empty : (Db.empty : Db Hash).Numbered :=
  ⟨fun _ _ h => absurd h (by simp [Db.empty]), fun _ _ h => absurd h (by simp [Db.empty])⟩

/-- A row written under its rune's number. -/
lemma setRuneDeposit (h : db.Numbered) {key : RuneDepositKey} {row : RuneDeposit Hash}
    (hrow : row.rune.n = key.runeNumber) : (db.setRuneDeposit key row).Numbered where
  runes := h.runes
  deposits := Table.forall_get?_set h.deposits hrow

/-- A row changed but for its rune. -/
lemma changeRuneDeposit (h : db.Numbered) {key : RuneDepositKey} {row row' : RuneDeposit Hash}
    (hrow : db.runeDeposits.get? key = some row) (hrune : row'.rune = row.rune) :
    (db.setRuneDeposit key row').Numbered :=
  h.setRuneDeposit (by rw [hrune, h.deposits key row hrow])

lemma indexRunes {entries : List RuneEntry} (h : db.Numbered)
    (hindex : RuneBridgeService.indexRunes entries db = .ok db') : db'.Numbered := by
  induction entries generalizing db with
  | nil =>
      obtain rfl := pure_eq_ok.1 hindex
      exact h
  | cons entry entries ih =>
      simp only [RuneBridgeService.indexRunes, bind_eq_ok] at hindex
      obtain ⟨rune, -, hindex⟩ := hindex
      split at hindex
      · exact ih h hindex
      · refine ih ?_ hindex
        exact ⟨Table.forall_get?_set h.runes rfl, h.deposits⟩

lemma scanRuneDeposits {n : ℕ} (h : db.Numbered)
    (hscan : service.scanRuneDeposits views db = .ok (n, db')) : db'.Numbered := by
  have hrunes : ∀ n row, db'.runes.get? n = some row → row.n = n := by
    simp only [RuneBridgeService.scanRuneDeposits, indexDeposits, bind_eq_ok, exists_unit,
      require_eq_ok, pure_eq_ok] at hscan
    obtain ⟨batch, -, db₁, hindex, ⟨m, db₂⟩, htxs, -, heq⟩ := hscan
    obtain ⟨-, rfl⟩ := Prod.mk.inj heq
    exact indexTxs_runes htxs ▸ (h.indexRunes hindex).runes
  exact ⟨hrunes, scanRuneDeposits_rows (P := fun k row => row.rune.n = k.runeNumber)
    (fun _ _ _ n runeRow _ _ _ hrow => hrunes n runeRow hrow) h.deposits hscan⟩

/-- Every transaction keeps the numbers. -/
theorem run (h : db.Numbered) {t : NodeTransaction Hash}
    (ht : t.run service views db = .ok db') : db'.Numbered := by
  cases NodeTransaction.run_effect ht with
  | unchanged => exact h
  | addresses => exact ⟨h.runes, h.deposits⟩
  | deposits hscan => exact h.scanRuneDeposits hscan
  | tokenDeposits hscan =>
      have hrecorded := scanRuneTokenDeposits_ok hscan
      exact ⟨hrecorded.runes h.runes, hrecorded.runeDeposits ▸ h.deposits⟩
  | signatures row hrow => exact h.changeRuneDeposit hrow rfl
  | deposit hrow => exact h.changeRuneDeposit hrow rfl
  | tokenDeposit => exact ⟨h.runes, h.deposits⟩

end Db.Numbered

end NbteBridge
