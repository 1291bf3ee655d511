import NbteBridge.Foundations.Outbox
import NbteBridge.Node.Retries
import NbteBridge.Node.TransactionEffects

/-!
# Submissions of a leader

A mint is submitted, and a payout broadcast, between two database transactions, and either may have
happened although it raised.  What keeps a deposit from being submitted twice is the status of its
row: the first transaction takes it out of `ACCEPTED`, a submission follows only on the return of
that transaction, and nothing brings a row back (`leader_submits_at_most_once`).

The statuses are the stages of an outbox.  Nearly all the calls of an iteration stay within it
(`NodeOp.Within`), and those around a submission settle the one deposit it is for.
-/

namespace NbteBridge

open Checked Effects Outboxes Tables RuneBridgeService

/-! ## The outbox of a node -/

/-- What a node submits: the mint of a deposit, or the payout of a token deposit. -/
inductive Submission
  | mint (key : RuneDepositKey)
  | payout (key : RuneTokenDepositKey)
  deriving DecidableEq

def RuneDepositStatus.stage : RuneDepositStatus → Stage
  | detected => .new
  | accepted => .ready
  | sendingToEvm => .taken
  | _ => .settled

def RuneTokenDepositStatus.stage : RuneTokenDepositStatus → Stage
  | detected => .new
  | accepted => .ready
  | sendingToBtc => .taken
  | _ => .settled

@[simp] lemma RuneDepositStatus.stage_eq_new {s : RuneDepositStatus} :
    s.stage = .new ↔ s = .detected := by
  cases s <;> decide

@[simp] lemma RuneDepositStatus.stage_eq_ready {s : RuneDepositStatus} :
    s.stage = .ready ↔ s = .accepted := by
  cases s <;> decide

@[simp] lemma RuneDepositStatus.stage_eq_taken {s : RuneDepositStatus} :
    s.stage = .taken ↔ s = .sendingToEvm := by
  cases s <;> decide

@[simp] lemma RuneTokenDepositStatus.stage_eq_new {s : RuneTokenDepositStatus} :
    s.stage = .new ↔ s = .detected := by
  cases s <;> decide

@[simp] lemma RuneTokenDepositStatus.stage_eq_ready {s : RuneTokenDepositStatus} :
    s.stage = .ready ↔ s = .accepted := by
  cases s <;> decide

@[simp] lemma RuneTokenDepositStatus.stage_eq_taken {s : RuneTokenDepositStatus} :
    s.stage = .taken ↔ s = .sendingToBtc := by
  cases s <;> decide

/-- The deposit a mint is of. -/
def AcceptTransferCall.key (call : AcceptTransferCall) : RuneDepositKey :=
  ⟨call.btcTxid, call.btcVout, call.runeNumber⟩

variable {Hash : Type}

def Db.stage (db : Db Hash) : Submission → Stage
  | .mint key => ((db.runeDeposits.get? key).map fun row => row.status.stage).getD .new
  | .payout key => ((db.runeTokenDeposits.get? key).map fun row => row.status.stage).getD .new

def NodeState.submissions (s : NodeState Hash) : Submission → ℕ
  | .mint key => s.transacted.countP fun call => call.key = key
  | .payout key => s.broadcast.countP fun p => p.1 = key

def NodeState.outbox : Outbox (NodeState Hash) Submission :=
  ⟨fun s => s.db.stage, NodeState.submissions⟩

/-- Between two database states nothing goes back, and only what `Mine` holds of is settled. -/
def Db.Advances (Mine : Submission → Prop) (db db' : Db Hash) : Prop :=
  ∀ k, (db.stage k).Advances (db'.stage k) ∨ (Mine k ∧ db'.stage k = .settled)

/-- A call that submits nothing. -/
def NodeOp.Within (Mine : Submission → Prop) : NodeOp Hash → Prop
  | .transaction body => ∀ views db b db', body views db = .ok (b, db') → db.Advances Mine db'
  | .transact .. => False
  | .broadcastPsbt .. => False
  | _ => True

/-- A call that brings nothing back. -/
def NodeOp.Forward : NodeOp Hash → Prop
  | .transaction body => ∀ views db b db', body views db = .ok (b, db') →
      ∀ k, db.stage k ≤ db'.stage k
  | _ => True

/-! ## Rows -/

namespace Db

variable {Mine : Submission → Prop} {db db' : Db Hash}

lemma stage_setRuneDeposit (db : Db Hash) (key : RuneDepositKey) (row : RuneDeposit Hash)
    (k : Submission) :
    (db.setRuneDeposit key row).stage k =
      if k = .mint key then row.status.stage else db.stage k := by
  cases k with
  | mint key' =>
      by_cases hkey : key' = key
      · simp [stage, setRuneDeposit, hkey]
      · simp [stage, setRuneDeposit, hkey]
  | payout key' => simp [stage, setRuneDeposit]

lemma stage_setRuneTokenDeposit (db : Db Hash) (key : RuneTokenDepositKey)
    (row : RuneTokenDeposit) (k : Submission) :
    (db.setRuneTokenDeposit key row).stage k =
      if k = .payout key then row.status.stage else db.stage k := by
  cases k with
  | mint key' => simp [stage, setRuneTokenDeposit]
  | payout key' =>
      by_cases hkey : key' = key
      · simp [stage, setRuneTokenDeposit, hkey]
      · simp [stage, setRuneTokenDeposit, hkey]

lemma stage_mint {key : RuneDepositKey} {row : RuneDeposit Hash}
    (h : db.runeDeposits.get? key = some row) : db.stage (.mint key) = row.status.stage := by
  simp [stage, h]

lemma stage_payout {key : RuneTokenDepositKey} {row : RuneTokenDeposit}
    (h : db.runeTokenDeposits.get? key = some row) : db.stage (.payout key) = row.status.stage := by
  simp [stage, h]

/-- A deposit at a later stage than the first has a row. -/
lemma exists_row_mint {key : RuneDepositKey} (h : db.stage (.mint key) ≠ .new) :
    ∃ row, db.runeDeposits.get? key = some row ∧ row.status.stage = db.stage (.mint key) := by
  cases hrow : db.runeDeposits.get? key with
  | none => exact absurd (by simp [stage, hrow]) h
  | some row => exact ⟨row, rfl, (stage_mint hrow).symm⟩

lemma exists_row_payout {key : RuneTokenDepositKey} (h : db.stage (.payout key) ≠ .new) :
    ∃ row, db.runeTokenDeposits.get? key = some row ∧
      row.status.stage = db.stage (.payout key) := by
  cases hrow : db.runeTokenDeposits.get? key with
  | none => exact absurd (by simp [stage, hrow]) h
  | some row => exact ⟨row, rfl, (stage_payout hrow).symm⟩

namespace Advances

lemma of_stage (h : db'.stage = db.stage) : db.Advances Mine db' := by
  intro k
  rw [h]
  exact .inl (.refl _)

lemma refl (db : Db Hash) : db.Advances Mine db := of_stage rfl

/-- One row is written. -/
lemma setRuneDeposit {key : RuneDepositKey} {row row' : RuneDeposit Hash}
    (hrow : db.runeDeposits.get? key = some row)
    (h : row.status.stage.Advances row'.status.stage ∨
      (Mine (.mint key) ∧ row'.status.stage = .settled)) :
    db.Advances Mine (db.setRuneDeposit key row') := by
  intro k
  rw [stage_setRuneDeposit]
  by_cases hk : k = .mint key
  · rw [if_pos hk, hk, stage_mint hrow]
    exact h
  · rw [if_neg hk]
    exact .inl (.refl _)

lemma setRuneTokenDeposit {key : RuneTokenDepositKey} {row row' : RuneTokenDeposit}
    (hrow : db.runeTokenDeposits.get? key = some row)
    (h : row.status.stage.Advances row'.status.stage ∨
      (Mine (.payout key) ∧ row'.status.stage = .settled)) :
    db.Advances Mine (db.setRuneTokenDeposit key row') := by
  intro k
  rw [stage_setRuneTokenDeposit]
  by_cases hk : k = .payout key
  · rw [if_pos hk, hk, stage_payout hrow]
    exact h
  · rw [if_neg hk]
    exact .inl (.refl _)

/-- **A scan of Bitcoin.** -/
lemma of_scanKept (h : ScanKept db db') : db.Advances Mine db' := by
  intro k
  left
  cases k with
  | payout key =>
      rw [stage, stage, h.runeTokenDeposits]
      exact .refl _
  | mint key =>
      cases hrow' : db'.runeDeposits.get? key with
      | none =>
          cases hrow : db.runeDeposits.get? key with
          | none =>
              rw [stage, stage, hrow, hrow']
              exact .refl _
          | some row =>
              obtain ⟨row', hsome, -⟩ := h.deposits key row hrow
              rw [hrow'] at hsome
              cases hsome
      | some row' =>
          rw [stage_mint hrow']
          rcases h.deposits_of key row' hrow' with ⟨row, hrow, hkept⟩ | ⟨hnone, huntouched⟩
          · rw [stage_mint hrow]
            rcases hkept.status with hsame | ⟨hdetected, haccepted⟩
            · rw [hsame]
              exact .refl _
            · rw [hdetected, haccepted]
              exact Stage.new_advances_ready
          · have hnew : db.stage (.mint key) = .new := by simp [stage, hnone]
            rw [hnew]
            rcases huntouched.status with hstatus | hstatus
            · rw [hstatus]
              exact .inl rfl
            · rw [hstatus]
              exact Stage.new_advances_ready

/-- **A scan of the EVM chain.** -/
lemma of_eventsRecorded (h : EventsRecorded db db') : db.Advances Mine db' := by
  intro k
  left
  cases k with
  | mint key =>
      rw [stage, stage, h.runeDeposits]
      exact .refl _
  | payout key =>
      cases hrow' : db'.runeTokenDeposits.get? key with
      | none =>
          cases hrow : db.runeTokenDeposits.get? key with
          | none =>
              rw [stage, stage, hrow, hrow']
              exact .refl _
          | some row =>
              rw [h.tokens key row hrow] at hrow'
              cases hrow'
      | some row' =>
          rw [stage_payout hrow']
          rcases h.tokens_of key row' hrow' with hrow | ⟨hnone, hnew⟩
          · rw [stage_payout hrow]
            exact .refl _
          · have hstage : db.stage (.payout key) = .new := by simp [stage, hnone]
            rw [hstage, hnew.status]
            exact Stage.new_advances_ready

lemma of_generateDepositAddress {service : RuneBridgeService Hash} {evmAddress btcAddress : String}
    (h : service.generateDepositAddress evmAddress db = .ok (btcAddress, db')) :
    db.Advances Mine db' := by
  obtain ⟨users, addresses, rfl, -, -⟩ := generateDepositAddress_frame h
  apply of_stage
  funext k
  cases k with
  | mint key => rfl
  | payout key => rfl

end Advances

end Db

/-! ## Calls -/

section Calls

variable {Mine : Submission → Prop} {α β : Type} {m : Surroundings Hash} {s s' : NodeState Hash}

lemma NodeOp.Within.forward {o : NodeOp Hash} (h : o.Within Mine) : o.Forward := by
  cases o with
  | transaction body =>
      intro views db b db' hbody k
      rcases h views db b db' hbody k with hadvances | ⟨-, hsettled⟩
      · exact hadvances.le
      · rw [hsettled]
        exact Stage.le_settled _
  | _ => trivial

lemma NodeOp.Within.mono {Mine' : Submission → Prop} {o : NodeOp Hash} (h : o.Within Mine)
    (hmine : ∀ k, Mine k → Mine' k) : o.Within Mine' := by
  cases o with
  | transaction body =>
      intro views db b db' hbody k
      exact (h views db b db' hbody k).imp_right fun hk => ⟨hmine k hk.1, hk.2⟩
  | transact call nonce => exact h
  | broadcastPsbt key psbt => exact h
  | _ => trivial

/-- The database is all that a state's stages depend on. -/
lemma NodeState.advances_of_db {db : Db Hash} (h : s.db.Advances Mine db) :
    NodeState.outbox.Advances Mine s { s with db := db } where
  submissions k := by
    cases k with
    | mint key => rfl
    | payout key => rfl
  stage := h

/-- A transaction takes effect as a whole, or not at all. -/
lemma NodeState.handle_transaction {body : Views Hash → Db Hash → PyResult (β × Db Hash)}
    {r : PyResult β} (h : NodeState.handle m s (.transaction body) = (r, s')) :
    s' = s ∨ ∃ b db, body m.views s.db = .ok (b, db) ∧ s' = { s with db := db } := by
  rw [handle] at h
  cases hbody : body m.views s.db with
  | error e =>
      rw [hbody] at h
      exact .inl (Prod.mk.inj h).2.symm
  | ok result =>
      obtain ⟨b, db⟩ := result
      rw [hbody] at h
      cases hcommit : m.commit with
      | done =>
          simp only [hcommit] at h
          exact .inr ⟨b, db, rfl, (Prod.mk.inj h).2.symm⟩
      | refused e =>
          simp only [hcommit] at h
          exact .inl (Prod.mk.inj h).2.symm
      | unacknowledged e =>
          simp only [hcommit] at h
          exact .inr ⟨b, db, rfl, (Prod.mk.inj h).2.symm⟩

/-- **Calls within.** -/
lemma NodeState.advances_handle {o : NodeOp Hash} {r : PyResult o.Resp} (ho : o.Within Mine)
    (h : NodeState.handle m s o = (r, s')) : NodeState.outbox.Advances Mine s s' := by
  have hsame : NodeState.outbox.Advances Mine s s := advances_of_db (Db.Advances.refl s.db)
  cases o with
  | transaction body =>
      rcases handle_transaction h with rfl | ⟨b, db, hbody, rfl⟩
      · exact hsame
      · exact advances_of_db (ho m.views s.db b db hbody)
  | transact call nonce => exact ho.elim
  | broadcastPsbt key psbt => exact ho.elim
  | _ =>
      obtain ⟨-, rfl⟩ := Prod.mk.inj h
      exact hsame

lemma NodeState.forward_handle {o : NodeOp Hash} {r : PyResult o.Resp} (ho : o.Forward)
    (h : NodeState.handle m s o = (r, s')) (k : Submission) : s.db.stage k ≤ s'.db.stage k := by
  cases o with
  | transaction body =>
      rcases handle_transaction h with rfl | ⟨b, db, hbody, rfl⟩
      · exact Stage.le_refl _
      · exact ho m.views s.db b db hbody k
  | _ =>
      obtain ⟨-, rfl⟩ := Prod.mk.inj h
      exact Stage.le_refl _

/-- The return of a transaction means that it was committed. -/
lemma NodeState.db_of_handle {body : Views Hash → Db Hash → PyResult (β × Db Hash)} {b : β}
    (h : NodeState.handle m s (.transaction body) = (.ok b, s')) :
    body m.views s.db = .ok (b, s'.db) := by
  rw [handle] at h
  cases hbody : body m.views s.db with
  | error e =>
      rw [hbody] at h
      cases (Prod.mk.inj h).1
  | ok result =>
      obtain ⟨b', db⟩ := result
      rw [hbody] at h
      cases hcommit : m.commit with
      | done =>
          simp only [hcommit] at h
          obtain ⟨hb, rfl⟩ := Prod.mk.inj h
          rw [Except.ok.inj hb]
      | refused e =>
          simp only [hcommit] at h
          cases (Prod.mk.inj h).1
      | unacknowledged e =>
          simp only [hcommit] at h
          cases (Prod.mk.inj h).1

end Calls

/-! ## Programs within -/

namespace NodeProg

variable {Mine : Submission → Prop} {β : Type}

lemma within_query (body : Views Hash → Db Hash → PyResult β) :
    (query body).Calls (NodeOp.Within Mine) := by
  apply Prog.calls_perform
  intro views db b db' h
  simp only [bind_eq_ok, pure_eq_ok] at h
  obtain ⟨b', -, heq⟩ := h
  obtain ⟨-, rfl⟩ := Prod.mk.inj heq
  exact .refl db

lemma within_update {body : Db Hash → PyResult (Db Hash)}
    (h : ∀ db db', body db = .ok db' → db.Advances Mine db') :
    (update body).Calls (NodeOp.Within Mine) := by
  apply Prog.calls_perform
  intro views db b db' hbody
  simp only [bind_eq_ok, pure_eq_ok] at hbody
  obtain ⟨db₁, hbody, heq⟩ := hbody
  obtain ⟨-, rfl⟩ := Prod.mk.inj heq
  exact h db db₁ hbody

lemma within_read (query : Views Hash → PyResult β) :
    (read query).Calls (NodeOp.Within Mine) := Prog.calls_perform trivial

lemma within_check : (check : NodeProg Hash Unit).Calls (NodeOp.Within Mine) :=
  Prog.calls_perform trivial

lemma within_askMint (message : SignRuneToEvmTransferQuestion) :
    (askMint message : NodeProg Hash _).Calls (NodeOp.Within Mine) := Prog.calls_perform trivial

lemma within_askPayout (message : SignRuneTokenToBtcTransferQuestion) :
    (askPayout message : NodeProg Hash _).Calls (NodeOp.Within Mine) := Prog.calls_perform trivial

lemma within_sendMessage : (sendMessage : NodeProg Hash Unit).Calls (NodeOp.Within Mine) :=
  Prog.calls_perform trivial

end NodeProg

namespace RuneBridgeService

variable {service : RuneBridgeService Hash} {Mine : Submission → Prop}

lemma within_confirmSentRuneDeposit (key : RuneDepositKey) :
    (confirmSentRuneDeposit key : NodeProg Hash Unit).Calls (NodeOp.Within Mine) := by
  apply Prog.calls_bind (NodeProg.within_query _)
  intro deposit
  split
  · apply Prog.calls_bind (NodeProg.within_read _)
    intro receipt
    split
    · trivial
    · rename_i status hstatus
      apply Prog.calls_bind NodeProg.within_sendMessage
      intro _
      apply NodeProg.within_update
      intro db db' h
      obtain ⟨row, hrow, hsent, rfl⟩ := confirmRuneDeposit_eq_ok.1 h
      apply Db.Advances.setRuneDeposit hrow
      -- a receipt moves a sent deposit to one of two statuses, settled like the one it had
      left
      left
      rw [hsent]
      cases receipt with
      | none => cases hstatus
      | some succeeded =>
          cases succeeded with
          | true => rw [← Option.some.inj hstatus]; rfl
          | false => rw [← Option.some.inj hstatus]; rfl
  · trivial

lemma within_confirmSentRuneDeposits :
    (confirmSentRuneDeposits : NodeProg Hash Unit).Calls (NodeOp.Within Mine) := by
  apply Prog.calls_bind (NodeProg.within_query _)
  intro ids
  apply Prog.calls_forEach
  intro key
  exact within_confirmSentRuneDeposit key

lemma within_scanRuneDeposits :
    (NodeProg.transaction fun views db => service.scanRuneDeposits views db).Calls
      (NodeOp.Within Mine) := by
  apply Prog.calls_perform
  intro views db n db' h
  exact .of_scanKept (scanRuneDeposits_kept h)

lemma within_scanRuneTokenDeposits :
    (NodeProg.transaction fun views db => service.scanRuneTokenDeposits views db).Calls
      (NodeOp.Within Mine) := by
  apply Prog.calls_perform
  intro views db n db' h
  exact .of_eventsRecorded (scanRuneTokenDeposits_ok h)

lemma within_updateRuneDepositSignatures (key : RuneDepositKey) (messageHash : Hash)
    (answers : List (SignRuneToEvmTransferAnswer Hash)) :
    (NodeProg.transaction fun views db =>
      service.updateRuneDepositSignatures views key messageHash answers db).Calls
      (NodeOp.Within Mine) := by
  apply Prog.calls_perform
  intro views db ready db' h
  obtain ⟨deposit, kept, numRequired, deposit', hrow, -, -, -, rfl, -, rfl⟩ :=
    updateRuneDepositSignatures_ok h
  obtain ⟨added, -, heq⟩ := foldl_addSignature_eq kept
    { deposit with acceptTransferMessageHash := some messageHash }
  apply Db.Advances.setRuneDeposit hrow
  rw [heq]
  exact .inl (.refl _)

lemma within_beginSendingRuneDeposit (key : RuneDepositKey) (numRequiredSigners : ℕ) :
    (NodeProg.transaction fun _ (db : Db Hash) =>
      beginSendingRuneDeposit key numRequiredSigners db).Calls (NodeOp.Within Mine) := by
  apply Prog.calls_perform
  intro views db call db' h
  obtain ⟨row, hrow, haccepted, ⟨-, -, rfl⟩ | ⟨-, -, rfl⟩⟩ := beginSendingRuneDeposit_eq_ok.1 h
  · exact .refl _
  · apply Db.Advances.setRuneDeposit hrow
    rw [haccepted]
    exact .inl Stage.ready_advances_taken

lemma within_failSendingRuneDeposit {key : RuneDepositKey} (hkey : Mine (.mint key)) :
    (NodeProg.update (failSendingRuneDeposit key) : NodeProg Hash Unit).Calls
      (NodeOp.Within Mine) := by
  apply NodeProg.within_update
  intro db db' h
  obtain ⟨row, hrow, rfl⟩ := failSendingRuneDeposit_eq_ok.1 h
  exact Db.Advances.setRuneDeposit hrow (.inr ⟨hkey, rfl⟩)

lemma within_finishSendingRuneDeposit {key : RuneDepositKey} {txHash : String}
    (hkey : Mine (.mint key)) :
    (NodeProg.update (finishSendingRuneDeposit key txHash) : NodeProg Hash Unit).Calls
      (NodeOp.Within Mine) := by
  apply NodeProg.within_update
  intro db db' h
  obtain ⟨row, hrow, rfl⟩ := finishSendingRuneDeposit_eq_ok.1 h
  exact Db.Advances.setRuneDeposit hrow (.inr ⟨hkey, rfl⟩)

lemma within_prepareSubmission :
    (prepareSubmission : NodeProg Hash ℕ).Calls (NodeOp.Within Mine) := by
  apply Prog.Calls.mono calls_prepareSubmission
  intro o ho
  cases o with
  | read query => trivial
  | _ => exact ho.elim

lemma within_beginPayout (key : RuneTokenDepositKey) (finalizedPsbt : Psbt) :
    (NodeProg.update (service.beginPayout key finalizedPsbt)).Calls (NodeOp.Within Mine) := by
  apply NodeProg.within_update
  intro db db' h
  obtain ⟨row, hrow, haccepted, rfl⟩ := beginPayout_eq_ok.1 h
  apply Db.Advances.setRuneTokenDeposit hrow
  rw [haccepted]
  exact .inl Stage.ready_advances_taken

lemma within_failPayout {key : RuneTokenDepositKey} (hkey : Mine (.payout key)) :
    (NodeProg.update (failPayout key) : NodeProg Hash Unit).Calls (NodeOp.Within Mine) := by
  apply NodeProg.within_update
  intro db db' h
  obtain ⟨row, hrow, rfl⟩ := failPayout_eq_ok.1 h
  exact Db.Advances.setRuneTokenDeposit hrow (.inr ⟨hkey, rfl⟩)

lemma within_finishPayout {key : RuneTokenDepositKey} {txid : String} (hkey : Mine (.payout key)) :
    (NodeProg.update (finishPayout key txid) : NodeProg Hash Unit).Calls
      (NodeOp.Within Mine) := by
  apply NodeProg.within_update
  intro db db' h
  obtain ⟨row, hrow, -, rfl⟩ := finishPayout_eq_ok.1 h
  exact Db.Advances.setRuneTokenDeposit hrow (.inr ⟨hkey, rfl⟩)

end RuneBridgeService

/-! ## The node in its world -/

/-- What happens to a node's state between its calls: the API hands out deposit addresses. -/
def NodeState.Moves (service : RuneBridgeService Hash) (s s' : NodeState Hash) : Prop :=
  ∃ evmAddress btcAddress db, service.generateDepositAddress evmAddress s.db = .ok (btcAddress, db) ∧
    s' = { s with db := db }

/-- The world of a node: any call may meet anything. -/
def NodeState.world (service : RuneBridgeService Hash) :
    Effects.World (NodeOp Hash) NodeOp.Resp PyError (NodeState Hash) :=
  .ofHandler NodeState.handle (NodeState.Moves service)

/-- When nothing can be reached. -/
def Surroundings.outage : Surroundings Hash :=
  let e : PyError := .other "timeout"
  { views :=
      { bitcoinRpc := ⟨.error e, fun _ => .error e, fun _ _ => .error e⟩
        ordClient := ⟨fun _ => .error e, fun _ _ => .error e⟩
        ordSynced := .error e
        evm := ⟨.error e, fun _ _ => .error e, .error e, .error e, .error e, .error e,
          fun _ => .error e⟩
        contract := ⟨fun _ => .error e, fun _ => .error e, .error e, fun _ => .error e, .error e,
          fun _ _ _ _ _ => .error e⟩
        feeSatsPerVb := .error e }
    commit := .refused e
    check := .error e
    askMint := .error e
    askPayout := .error e
    transact := .error e
    broadcastPsbt := .error e
    sendMessage := .error e }

/-- No deposit has left `ACCEPTED`, and nothing was submitted. -/
structure NodeState.NothingSubmitted (s : NodeState Hash) : Prop where
  stage : ∀ k, s.db.stage k ≤ .ready
  transacted : s.transacted = []
  broadcast : s.broadcast = []

section Submissions

variable {service : RuneBridgeService Hash} {Mine : Submission → Prop} {k : Submission} {α β : Type}
  {s s' : NodeState Hash}

lemma NodeState.Moves.advances (h : NodeState.Moves service s s') :
    NodeState.outbox.Advances Mine s s' := by
  obtain ⟨evmAddress, btcAddress, db, hgenerate, rfl⟩ := h
  exact advances_of_db (.of_generateDepositAddress hgenerate)

lemma NodeState.NothingSubmitted.safe (h : s.NothingSubmitted) : NodeState.outbox.Safe s := by
  intro k
  have hzero : NodeState.outbox.submissions s k = 0 := by
    cases k with
    | mint key =>
        show s.transacted.countP _ = 0
        rw [h.transacted, List.countP_nil]
    | payout key =>
        show s.broadcast.countP _ = 0
        rw [h.broadcast, List.countP_nil]
  rw [hzero]
  exact Stage.allows_zero (Nat.le_succ_of_le (h.stage k))

/-- **Programs within** keep what advances keep. -/
lemma holds_within {p : NodeProg Hash α} {J : NodeState Hash → Prop}
    (hp : p.Calls (NodeOp.Within Mine))
    (hsafe : ∀ s, J s → NodeState.outbox.Safe s ∧ ∀ k, Mine k → NodeState.outbox.submissions s k = 1)
    (hkept : ∀ s s', J s → NodeState.outbox.Safe s' → NodeState.outbox.Advances Mine s s' → J s')
    (hs : J s) :
    Holds (NodeState.world service) NodeState.outbox.Safe p (fun _ => J) s := by
  have hadvances : ∀ s s', J s → NodeState.outbox.Advances Mine s s' →
      NodeState.outbox.Safe s' ∧ J s' := by
    intro s s' hj h
    have hsafe' := (hsafe s hj).1.advances h (hsafe s hj).2
    exact ⟨hsafe', hkept s s' hj hsafe' h⟩
  apply Holds.of_calls hp
  · intro s s' hj hmoves
    exact (hadvances s s' hj (NodeState.Moves.advances hmoves)).2
  · rintro s o r s' ho hj ⟨m, hhandle⟩
    exact hadvances s s' hj (NodeState.advances_handle ho hhandle)
  · exact hs

/-- Safety alone is kept when nothing is settled. -/
lemma holds_safe {p : NodeProg Hash α} (hp : p.Calls (NodeOp.Within fun _ => False))
    (hs : NodeState.outbox.Safe s) :
    Holds (NodeState.world service) NodeState.outbox.Safe p (fun _ => NodeState.outbox.Safe) s :=
  holds_within hp (fun _ hj => ⟨hj, fun _ hk => hk.elim⟩) (fun _ _ _ hsafe _ => hsafe) hs

/-- After a submission, its deposit may be settled. -/
lemma holds_submitted {p : NodeProg Hash α} (hp : p.Calls (NodeOp.Within (· = k)))
    (hs : NodeState.outbox.Safe s ∧ NodeState.outbox.submissions s k = 1) :
    Holds (NodeState.world service) NodeState.outbox.Safe p
      (fun _ s => NodeState.outbox.Safe s ∧ NodeState.outbox.submissions s k = 1) s := by
  refine holds_within hp (fun s hj => ⟨hj.1, fun k' hk => hk ▸ hj.2⟩) ?_ hs
  intro s s' hj hsafe hadvances
  exact ⟨hsafe, (hadvances.submissions k).trans hj.2⟩

/-- Before a submission, nothing is settled. -/
lemma holds_fresh {p : NodeProg Hash α} (hp : p.Calls (NodeOp.Within fun _ => False))
    (hs : NodeState.outbox.Safe s ∧ NodeState.outbox.Fresh k s) :
    Holds (NodeState.world service) NodeState.outbox.Safe p
      (fun _ s => NodeState.outbox.Safe s ∧ NodeState.outbox.Fresh k s) s := by
  refine holds_within hp (fun s hj => ⟨hj.1, fun k' hk => hk.elim⟩) ?_ hs
  intro s s' hj hsafe hadvances
  exact ⟨hsafe, hj.2.advances hadvances (fun hk => hk)⟩

/-- A call of a state that may have waited. -/
lemma safe_of_waits (hs : NodeState.outbox.Safe s) (hwait : (NodeState.world service).Waits s s') :
    NodeState.outbox.Safe s' := by
  induction hwait with
  | refl => exact hs
  | tail _ hmoves ih =>
      have hadvances : NodeState.outbox.Advances (fun _ => False) _ _ :=
        NodeState.Moves.advances hmoves
      exact ih.advances hadvances fun k hk => hk.elim

lemma fresh_of_waits (hs : NodeState.outbox.Fresh k s)
    (hwait : (NodeState.world service).Waits s s') : NodeState.outbox.Fresh k s' := by
  induction hwait with
  | refl => exact hs
  | tail _ hmoves ih =>
      have hadvances : NodeState.outbox.Advances (fun _ => False) _ _ :=
        NodeState.Moves.advances hmoves
      exact ih.advances hadvances fun hk => hk

/-- **Taking a deposit out.**  When the transaction returns, what it took is to be submitted;
`Nothing` is what it returns when it takes nothing. -/
lemma holds_take {body : Views Hash → Db Hash → PyResult (β × Db Hash)} {Nothing Taken : β → Prop}
    (hwithin : (NodeProg.transaction body).Calls (NodeOp.Within fun _ => False))
    (htake : ∀ views db b db', body views db = .ok (b, db') →
      Nothing b ∨ (Taken b ∧ db.stage k = .ready ∧ db'.stage k = .taken))
    (hs : NodeState.outbox.Safe s) :
    Holds (NodeState.world service) NodeState.outbox.Safe (NodeProg.transaction body)
      (fun r s => NodeState.outbox.Safe s ∧
        ∀ b, r = .ok b → Nothing b ∨ (Taken b ∧ NodeState.outbox.Fresh k s)) s := by
  apply holds_perform.2
  rintro s₁ hwait r s₂ ⟨m, hhandle⟩
  have hs₁ := safe_of_waits hs hwait
  have hadvances := NodeState.advances_handle hwithin.1 hhandle
  have hs₂ := hs₁.advances hadvances fun k hk => hk.elim
  refine ⟨hs₂, hs₂, ?_⟩
  rintro b rfl
  rcases htake _ _ _ _ (NodeState.db_of_handle hhandle) with hnothing | ⟨htaken, hready, hstage⟩
  · exact .inl hnothing
  · exact .inr ⟨htaken, hs₁.fresh hadvances hready hstage⟩

/-! ## Submissions -/

lemma submits_transact {call : AcceptTransferCall} {nonce : ℕ} {m : Surroundings Hash}
    {r : PyResult String} (h : NodeState.handle m s (.transact call nonce) = (r, s')) :
    NodeState.outbox.Submits (.mint call.key) s s' := by
  obtain ⟨-, rfl⟩ := Prod.mk.inj h
  have happend (key : RuneDepositKey) :
      (s.transacted ++ [call]).countP (fun call => call.key = key) =
        s.transacted.countP (fun call => call.key = key) + if call.key = key then 1 else 0 := by
    rw [List.countP_append, List.countP_singleton]
    simp
  refine ⟨fun _ => rfl, ?_, ?_⟩
  · exact (happend call.key).trans (by rw [if_pos rfl]; rfl)
  · rintro (key | key) hk
    · refine (happend key).trans ?_
      rw [if_neg fun hkey => hk (by rw [hkey])]
      rfl
    · rfl

lemma submits_broadcastPsbt {key : RuneTokenDepositKey} {psbt : Psbt} {m : Surroundings Hash}
    {r : PyResult String} (h : NodeState.handle m s (.broadcastPsbt key psbt) = (r, s')) :
    NodeState.outbox.Submits (.payout key) s s' := by
  obtain ⟨-, rfl⟩ := Prod.mk.inj h
  have happend (key' : RuneTokenDepositKey) :
      (s.broadcast ++ [(key, psbt)]).countP (fun p => p.1 = key') =
        s.broadcast.countP (fun p => p.1 = key') + if key = key' then 1 else 0 := by
    rw [List.countP_append, List.countP_singleton]
    simp
  refine ⟨fun _ => rfl, ?_, ?_⟩
  · exact (happend key).trans (by rw [if_pos rfl]; rfl)
  · rintro (key' | key') hk
    · rfl
    · refine (happend key').trans ?_
      rw [if_neg fun hkey => hk (by rw [hkey])]
      rfl

/-- A submission of what was taken is the first. -/
lemma holds_submit {o : NodeOp Hash}
    (hsubmits : ∀ m s r s', NodeState.handle m s o = (r, s') → NodeState.outbox.Submits k s s')
    (hs : NodeState.outbox.Safe s ∧ NodeState.outbox.Fresh k s) :
    Holds (NodeState.world service) NodeState.outbox.Safe (Prog.perform o)
      (fun _ s => NodeState.outbox.Safe s ∧ NodeState.outbox.submissions s k = 1) s := by
  apply holds_perform.2
  rintro s₁ hwait r s₂ ⟨m, hhandle⟩
  have hsafe := (safe_of_waits hs.1 hwait).submits (fresh_of_waits hs.2 hwait)
    (hsubmits m s₁ r s₂ hhandle)
  exact ⟨hsafe.1, hsafe⟩

end Submissions

/-! ## Programs of a leader -/

/-- A program that brings nothing back and is safe wherever it starts. -/
structure SafeProgram {α : Type} (service : RuneBridgeService Hash) (p : NodeProg Hash α) : Prop where
  forward : p.Calls NodeOp.Forward
  safe : ∀ s, NodeState.outbox.Safe s →
    Holds (NodeState.world service) NodeState.outbox.Safe p (fun _ => NodeState.outbox.Safe) s

namespace SafeProgram

variable {service : RuneBridgeService Hash} {α β : Type}

lemma of_within {p : NodeProg Hash α} (hp : p.Calls (NodeOp.Within fun _ => False)) :
    SafeProgram service p where
  forward := hp.mono fun _ ho => ho.forward
  safe _ hs := holds_safe hp hs

lemma pure (a : α) : SafeProgram service (Pure.pure a : NodeProg Hash α) := of_within trivial

lemma bind {p : NodeProg Hash β} {f : β → NodeProg Hash α} (hp : SafeProgram service p)
    (hf : ∀ b, SafeProgram service (f b)) : SafeProgram service (p >>= f) where
  forward := Prog.calls_bind hp.forward fun b => (hf b).forward
  safe s hs := (hp.safe s hs).seq fun b => (hf b).safe

lemma query_bind {body : Views Hash → Db Hash → PyResult β} {f : β → NodeProg Hash α}
    (hf : ∀ b, SafeProgram service (f b)) : SafeProgram service (NodeProg.query body >>= f) :=
  (of_within (NodeProg.within_query body)).bind hf

lemma read_bind {query : Views Hash → PyResult β} {f : β → NodeProg Hash α}
    (hf : ∀ b, SafeProgram service (f b)) : SafeProgram service (NodeProg.read query >>= f) :=
  (of_within (NodeProg.within_read query)).bind hf

lemma lift_bind {x : PyResult β} {f : β → NodeProg Hash α}
    (hf : ∀ b, SafeProgram service (f b)) : SafeProgram service (Prog.lift x >>= f) :=
  (of_within Prog.calls_lift).bind hf

lemma logged {p : NodeProg Hash Unit} (hp : SafeProgram service p) :
    SafeProgram service (RuneBridgeService.logged p) where
  forward := Prog.calls_tryCatch hp.forward fun _ => trivial
  safe s hs := (hp.safe s hs).handle fun _ _ hs => hs

lemma forEach {f : β → NodeProg Hash Unit} (hf : ∀ b, SafeProgram service (f b)) (bs : List β) :
    SafeProgram service (Prog.forEach f bs) where
  forward := Prog.calls_forEach (fun b => (hf b).forward) bs
  safe _ hs := Holds.forEach (fun b _ => (hf b).safe) hs

end SafeProgram

section Leader

variable {service : RuneBridgeService Hash} {s : NodeState Hash}

/-- What is recorded of a mint's submission. -/
lemma within_submitRuneDeposit_rest {key : RuneDepositKey} {txHash : String} :
    (NodeProg.update (finishSendingRuneDeposit key txHash) >>= fun _ =>
      (confirmSentRuneDeposit key : NodeProg Hash Unit)).Calls
        (NodeOp.Within (· = .mint key)) :=
  Prog.calls_bind (within_finishSendingRuneDeposit rfl) fun _ => within_confirmSentRuneDeposit key

lemma within_submitRuneDeposit_handler {key : RuneDepositKey} (e : PyError) :
    (NodeProg.update (failSendingRuneDeposit key) >>= fun _ => NodeProg.sendMessage >>= fun _ =>
      (throw e : NodeProg Hash String)).Calls (NodeOp.Within (· = .mint key)) := by
  apply Prog.calls_bind
  · exact within_failSendingRuneDeposit rfl
  · intro _
    exact Prog.calls_bind NodeProg.within_sendMessage fun _ => trivial

/-- The submission of a mint that was taken out. -/
lemma holds_submitRuneDeposit {call : AcceptTransferCall} {nonce : ℕ}
    (hs : NodeState.outbox.Safe s ∧ NodeState.outbox.Fresh (.mint call.key) s) :
    Holds (NodeState.world service) NodeState.outbox.Safe (submitRuneDeposit call.key call nonce)
      (fun _ s => NodeState.outbox.Safe s ∧
        NodeState.outbox.submissions s (.mint call.key) = 1) s := by
  apply Holds.seq
  · apply Holds.handle
    · apply Holds.seq (holds_submit (fun m s r s' => submits_transact) hs)
      intro txHash s' hs'
      apply holds_submitted _ hs'
      exact Prog.calls_bind NodeProg.within_sendMessage fun _ => trivial
    · intro e s' hs'
      exact holds_submitted (within_submitRuneDeposit_handler e) hs'
  · intro txHash s' hs'
    exact holds_submitted within_submitRuneDeposit_rest hs'

lemma forward_submitRuneDeposit {key : RuneDepositKey} {call : AcceptTransferCall} {nonce : ℕ} :
    (submitRuneDeposit key call nonce : NodeProg Hash Unit).Calls NodeOp.Forward := by
  apply Prog.calls_bind
  · apply Prog.calls_tryCatch
    · apply Prog.calls_bind (Prog.calls_perform trivial)
      intro txHash
      exact Prog.calls_bind (Prog.calls_perform trivial) fun _ => trivial
    · intro e
      exact (within_submitRuneDeposit_handler e).mono fun _ ho => ho.forward
  · intro txHash
    exact within_submitRuneDeposit_rest.mono fun _ ho => ho.forward

/-- **Mints.** -/
lemma safeProgram_sendRuneDepositToEvm (key : RuneDepositKey) :
    SafeProgram service (sendRuneDepositToEvm key) := by
  apply SafeProgram.read_bind
  intro frozen
  split
  · exact .pure ()
  apply SafeProgram.read_bind
  intro numRequiredSigners
  have hbegin := @within_beginSendingRuneDeposit Hash (fun _ => False) key numRequiredSigners
  constructor
  · apply Prog.calls_bind (hbegin.mono fun _ ho => ho.forward)
    intro call
    cases call with
    | none => trivial
    | some call =>
        have hprepare := @within_prepareSubmission Hash fun _ => False
        apply Prog.calls_bind (hprepare.mono fun _ ho => ho.forward)
        intro nonce
        exact forward_submitRuneDeposit
  · intro s hs
    apply holds_bind.2
    have htaken := @holds_take _ service (.mint key) _ s _ (fun call => call = none)
      (fun call => ∀ c, call = some c → c.key = key) hbegin ?_ hs
    · refine htaken.mono ?_
      rintro (e | call) s' ⟨hs', hcall⟩
      · exact hs'
      cases call with
      | none => exact hs'
      | some call =>
          rcases hcall _ rfl with hnone | ⟨hkey, hfresh⟩
          · cases hnone
          obtain rfl := hkey call rfl
          have hprepare := @holds_fresh _ service (.mint call.key) _ s' _ within_prepareSubmission
            ⟨hs', hfresh⟩
          apply holds_bind.2
          refine hprepare.mono ?_
          rintro (e | nonce) s'' hs''
          · exact hs''.1
          · exact (holds_submitRuneDeposit hs'').mono fun _ _ hsub => hsub.1
    · intro views db call db' h
      obtain ⟨row, hrow, haccepted, ⟨-, hnone, -⟩ | ⟨-, rfl, rfl⟩⟩ :=
        beginSendingRuneDeposit_eq_ok.1 h
      · exact .inl hnone
      · refine .inr ⟨?_, ?_, ?_⟩
        · rintro c ⟨⟩
          rfl
        · rw [Db.stage_mint hrow, haccepted]
          rfl
        · rw [Db.stage_setRuneDeposit, if_pos rfl]
          rfl

/-- **Payouts.** -/
lemma safeProgram_broadcastPayout (key : RuneTokenDepositKey) (finalizedPsbt : Psbt) :
    SafeProgram service (service.broadcastPayout key finalizedPsbt) := by
  have hbegin := @within_beginPayout Hash service (fun _ => False) key finalizedPsbt
  have hfail (e : PyError) : (NodeProg.update (failPayout key) >>= fun _ =>
      (throw e : NodeProg Hash String)).Calls (NodeOp.Within (· = .payout key)) :=
    Prog.calls_bind (within_failPayout rfl) fun _ => trivial
  have hfinish (txid : String) : (NodeProg.sendMessage >>= fun _ =>
      (NodeProg.update (finishPayout key txid) : NodeProg Hash Unit)).Calls
        (NodeOp.Within (· = .payout key)) :=
    Prog.calls_bind NodeProg.within_sendMessage fun _ => within_finishPayout rfl
  constructor
  · apply Prog.calls_bind (hbegin.mono fun _ ho => ho.forward)
    intro _
    apply Prog.calls_bind
    · apply Prog.calls_tryCatch (Prog.calls_perform trivial)
      exact fun e => (hfail e).mono fun _ ho => ho.forward
    · exact fun txid => (hfinish txid).mono fun _ ho => ho.forward
  · intro s hs
    apply holds_bind.2
    have htaken := @holds_take _ service (.payout key) _ s _ (fun _ => False) (fun _ => True)
      hbegin ?_ hs
    · refine htaken.mono ?_
      rintro (e | u) s' ⟨hs', hfresh⟩
      · exact hs'
      rcases hfresh _ rfl with hnothing | ⟨-, hfresh⟩
      · exact hnothing.elim
      refine Holds.mono (Q := fun _ s => NodeState.outbox.Safe s ∧
        NodeState.outbox.submissions s (.payout key) = 1) ?_ fun _ _ hsub => hsub.1
      apply Holds.seq
      · apply Holds.handle (holds_submit (fun m s r s' => submits_broadcastPsbt) ⟨hs', hfresh⟩)
        exact fun e s'' hs'' => holds_submitted (hfail e) hs''
      · exact fun txid s'' hs'' => holds_submitted (hfinish txid) hs''
    · intro views db u db' h
      simp only [bind_eq_ok, pure_eq_ok] at h
      obtain ⟨db₁, hbody, heq⟩ := h
      obtain ⟨-, rfl⟩ := Prod.mk.inj heq
      obtain ⟨row, hrow, haccepted, rfl⟩ := beginPayout_eq_ok.1 hbody
      refine .inr ⟨trivial, ?_, ?_⟩
      · rw [Db.stage_payout hrow, haccepted]
        rfl
      · rw [Db.stage_setRuneTokenDeposit, if_pos rfl]
        rfl

lemma safeProgram_handleRuneTransferToEvm (key : RuneDepositKey) :
    SafeProgram service (service.handleRuneTransferToEvm key) := by
  apply SafeProgram.query_bind
  intro valid
  split
  · apply SafeProgram.query_bind
    intro message
    apply SafeProgram.read_bind
    intro selfResponse
    apply SafeProgram.bind (.of_within (NodeProg.within_askMint message))
    intro responses
    apply SafeProgram.bind (.of_within (within_updateRuneDepositSignatures _ _ _))
    intro readyToSend
    split
    · exact safeProgram_sendRuneDepositToEvm key
    · exact .pure ()
  · exact .pure ()

lemma safeProgram_handleAcceptedRuneTokenDeposit (key : RuneTokenDepositKey) :
    SafeProgram service (service.handleAcceptedRuneTokenDeposit key) := by
  apply SafeProgram.query_bind
  intro transfer
  apply SafeProgram.read_bind
  rintro ⟨unsignedPsbt, message⟩
  apply SafeProgram.query_bind
  intro selfResponse
  apply SafeProgram.lift_bind
  intro selfSignedPsbt
  apply SafeProgram.bind (.of_within (NodeProg.within_askPayout message))
  intro responses
  apply SafeProgram.lift_bind
  intro finalizedPsbt
  cases finalizedPsbt with
  | none => exact .pure ()
  | some finalizedPsbt => exact safeProgram_broadcastPayout key finalizedPsbt

theorem safeProgram_runIteration (isLeader : Bool) :
    SafeProgram service (service.runIteration isLeader) := by
  apply SafeProgram.bind (.of_within NodeProg.within_check)
  intro _
  apply SafeProgram.bind (.of_within within_scanRuneDeposits)
  intro _
  apply SafeProgram.bind (.of_within within_scanRuneTokenDeposits)
  intro _
  apply SafeProgram.bind (.of_within within_confirmSentRuneDeposits)
  intro _
  split
  · apply SafeProgram.read_bind
    intro frozen
    split
    · exact .pure ()
    · apply SafeProgram.bind
      · apply SafeProgram.query_bind
        exact fun ids => .forEach (fun key => (safeProgram_handleRuneTransferToEvm key).logged) ids
      · intro _
        apply SafeProgram.query_bind
        exact fun ids =>
          .forEach (fun key => (safeProgram_handleAcceptedRuneTokenDeposit key).logged) ids
  · exact .pure ()

end Leader

/-! ## At most once -/

/-- What holds of a process that runs iterations: how often each deposit was submitted, what is
stored when one is about to be, and what a step does to the rows. -/
structure SubmitsAtMostOnce (service : RuneBridgeService Hash) (isLeader : Bool)
    (c : Process (NodeOp Hash) NodeOp.Resp PyError (NodeState Hash)) : Prop where
  mints : ∀ key, (c.world.transacted.countP fun call => call.key = key) ≤ 1
  payouts : ∀ key, (c.world.broadcast.countP fun p => p.1 = key) ≤ 1
  mint_sending : ∀ call nonce next, c.running = some (.call (.transact call nonce) next) →
    ∃ row, c.world.db.runeDeposits.get? call.key = some row ∧ row.status = .sendingToEvm
  payout_sending : ∀ key psbt next, c.running = some (.call (.broadcastPsbt key psbt) next) →
    ∃ row, c.world.db.runeTokenDeposits.get? key = some row ∧ row.status = .sendingToBtc
  deposits : ∀ c', c.Step (NodeState.world service) (service.runIteration isLeader) c' →
    ∀ key row, c.world.db.runeDeposits.get? key = some row → row.status ≠ .detected →
      ∃ row', c'.world.db.runeDeposits.get? key = some row' ∧ row'.status ≠ .detected ∧
        (row.status ≠ .accepted → row'.status ≠ .accepted)
  tokenDeposits : ∀ c', c.Step (NodeState.world service) (service.runIteration isLeader) c' →
    ∀ key row, c.world.db.runeTokenDeposits.get? key = some row → row.status ≠ .detected →
      ∃ row', c'.world.db.runeTokenDeposits.get? key = some row' ∧ row'.status ≠ .detected ∧
        (row.status ≠ .accepted → row'.status ≠ .accepted)

section Runs

variable {service : RuneBridgeService Hash} {isLeader : Bool}
  {c c' : Process (NodeOp Hash) NodeOp.Resp PyError (NodeState Hash)}

lemma safe_of_running
    (h : Running (NodeState.world service) (service.runIteration isLeader)
      NodeState.NothingSubmitted c) :
    NodeState.outbox.Safe c.world := by
  apply h.invariant
  · exact fun s hs => hs.safe
  · intro s s' hs hmoves
    exact safe_of_waits hs (.single hmoves)
  · intro s hs
    exact ((safeProgram_runIteration isLeader).safe s hs).mono fun _ _ _ => trivial

lemma forward_of_step
    (h : Running (NodeState.world service) (service.runIteration isLeader)
      NodeState.NothingSubmitted c)
    (hs : c.Step (NodeState.world service) (service.runIteration isLeader) c') (k : Submission) :
    c.world.db.stage k ≤ c'.world.db.stage k := by
  have hcalls := h.calls (safeProgram_runIteration isLeader).forward
  cases hs with
  | @call s s' o next r does =>
      obtain ⟨m, hhandle⟩ := does
      exact NodeState.forward_handle (hcalls _ rfl).1 hhandle k
  | @move s s' moves running =>
      have hadvances : NodeState.outbox.Advances (fun _ => False) s s' :=
        NodeState.Moves.advances moves
      exact hadvances.le k
  | _ => exact Stage.le_refl _

/-- When a submission is about to happen, its deposit is taken out. -/
lemma taken_of_running {o : NodeOp Hash} {next : PyResult o.Resp → NodeProg Hash Unit}
    {k : Submission}
    (h : Running (NodeState.world service) (service.runIteration isLeader)
      NodeState.NothingSubmitted c)
    (hnext : c.running = some (.call o next)) (m : Surroundings Hash)
    (hsubmits : ∀ r s', NodeState.handle m c.world o = (r, s') →
      NodeState.outbox.Submits k c.world s') :
    c.world.db.stage k = .taken := by
  obtain ⟨s, running⟩ := c
  obtain rfl : running = some (.call o next) := hnext
  -- the submission leads to a state that is safe as well
  have hafter := h.step (.call ⟨m, rfl⟩)
  exact (safe_of_running h).stage_of_submits (safe_of_running hafter) (hsubmits _ _ rfl)

/-- **At-most-once submission by one leader.**  In every run, whatever the calls meet and wherever
the process stops, at most one mint is submitted for each deposit and at most one transaction
broadcast for each token deposit, only with the row stored as being sent; and no step brings a row
back that left `ACCEPTED`. -/
theorem leader_submits_at_most_once
    (h : Running (NodeState.world service) (service.runIteration isLeader)
      NodeState.NothingSubmitted c) :
    SubmitsAtMostOnce service isLeader c where
  mints key := (safe_of_running h (.mint key)).le_one
  payouts key := (safe_of_running h (.payout key)).le_one
  mint_sending call nonce next hnext := by
    have htaken := taken_of_running h hnext .outage fun r s' => submits_transact
    obtain ⟨row, hrow, hstage⟩ := Db.exists_row_mint (by rw [htaken]; decide)
    exact ⟨row, hrow, RuneDepositStatus.stage_eq_taken.1 (hstage.trans htaken)⟩
  payout_sending key psbt next hnext := by
    have htaken := taken_of_running h hnext .outage fun r s' => submits_broadcastPsbt
    obtain ⟨row, hrow, hstage⟩ := Db.exists_row_payout (by rw [htaken]; decide)
    exact ⟨row, hrow, RuneTokenDepositStatus.stage_eq_taken.1 (hstage.trans htaken)⟩
  deposits c' hs key row hrow hdetected := by
    have hle := forward_of_step h hs (.mint key)
    rw [Db.stage_mint hrow] at hle
    have hnew : row.status.stage ≠ .new := by simpa using hdetected
    have hnew' := Stage.ne_new_of_le hle hnew
    obtain ⟨row', hrow', hstage⟩ := Db.exists_row_mint hnew'
    rw [← hstage] at hle hnew'
    refine ⟨row', hrow', by simpa using hnew', ?_⟩
    intro haccepted
    have hready := Stage.ne_ready_of_le hle hnew (by simpa using haccepted)
    simpa using hready
  tokenDeposits c' hs key row hrow hdetected := by
    have hle := forward_of_step h hs (.payout key)
    rw [Db.stage_payout hrow] at hle
    have hnew : row.status.stage ≠ .new := by simpa using hdetected
    have hnew' := Stage.ne_new_of_le hle hnew
    obtain ⟨row', hrow', hstage⟩ := Db.exists_row_payout hnew'
    rw [← hstage] at hle hnew'
    refine ⟨row', hrow', by simpa using hnew', ?_⟩
    intro haccepted
    have hready := Stage.ne_ready_of_le hle hnew (by simpa using haccepted)
    simpa using hready

end Runs

namespace ExampleNode

/-- The eight units on the first output of the wallet, accepted and to be minted. -/
def acceptedDeposit : RuneDeposit Bytes where
  blockNumber := 5
  rune := runeRow
  user := user
  incomingBtcTx := ⟨"aa", 0⟩
  postage := 10000
  transferAmountRaw := 8
  netAmountRaw := 6
  evmTxHash := none
  acceptTransferMessageHash := none
  acceptTransferSignatures := []
  acceptTransferSigners := []
  status := .accepted

def acceptedState : NodeState Bytes where
  db := Db.empty.setRuneDeposit ⟨"aa", 0, 0⟩ acceptedDeposit
  transacted := []
  broadcast := []

/-- The only federator, which gets no answer to its submissions. -/
def noAnswers : Surroundings Bytes where
  views := views ['4']
  commit := .done
  check := .ok ()
  askMint := .ok []
  askPayout := .ok []
  transact := .error (.other "timeout")
  broadcastPsbt := .error (.other "timeout")
  sendMessage := .ok ()

/-- The leader after a number of iterations. -/
def afterIterations : ℕ → NodeState Bytes
  | 0 => acceptedState
  | n + 1 => (NodeState.eval ((service '4' []).runIteration true) (fun _ => noAnswers)
      (afterIterations n)).2

lemma nothingSubmitted_acceptedState : acceptedState.NothingSubmitted where
  stage k := by
    rw [acceptedState, Db.stage_setRuneDeposit]
    split
    · decide
    · cases k with
      | mint key => exact Nat.zero_le _
      | payout key => exact Nat.zero_le _
  transacted := rfl
  broadcast := rfl

lemma running_afterIterations (n : ℕ) :
    Running (NodeState.world (service '4' [])) ((service '4' []).runIteration true)
      NodeState.NothingSubmitted ⟨afterIterations n, none⟩ := by
  induction n with
  | zero => exact .init nothingSubmitted_acceptedState
  | succ n ih =>
      have hstart := ih.step (.start _)
      exact Running.eval hstart

end ExampleNode

/-- After a second iteration there is still one mint. -/
theorem leader_submits_at_most_once_example :
    (ExampleNode.afterIterations 2).transacted.length = 1 ∧
      SubmitsAtMostOnce (ExampleNode.service '4' []) true ⟨ExampleNode.afterIterations 2, none⟩ :=
  ⟨by decide +kernel, leader_submits_at_most_once (ExampleNode.running_afterIterations 2)⟩

end NbteBridge
