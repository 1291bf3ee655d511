import NbteBridge.TapRsk.Batches

/-!
# What the leader sends is what was deposited

Whatever the leader has sent to the bridge is the transfer of a row (`sent_of_running`).  The
transactions of the service leave the deposits as they are; what is sent is read from the rows.
-/

namespace NbteBridge

open Checked Effects Tables

variable {Hash Sig : Type}

/-- What the rows ask for, in the order they were added. -/
def TapDb.deposits (db : TapDb Hash Sig) : List TransferFromTap :=
  db.transfers.rows.map fun p => p.2.toTransferFromTap

/-- A call that leaves the deposits alone, and sends nothing. -/
def TapOp.KeepsDeposits : TapOp Hash Sig → Prop
  | .transaction body => ∀ σ db b db', body σ db = .ok (b, db') → db'.deposits = db.deposits
  | .transact .. => False
  | _ => True

/-- A call that leaves the deposits alone, whatever it sends. -/
def TapOp.KeepsRows : TapOp Hash Sig → Prop
  | .transaction body => ∀ σ db b db', body σ db = .ok (b, db') → db'.deposits = db.deposits
  | _ => True

lemma TapOp.KeepsDeposits.keepsRows {o : TapOp Hash Sig} (h : o.KeepsDeposits) : o.KeepsRows := by
  cases o with
  | transaction body => exact h
  | _ => trivial

namespace TapDb

lemma deposits_assign (db : TapDb Hash Sig) (dbIds : List ℕ) (batchId : ℕ) :
    (db.assign dbIds batchId).deposits = db.deposits := by
  simp only [deposits, assign, Table.mapRows, List.map_map]
  refine List.map_congr_left fun p _ => ?_
  show (if p.1 ∈ dbIds then { p.2 with transferBatchId := some batchId } else
    p.2).toTransferFromTap = _
  split_ifs <;> rfl

lemma deposits_setTransfer {db : TapDb Hash Sig} {dbId : ℕ} {t : TapToRskTransfer}
    (hnew : db.transfers.get? dbId = none) :
    (db.setTransfer dbId t).deposits = db.deposits ++ [t.toTransferFromTap] := by
  rw [deposits, setTransfer, Table.rows_set_of_get?_eq_none t hnew, List.map_append]
  rfl

end TapDb

/-! ## The calls of the service -/

namespace TapToRskService

variable {service : TapToRskService Hash Sig} {i : ℕ}

lemma calls_transaction {β : Type}
    {body : Ordering → TapDb Hash Sig → PyResult (β × TapDb Hash Sig)}
    (h : ∀ σ db b db', body σ db = .ok (b, db') → db'.deposits = db.deposits) :
    (TapProg.transaction body).Calls TapOp.KeepsDeposits := Prog.calls_perform h

lemma currentBatch_keepsDeposits [DecidableEq Hash] {σ : Ordering} {db db' : TapDb Hash Sig}
    {current : Option (CurrentBatch Hash Sig)}
    (h : service.currentBatch σ db = .ok (current, db')) : db'.deposits = db.deposits := by
  simp only [currentBatch, bind_eq_ok, pure_eq_ok, Prod.exists, Prod.mk.injEq] at h
  obtain ⟨_, db₁, hcurrent, -, rfl⟩ := h
  rw [getOrCreateCurrentBatch] at hcurrent
  split at hcurrent
  · obtain ⟨-, rfl⟩ := Prod.mk.inj (pure_eq_ok.1 hcurrent)
    rfl
  · split at hcurrent
    · obtain ⟨-, rfl⟩ := Prod.mk.inj (pure_eq_ok.1 hcurrent)
      rfl
    · simp only [bind_eq_ok, exists_unit, pure_eq_ok, Prod.mk.injEq] at hcurrent
      obtain ⟨-, -, rfl⟩ := hcurrent
      exact TapDb.deposits_assign _ _ _

lemma checkSignatures_keepsDeposits (signer : Address)
    (pairs : List (SerializedTapToRskTransfer Hash × Sig)) :
    (service.checkSignatures signer pairs).Calls TapOp.KeepsDeposits := by
  induction pairs with
  | nil => trivial
  | cons pair pairs ih =>
      refine Prog.calls_bind (Prog.calls_perform trivial) fun messageHash => ?_
      refine Prog.calls_bind Prog.calls_lift fun recovered => ?_
      split_ifs
      · trivial
      · exact ih

lemma collectSignatures_keepsDeposits (federators : List Address) (current : CurrentBatch Hash Sig)
    (signatures : Table Address (List Sig)) (responses : List (SignTransferBatchAnswer Sig)) :
    (service.collectSignatures federators current signatures responses).Calls
      TapOp.KeepsDeposits := by
  induction responses generalizing signatures with
  | nil => trivial
  | cons response responses ih =>
      rw [collectSignatures]
      by_cases hfederator : response.signer ∉ federators
      · rw [if_pos hfederator]
        exact ih _
      rw [if_neg hfederator]
      by_cases hlength : response.signatures.length ≠ current.numTransfers
      · rw [if_pos hlength]
        exact ih _
      rw [if_neg hlength]
      exact Prog.calls_bind (checkSignatures_keepsDeposits _ _) fun ok => ih _

lemma collect_keepsDeposits (current : CurrentBatch Hash Sig) :
    (service.collect current).Calls TapOp.KeepsDeposits := by
  rw [collect]
  refine Prog.calls_bind (Prog.calls_perform trivial) fun federators => ?_
  refine Prog.calls_bind (Prog.calls_perform trivial) fun numRequiredSigners => ?_
  refine Prog.calls_bind (Prog.calls_perform trivial) fun responses => ?_
  refine Prog.calls_bind (collectSignatures_keepsDeposits _ _ _ _) fun signatures => ?_
  refine Prog.calls_bind (calls_transaction ?_) fun status => trivial
  intro _ db status db' h
  simp only [storeSignatures, bind_eq_ok, pure_eq_ok, Prod.mk.injEq] at h
  obtain ⟨b, -, -, rfl⟩ := h
  rfl

lemma finalize_keepsDeposits (i : ℕ) :
    (finalize i : TapProg Hash Sig Unit).Calls TapOp.KeepsDeposits := by
  rw [finalize]
  refine Prog.calls_bind (calls_transaction ?_) fun txHash => ?_
  · intro _ db _ db' h
    simp only [bind_eq_ok, pure_eq_ok, Prod.mk.injEq] at h
    obtain ⟨b, -, -, rfl⟩ := h
    rfl
  refine Prog.calls_bind (Prog.calls_perform trivial) fun status => ?_
  have hlast : (TapProg.transaction fun _ db => do
      let batch ← db.getBatch i
      pure ((), db.setBatch i { batch with status := .finalized }) :
        TapProg Hash Sig Unit).Calls TapOp.KeepsDeposits := by
    refine calls_transaction ?_
    intro _ db _ db' h
    simp only [bind_eq_ok, pure_eq_ok, Prod.mk.injEq] at h
    obtain ⟨b, -, -, rfl⟩ := h
    rfl
  split_ifs
  · trivial
  · exact hlast

/-- What `sendAll` sends. -/
lemma sendAll_calls (i : ℕ) (calls : List (TransferFromTap × List Sig)) :
    (sendAll i calls : TapProg Hash Sig (List ℕ)).Calls
      fun o => ∃ t signatures, (t, signatures) ∈ calls ∧ o = .transact i t signatures := by
  induction calls with
  | nil => trivial
  | cons call calls ih =>
      obtain ⟨t, signatures⟩ := call
      rw [sendAll]
      refine Prog.calls_bind (Prog.calls_perform ⟨t, signatures, by simp, rfl⟩) fun txHash => ?_
      refine Prog.calls_bind (ih.mono ?_) fun txHashes => trivial
      rintro o ⟨t', signatures', hmem, rfl⟩
      exact ⟨t', signatures', List.mem_cons_of_mem _ hmem, rfl⟩

lemma finishSending_keepsDeposits (i : ℕ) (txHashes : List ℕ) :
    (TapProg.transaction fun _ db => finishSending i txHashes db :
      TapProg Hash Sig TapToRskTransferBatchStatus).Calls TapOp.KeepsDeposits := by
  refine calls_transaction ?_
  intro _ db _ db' h
  simp only [finishSending, bind_eq_ok, pure_eq_ok, Prod.mk.injEq] at h
  obtain ⟨b, -, txHash, -, -, rfl⟩ := h
  rfl

lemma send_keepsRows (i : ℕ) (signatures : Table Address (List Sig)) :
    (send i signatures : TapProg Hash Sig TapToRskTransferBatchStatus).Calls
      TapOp.KeepsRows := by
  rw [send]
  refine Prog.calls_bind (Prog.calls_perform ?_) fun calls => ?_
  · intro σ db calls db' h
    simp only [startSending, bind_eq_ok, pure_eq_ok, Prod.mk.injEq] at h
    obtain ⟨b, -, -, rfl⟩ := h
    rfl
  refine Prog.calls_bind ((sendAll_calls i calls).mono ?_) fun txHashes => ?_
  · rintro o ⟨t, signatures, -, rfl⟩
    trivial
  · exact (finishSending_keepsDeposits i txHashes).mono fun o ho => ho.keepsRows

variable (service) in
/-- **The service** leaves the deposits alone. -/
lemma processCurrentTransferBatch_keepsRows [DecidableEq Hash] :
    service.processCurrentTransferBatch.Calls TapOp.KeepsRows := by
  rw [processCurrentTransferBatch]
  refine Prog.calls_bind (Prog.calls_perform ?_) fun current => ?_
  · exact fun σ db current db' h => currentBatch_keepsDeposits h
  cases current with
  | none => trivial
  | some current =>
      show (service.processBatch current).Calls TapOp.KeepsRows
      rw [processBatch]
      refine Prog.calls_bind ?_ fun collected => ?_
      · split_ifs
        · exact (collect_keepsDeposits current).mono fun o ho => ho.keepsRows
        · trivial
      obtain ⟨status, signatures⟩ := collected
      refine Prog.calls_bind ?_ fun status => ?_
      · by_cases hcollected : status = .signaturesCollected
        · simp only [if_pos hcollected]
          exact send_keepsRows _ _
        · simp only [if_neg hcollected]
          trivial
      by_cases hsending : status = .sendingToRsk
      · simp only [if_pos hsending]
        trivial
      · simp only [if_neg hsending]
        by_cases hsent : status = .sentToRsk
        · simp only [if_pos hsent]
          exact (finalize_keepsDeposits _).mono fun o ho => ho.keepsRows
        · simp only [if_neg hsent]
          trivial

end TapToRskService

/-! ## Runs -/

namespace TapLeader

variable {C : Crypto Hash Sig} {rskAccount : Address} {service : TapToRskService Hash Sig}
  {s s' : TapLeader Hash Sig}

/-- Everything sent is the transfer of a row. -/
def FromRows (s : TapLeader Hash Sig) : Prop := ∀ tx ∈ s.sent, tx.transfer ∈ s.db.deposits

/-- And so are these calls. -/
def FromRowsWith (calls : List (TransferFromTap × List Sig)) (s : TapLeader Hash Sig) : Prop :=
  FromRows s ∧ ∀ c ∈ calls, c.1 ∈ s.db.deposits

lemma FromRows.with_nil (hs : FromRows s) : FromRowsWith [] s := ⟨hs, by simp⟩

/-- The world's moves add deposits, and send nothing. -/
lemma Moves.deposits (h : Moves C rskAccount s s') :
    (∃ new, s'.db.deposits = s.db.deposits ++ new) ∧
      ∀ tx' ∈ s'.sent, ∃ tx ∈ s.sent, tx'.transfer = tx.transfer := by
  cases h with
  | called _ => exact ⟨⟨[], (List.append_nil _).symm⟩, fun tx htx => ⟨tx, htx, rfl⟩⟩
  | mined hi _ _ =>
      refine ⟨⟨[], (List.append_nil _).symm⟩, fun tx' htx' => ?_⟩
      rcases List.mem_or_eq_of_mem_set htx' with htx' | rfl
      · exact ⟨tx', htx', rfl⟩
      · exact ⟨_, List.mem_of_getElem? hi, rfl⟩
  | reverted hi _ =>
      refine ⟨⟨[], (List.append_nil _).symm⟩, fun tx' htx' => ?_⟩
      rcases List.mem_or_eq_of_mem_set htx' with htx' | rfl
      · exact ⟨tx', htx', rfl⟩
      · exact ⟨_, List.mem_of_getElem? hi, rfl⟩
  | deposited hnew _ _ =>
      exact ⟨⟨_, TapDb.deposits_setTransfer hnew⟩, fun tx htx => ⟨tx, htx, rfl⟩⟩
  | answered _ _ => exact ⟨⟨[], (List.append_nil _).symm⟩, fun tx htx => ⟨tx, htx, rfl⟩⟩

lemma Moves.fromRows {calls : List (TransferFromTap × List Sig)} (hs : FromRowsWith calls s)
    (h : Moves C rskAccount s s') : FromRowsWith calls s' := by
  obtain ⟨⟨new, hdeposits⟩, hsent⟩ := h.deposits
  constructor
  · intro tx' htx'
    obtain ⟨tx, htx, heq⟩ := hsent tx' htx'
    rw [heq, hdeposits]
    exact List.mem_append_left _ (hs.1 tx htx)
  · intro c hc
    rw [hdeposits]
    exact List.mem_append_left _ (hs.2 c hc)

/-- A call that leaves the deposits alone. -/
lemma Does.keepsDeposits {o : TapOp Hash Sig} {r : PyResult o.Resp} (ho : o.KeepsDeposits)
    (h : Does C s o r s') : s'.db.deposits = s.db.deposits ∧ s'.sent = s.sent := by
  have hsent {r : o.Resp} {sent : List (SentTx Sig)} (hanswer : s.Answers C o r sent) :
      sent = s.sent := by
    cases o with
    | transaction body => exact hanswer.elim
    | transact batchId t signatures => exact ho.elim
    | ask serializedBatch => exact hanswer
    | getFederators => exact hanswer.2
    | numRequiredSigners => exact hanswer.2
    | getTransferFromTapMessageHash t => exact hanswer.2
    | waitForTransactionReceipt txHash => exact hanswer.2
  cases h with
  | committed hbody => exact ⟨ho _ _ _ _ hbody, rfl⟩
  | commitRaised hbody e => exact ⟨ho _ _ _ _ hbody, rfl⟩
  | answered hanswer => exact ⟨rfl, hsent hanswer⟩
  | answerRaised hanswer e => exact ⟨rfl, hsent hanswer⟩
  | raised _ e => exact ⟨rfl, rfl⟩

/-- What a program keeps whose calls leave the deposits alone. -/
lemma fromRows_of_calls {α : Type} {p : TapProg Hash Sig α}
    (hp : p.Calls TapOp.KeepsDeposits) {calls : List (TransferFromTap × List Sig)}
    (hs : FromRowsWith calls s) :
    Holds (world C rskAccount) FromRows p (fun _ => FromRowsWith calls) s := by
  refine Holds.of_calls hp (fun s s' hs hmove => Moves.fromRows hs hmove) ?_ hs
  intro s o r s' ho hs hdoes
  obtain ⟨hdeposits, hsent⟩ := hdoes.keepsDeposits ho
  have hrows : FromRowsWith calls s' := by
    rw [FromRowsWith, FromRows, hdeposits, hsent]
    exact hs
  exact ⟨hrows.1, hrows⟩

lemma fromRows_sendAll {i : ℕ} {calls : List (TransferFromTap × List Sig)}
    (hs : FromRowsWith calls s) :
    Holds (world C rskAccount) FromRows (TapToRskService.sendAll i calls)
      (fun _ => FromRowsWith calls) s := by
  refine Holds.of_calls (TapToRskService.sendAll_calls i calls)
    (fun s s' hs hmove => Moves.fromRows hs hmove) ?_ hs
  rintro s o r s' ⟨t, signatures, hmem, rfl⟩ hs hdoes
  have hadded : ∀ {r : ℕ} {sent : List (SentTx Sig)},
      s.Answers C (.transact i t signatures) r sent →
      FromRowsWith calls { s with sent := sent } := by
    rintro r sent ⟨-, rfl⟩
    refine ⟨fun tx htx => ?_, hs.2⟩
    rcases List.mem_append.1 htx with htx | htx
    · exact hs.1 tx htx
    · rw [List.mem_singleton.1 htx]
      exact hs.2 _ hmem
  cases hdoes with
  | answered hanswer => exact ⟨(hadded hanswer).1, hadded hanswer⟩
  | answerRaised hanswer e => exact ⟨(hadded hanswer).1, hadded hanswer⟩
  | raised _ e => exact ⟨hs.1, hs⟩

/-- The transaction that fixes what is sent. -/
lemma fromRows_startSending {i : ℕ} {signatures : Table Address (List Sig)} (hs : FromRows s) :
    Ensures (world C rskAccount) FromRows
      (TapProg.transaction fun σ db => TapToRskService.startSending i signatures σ db)
      (fun calls => FromRowsWith calls) s := by
  have hbody : ∀ σ (s₁ : TapLeader Hash Sig) calls db, FromRows s₁ →
      TapToRskService.startSending i signatures σ s₁.db = .ok (calls, db) →
      FromRowsWith calls { s₁ with db := db } := by
    intro σ s₁ calls db hs₁ hstart
    simp only [TapToRskService.startSending, bind_eq_ok, pure_eq_ok, Prod.mk.injEq] at hstart
    obtain ⟨b, -, rfl, rfl⟩ := hstart
    refine ⟨hs₁, fun c hc => ?_⟩
    obtain ⟨t, ht, heq⟩ := List.mem_map.1 (List.of_mem_zip hc).1
    obtain ⟨p, hp, rfl⟩ := List.mem_map.1 ht
    have hrow := (List.mem_filter.1 ((σ.perm _).mem_iff.1 hp)).1
    rw [← heq]
    exact List.mem_map.2 ⟨p, hrow, rfl⟩
  apply ensures_perform
  intro s₁ hwait r s₂ hdoes
  have hs₁ : FromRowsWith [] s₁ := by
    clear hdoes
    induction hwait with
    | refl => exact hs.with_nil
    | tail _ hmove ih => exact Moves.fromRows ih hmove
  cases hdoes with
  | committed hok =>
      refine ⟨(hbody _ _ _ _ hs₁.1 hok).1, ?_⟩
      rintro a ⟨⟩
      exact hbody _ _ _ _ hs₁.1 hok
  | commitRaised hok e =>
      refine ⟨(hbody _ _ _ _ hs₁.1 hok).1, ?_⟩
      rintro a ⟨⟩
  | answered hanswer => exact hanswer.elim
  | answerRaised hanswer e => exact hanswer.elim
  | raised _ e =>
      refine ⟨hs₁.1, ?_⟩
      rintro a ⟨⟩

lemma fromRows_send {i : ℕ} {signatures : Table Address (List Sig)} (hs : FromRows s) :
    Ensures (world C rskAccount) FromRows (TapToRskService.send i signatures)
      (fun _ => FromRows) s := by
  rw [TapToRskService.send]
  apply Ensures.bind (fromRows_startSending hs)
  intro calls s₁ hs₁
  apply Ensures.bind (R := fun _ => FromRowsWith calls)
  · exact (fromRows_sendAll hs₁).mono fun r s hs a _ => hs
  intro txHashes s₂ hs₂
  have hcalls := @TapToRskService.finishSending_keepsDeposits Hash Sig i txHashes
  exact (fromRows_of_calls hcalls hs₂).mono fun r s hs a _ => hs.1

lemma fromRows_processBatch {current : CurrentBatch Hash Sig} (hs : FromRows s) :
    Ensures (world C rskAccount) FromRows (service.processBatch current)
      (fun _ _ => True) s := by
  have hof {α : Type} {p : TapProg Hash Sig α} (hp : p.Calls TapOp.KeepsDeposits)
      {s : TapLeader Hash Sig} (hs : FromRows s) :
      Ensures (world C rskAccount) FromRows p (fun _ => FromRows) s :=
    (fromRows_of_calls hp hs.with_nil).mono fun r s hs a _ => hs.1
  rw [TapToRskService.processBatch]
  apply Ensures.bind (R := fun _ => FromRows)
  · split_ifs
    · exact hof (TapToRskService.collect_keepsDeposits current) hs
    · exact ensures_pure.2 hs
  rintro ⟨status, signatures⟩ s₁ hs₁
  apply Ensures.bind (R := fun _ => FromRows)
  · by_cases hcollected : status = .signaturesCollected
    · simp only [if_pos hcollected]
      exact fromRows_send hs₁
    · simp only [if_neg hcollected]
      exact ensures_pure.2 hs₁
  intro status s₂ hs₂
  by_cases hsending : status = .sendingToRsk
  · simp only [if_pos hsending]
    exact ensures_throw
  · simp only [if_neg hsending]
    by_cases hsent : status = .sentToRsk
    · simp only [if_pos hsent]
      exact (hof (TapToRskService.finalize_keepsDeposits _) hs₂).mono fun _ _ _ => trivial
    · simp only [if_neg hsent]
      exact ensures_pure.2 trivial

/-- **Everything sent is the transfer of a row**, in every run. -/
lemma fromRows_of_running [DecidableEq Hash] {Init : TapLeader Hash Sig → Prop}
    (hinit : ∀ s, Init s → s.sent = [])
    {c : Process (TapOp Hash Sig) TapOp.Resp PyError (TapLeader Hash Sig)}
    (h : Running (world C rskAccount) service.processCurrentTransferBatch Init c) :
    FromRows c.world := by
  refine h.invariant (I := FromRows) (fun s hs => ?_) (fun s s' hs hmove => ?_) fun s hs => ?_
  · rw [FromRows, hinit s hs]
    exact fun tx htx => absurd htx List.not_mem_nil
  · exact (Moves.fromRows (FromRows.with_nil hs) hmove).1
  · refine Holds.mono (Q := fun r s => ∀ a, r = .ok a → True) ?_ fun _ _ _ => trivial
    rw [TapToRskService.processCurrentTransferBatch]
    apply Ensures.bind (R := fun _ => FromRows)
    · have hcalls : (TapProg.transaction fun σ db => service.currentBatch σ db).Calls
          TapOp.KeepsDeposits := by
        refine TapToRskService.calls_transaction fun σ db current db' hcurrent => ?_
        exact TapToRskService.currentBatch_keepsDeposits hcurrent
      exact (fromRows_of_calls hcalls (FromRows.with_nil hs)).mono fun r s hs a _ => hs.1
    · intro current s₁ hs₁
      cases current with
      | none => exact ensures_pure.2 trivial
      | some current => exact fromRows_processBatch hs₁

end TapLeader

end NbteBridge
