import NbteBridge.TapRsk.Leader

/-!
# The stages of a batch

What is true of a batch in each of its statuses (`SoundBatch`), and why the leader keeps it true:
the moves of the world keep it (`Moves.sound`), and so does every stage of the program, under the
condition that a transaction is found to have succeeded only when the others sent for its batch are
settled (`FoundSettled`).

A batch has as many signatures of each signer as it has transfers, so the calls made for it are
none, or one for each transfer; and only with a call there is a hash to keep.
-/

namespace NbteBridge

open Checked Effects Tables

namespace TapBridge

/-- What an accepted transfer changes of what is processed. -/
lemma isProcessed_update (b : TapBridge) (t : TransferFromTap) (txId : Bytes32) (vout : Uint256) :
    Function.update b.processedByBtcTxIdAndVout t.btcTxId
      (Function.update (b.processedByBtcTxIdAndVout t.btcTxId) t.btcTxVout true) txId vout = true ↔
    (txId = t.btcTxId ∧ vout = t.btcTxVout) ∨ b.isProcessed txId vout = true := by
  by_cases htxId : txId = t.btcTxId
  · subst htxId
    by_cases hvout : vout = t.btcTxVout
    · simp [hvout]
    · simp [hvout, isProcessed]
  · simp [htxId, isProcessed]

end TapBridge

namespace TapLeader

variable {Hash Sig : Type} {C : Crypto Hash Sig} {rskAccount : Address}
  {s s' s'' : TapLeader Hash Sig}

/-- The deposit of a transfer has been accepted. -/
def Paid (s : TapLeader Hash Sig) (t : TransferFromTap) : Prop :=
  s.chain.bridge.isProcessed t.btcTxId t.btcTxVout = true

/-! ## What stays -/

/-- What does not change while the leader changes no row. -/
structure Kept (s s' : TapLeader Hash Sig) : Prop where
  batch : ∀ i b, s.db.batches.get? i = some b → s'.db.batches.get? i = some b
  members : ∀ i, s'.db.members i = s.db.members i
  sent : ∀ (h : ℕ) (tx : SentTx Sig), s.sent[h]? = some tx →
    ∃ receipt, s'.sent[h]? = some { tx with receipt := receipt }
  paid : ∀ t, s.Paid t → s'.Paid t

lemma Kept.refl (s : TapLeader Hash Sig) : Kept s s :=
  ⟨fun _ _ h => h, fun _ => rfl, fun _ tx h => ⟨tx.receipt, h⟩, fun _ h => h⟩

lemma Kept.trans (h : Kept s s') (h' : Kept s' s'') : Kept s s'' where
  batch i b hb := h'.batch i b (h.batch i b hb)
  members i := (h'.members i).trans (h.members i)
  sent i tx htx := by
    obtain ⟨receipt, htx'⟩ := h.sent i tx htx
    have hsent := h'.sent i _ htx'
    exact hsent
  paid t ht := h'.paid t (h.paid t ht)

/-- A contract call forgets no deposit. -/
lemma isProcessed_of_step {w w' : TapWorld} {sender : Address} {call : TapCall Sig}
    (h : TapWorld.Step C w (sender, call) w') {txId : Bytes32} {vout : Uint256}
    (hprocessed : w.bridge.isProcessed txId vout = true) :
    w'.bridge.isProcessed txId vout = true := by
  rcases TapWorld.step_cases h with ⟨t, signatures, -, haccept⟩ | ⟨-, hkept⟩
  · obtain ⟨-, -, -, -, hupdate⟩ := TapWorld.acceptTransferFromTap_effect haccept
    rw [TapBridge.isProcessed, hupdate, TapBridge.isProcessed_update]
    exact .inr hprocessed
  · rwa [TapBridge.isProcessed, hkept.processed]

/-- Changing one receipt. -/
lemma exists_receipt_set {sent : List (SentTx Sig)} {i : ℕ} {tx : SentTx Sig}
    {receipt : Option Bool}
    (hi : sent[i]? = some tx) {h : ℕ} {tx' : SentTx Sig} (hh : sent[h]? = some tx') :
    ∃ receipt', (sent.set i { tx with receipt := receipt })[h]? =
      some { tx' with receipt := receipt' } := by
  by_cases hih : i = h
  · subst hih
    obtain rfl : tx = tx' := Option.some.inj (hi.symm.trans hh)
    obtain ⟨hlt, -⟩ := List.getElem?_eq_some_iff.1 hi
    exact ⟨receipt, by rw [List.getElem?_set_self hlt]⟩
  · exact ⟨tx'.receipt, by rw [List.getElem?_set_ne hih, hh]⟩

lemma nextBatchId_notMem (db : TapDb Hash Sig) : db.nextBatchId ∉ db.batches.keys := by
  have hle : ∀ keys : List ℕ, ∀ k ∈ keys, k ≤ keys.foldr max 0 := by
    intro keys
    induction keys with
    | nil => simp
    | cons key keys ih =>
        intro k hk
        rcases List.mem_cons.1 hk with rfl | hk
        · exact le_max_left _ _
        · exact (ih k hk).trans (le_max_right _ _)
  intro hmem
  exact absurd (hle _ _ hmem) (by simp [TapDb.nextBatchId])

/-- A new row is none of those there are. -/
lemma get?_setBatch_next {db : TapDb Hash Sig} {batch b : TapToRskTransferBatch Hash Sig} {i : ℕ}
    (h : db.batches.get? i = some b) :
    (db.setBatch db.nextBatchId batch).batches.get? i = some b := by
  have hne : i ≠ db.nextBatchId := by
    rintro rfl
    exact nextBatchId_notMem db (Table.mem_keys.2 ⟨b, h⟩)
  rw [TapDb.setBatch, Table.get?_set, if_neg hne, h]

lemma members_setTransfer {db : TapDb Hash Sig} {dbId : ℕ} {t : TapToRskTransfer}
    (hnew : db.transfers.get? dbId = none) (hunbatched : t.transferBatchId = none) (i : ℕ) :
    (db.setTransfer dbId t).members i = db.members i := by
  rw [TapDb.members, TapDb.setTransfer, Table.rows_set_of_get?_eq_none t hnew, List.filter_append]
  simp [TapDb.members, hunbatched]

lemma Moves.kept (h : Moves C rskAccount s s') : Kept s s' := by
  cases h with
  | called hcall =>
      refine ⟨fun _ _ hb => hb, fun _ => rfl, fun _ tx htx => ⟨tx.receipt, htx⟩, ?_⟩
      intro t ht
      exact isProcessed_of_step hcall ht
  | @mined i tx chain hi _ haccept =>
      refine ⟨fun _ _ hb => hb, fun _ => rfl, fun _ _ htx => exists_receipt_set hi htx, ?_⟩
      intro t ht
      have hstep : TapWorld.Step C s.chain
          (rskAccount, .acceptTransferFromTap tx.transfer tx.signatures) chain := haccept
      exact isProcessed_of_step hstep ht
  | reverted hi _ =>
      exact ⟨fun _ _ hb => hb, fun _ => rfl, fun _ _ htx => exists_receipt_set hi htx,
        fun _ ht => ht⟩
  | deposited hnew hunbatched _ =>
      exact ⟨fun _ _ hb => hb, members_setTransfer hnew hunbatched,
        fun _ tx htx => ⟨tx.receipt, htx⟩, fun _ ht => ht⟩
  | answered _ _ =>
      exact ⟨fun _ _ hb => get?_setBatch_next hb, fun _ => rfl,
        fun _ tx htx => ⟨tx.receipt, htx⟩, fun _ ht => ht⟩

lemma Answers.kept {o : TapOp Hash Sig} {r : o.Resp} {sent : List (SentTx Sig)}
    (h : s.Answers C o r sent) : Kept s { s with sent := sent } := by
  refine ⟨fun _ _ hb => hb, fun _ => rfl, ?_, fun _ ht => ht⟩
  intro i tx htx
  refine ⟨tx.receipt, ?_⟩
  cases o with
  | transaction body => exact h.elim
  | transact batchId t signatures =>
      obtain ⟨-, rfl⟩ := h
      obtain ⟨hlt, -⟩ := List.getElem?_eq_some_iff.1 htx
      exact (List.getElem?_append_left hlt).trans htx
  | ask serializedBatch =>
      obtain rfl := h
      exact htx
  | getFederators =>
      obtain ⟨-, rfl⟩ := h
      exact htx
  | numRequiredSigners =>
      obtain ⟨-, rfl⟩ := h
      exact htx
  | getTransferFromTapMessageHash t =>
      obtain ⟨-, rfl⟩ := h
      exact htx
  | waitForTransactionReceipt txHash =>
      obtain ⟨-, rfl⟩ := h
      exact htx

/-! ## The invariant -/

/-- Every transfer of the batch has been sent. -/
def Covered (s : TapLeader Hash Sig) (i : ℕ) : Prop :=
  ∀ p ∈ s.db.members i, ∃ tx ∈ s.sent, tx.batchId = i ∧ tx.transfer = p.2.toTransferFromTap

/-- The signatures are as many as the transfers of a batch that has any. -/
def WellSigned (s : TapLeader Hash Sig) (i : ℕ) (signatures : Table Address (List Sig)) : Prop :=
  s.db.members i ≠ [] → ∀ p ∈ signatures.rows, p.2.length = (s.db.members i).length

/-- A transaction sent for the batch. -/
def SentFor (s : TapLeader Hash Sig) (i txHash : ℕ) : Prop :=
  ∃ tx, s.sent[txHash]? = some tx ∧ tx.batchId = i

/-- What is true of a batch in its status. -/
structure SoundBatch (s : TapLeader Hash Sig) (i : ℕ) (b : TapToRskTransferBatch Hash Sig) :
    Prop where
  signed : b.status = .created ∨ b.status = .signaturesCollected → WellSigned s i b.signatures
  sent : b.status = .sentToRsk →
    Covered s i ∧ ∃ txHash, b.executedTxHash = some txHash ∧ SentFor s i txHash
  finalized : b.status = .finalized → ∀ p ∈ s.db.members i, s.Paid p.2.toTransferFromTap

structure Sound (s : TapLeader Hash Sig) : Prop where
  batch : ∀ i b, s.db.batches.get? i = some b → SoundBatch s i b
  assigned : ∀ i, s.db.members i ≠ [] → i ∈ s.db.batches.keys
  paid : ∀ tx ∈ s.sent, tx.receipt = some true → s.Paid tx.transfer

lemma Kept.covered (h : Kept s s') {i : ℕ} (hc : Covered s i) : Covered s' i := by
  intro p hp
  rw [h.members] at hp
  obtain ⟨tx, htx, hi, ht⟩ := hc p hp
  obtain ⟨n, hn⟩ := List.mem_iff_getElem?.1 htx
  obtain ⟨receipt, hn'⟩ := h.sent n tx hn
  exact ⟨_, List.mem_of_getElem? hn', hi, ht⟩

lemma Kept.wellSigned (h : Kept s s') {i : ℕ} {signatures : Table Address (List Sig)}
    (hw : WellSigned s i signatures) : WellSigned s' i signatures := by
  rw [WellSigned, h.members]
  exact hw

lemma Kept.sentFor (h : Kept s s') {i txHash : ℕ} (hs : SentFor s i txHash) :
    SentFor s' i txHash := by
  obtain ⟨tx, htx, hi⟩ := hs
  obtain ⟨receipt, htx'⟩ := h.sent txHash tx htx
  exact ⟨_, htx', hi⟩

lemma Kept.soundBatch (h : Kept s s') {i : ℕ} {b : TapToRskTransferBatch Hash Sig}
    (hb : SoundBatch s i b) : SoundBatch s' i b where
  signed hstatus := h.wellSigned (hb.signed hstatus)
  sent hstatus := by
    obtain ⟨hcovered, txHash, htxHash, hsent⟩ := hb.sent hstatus
    exact ⟨h.covered hcovered, txHash, htxHash, h.sentFor hsent⟩
  finalized hstatus p hp := by
    rw [h.members] at hp
    exact h.paid _ (hb.finalized hstatus p hp)

lemma Kept.sound (h : Kept s s') (hs : Sound s)
    (hbatch : ∀ i b, s'.db.batches.get? i = some b →
      s.db.batches.get? i = some b ∨ SoundBatch s' i b)
    (hpaid : ∀ tx ∈ s'.sent, tx.receipt = some true → s'.Paid tx.transfer) : Sound s' where
  batch i b hb := by
    rcases hbatch i b hb with hb | hb
    · exact h.soundBatch (hs.batch i b hb)
    · exact hb
  assigned i hi := by
    rw [h.members] at hi
    obtain ⟨b, hb⟩ := Table.mem_keys.1 (hs.assigned i hi)
    exact Table.mem_keys.2 ⟨b, h.batch i b hb⟩
  paid := hpaid

/-- An accepted deposit is paid. -/
lemma isProcessed_of_accept {w w' : TapWorld} {sender : Address} {t : TransferFromTap}
    {signatures : List Sig} (h : w.acceptTransferFromTap C sender t signatures = .ok w') :
    w'.bridge.isProcessed t.btcTxId t.btcTxVout = true := by
  obtain ⟨-, -, -, -, hupdate⟩ := TapWorld.acceptTransferFromTap_effect h
  rw [TapBridge.isProcessed, hupdate, TapBridge.isProcessed_update]
  exact .inl ⟨rfl, rfl⟩

/-- **The world's moves.** -/
lemma Moves.sound (h : Moves C rskAccount s s') (hs : Sound s) : Sound s' := by
  have hkept := h.kept
  apply hkept.sound hs
  · cases h with
    | answered hcreated hunsent =>
        intro i b hb
        rw [TapDb.setBatch, Table.get?_set] at hb
        by_cases hi : i = s.db.nextBatchId
        · -- a new batch has no transfers
          rw [if_pos hi] at hb
          obtain rfl := Option.some.inj hb
          right
          have hnone : s.db.members i = [] := by
            by_contra hne
            exact nextBatchId_notMem s.db (hi ▸ hs.assigned i hne)
          refine ⟨fun _ hne => absurd hnone hne, ?_, ?_⟩
          · intro hsent
            rw [hcreated] at hsent
            cases hsent
          · intro hfinalized
            rw [hcreated] at hfinalized
            cases hfinalized
        · rw [if_neg hi] at hb
          exact .inl hb
    | called _ => exact fun i b hb => .inl hb
    | mined _ _ _ => exact fun i b hb => .inl hb
    | reverted _ _ => exact fun i b hb => .inl hb
    | deposited _ _ _ => exact fun i b hb => .inl hb
  · cases h with
    | @mined i tx chain hi _ haccept =>
        intro tx' htx' hreceipt
        rcases List.mem_or_eq_of_mem_set htx' with htx' | rfl
        · exact hkept.paid _ (hs.paid tx' htx' hreceipt)
        · exact isProcessed_of_accept haccept
    | reverted _ _ =>
        intro tx' htx' hreceipt
        rcases List.mem_or_eq_of_mem_set htx' with htx' | rfl
        · exact hs.paid tx' htx' hreceipt
        · cases hreceipt
    | called _ => exact fun tx htx hreceipt => hkept.paid _ (hs.paid tx htx hreceipt)
    | deposited _ _ _ => exact hs.paid
    | answered _ _ => exact hs.paid

lemma Answers.sound {o : TapOp Hash Sig} {r : o.Resp} {sent : List (SentTx Sig)}
    (h : s.Answers C o r sent) (hs : Sound s) : Sound { s with sent := sent } := by
  apply h.kept.sound hs
  · exact fun i b hb => .inl hb
  · have hnew : sent = s.sent ∨ ∃ batchId t signatures,
        sent = s.sent ++ [⟨batchId, t, signatures, none⟩] := by
      cases o with
      | transaction body => exact h.elim
      | transact batchId t signatures => exact .inr ⟨batchId, t, signatures, h.2⟩
      | ask serializedBatch => exact .inl h
      | getFederators => exact .inl h.2
      | numRequiredSigners => exact .inl h.2
      | getTransferFromTapMessageHash t => exact .inl h.2
      | waitForTransactionReceipt txHash => exact .inl h.2
    rcases hnew with rfl | ⟨batchId, t, signatures, rfl⟩
    · exact hs.paid
    · intro tx htx hreceipt
      rcases List.mem_append.1 htx with htx | htx
      · exact hs.paid tx htx hreceipt
      · rw [List.mem_singleton.1 htx] at hreceipt
        cases hreceipt

/-! ## Worlds within the leader's -/

/-- A world that does nothing the leader's world does not, and an invariant of its moves. -/
structure Within (C : Crypto Hash Sig) (rskAccount : Address)
    (W : Effects.World (TapOp Hash Sig) TapOp.Resp PyError (TapLeader Hash Sig))
    (I : TapLeader Hash Sig → Prop) : Prop where
  does : ∀ s o r s', W.Does s o r s' → Does C s o r s'
  moves : ∀ s s', W.Moves s s' → Moves C rskAccount s s'
  keeps : ∀ s s', I s → W.Moves s s' → I s'

section Within

variable {α : Type} {W : Effects.World (TapOp Hash Sig) TapOp.Resp PyError (TapLeader Hash Sig)}
  {I : TapLeader Hash Sig → Prop}

lemma Within.waits (hW : Within C rskAccount W I) (hs : I s) (h : W.Waits s s') :
    I s' ∧ Kept s s' := by
  induction h with
  | refl => exact ⟨hs, Kept.refl s⟩
  | tail _ hmove ih =>
      exact ⟨hW.keeps _ _ ih.1 hmove, ih.2.trans (hW.moves _ _ hmove).kept⟩

/-- **A transaction** keeps the invariant when its body does. -/
lemma Within.transaction (hW : Within C rskAccount W I)
    {body : Ordering → TapDb Hash Sig → PyResult (α × TapDb Hash Sig)}
    {Q : α → TapLeader Hash Sig → Prop} (hs : I s)
    (h : ∀ s₁ σ a db, I s₁ → Kept s s₁ → body σ s₁.db = .ok (a, db) →
      I { s₁ with db := db } ∧ Q a { s₁ with db := db }) :
    Ensures W I (TapProg.transaction body) (fun a s' => I s' ∧ Q a s') s := by
  apply ensures_perform
  intro s₁ hwait r s₂ hdoes
  obtain ⟨hs₁, hkept⟩ := hW.waits hs hwait
  cases hW.does _ _ _ _ hdoes with
  | committed hbody =>
      obtain ⟨hi, hq⟩ := h _ _ _ _ hs₁ hkept hbody
      refine ⟨hi, ?_⟩
      rintro a ⟨⟩
      exact ⟨hi, hq⟩
  | commitRaised hbody e =>
      obtain ⟨hi, -⟩ := h _ _ _ _ hs₁ hkept hbody
      refine ⟨hi, ?_⟩
      rintro a ⟨⟩
  | answered hanswer => exact hanswer.elim
  | answerRaised hanswer e => exact hanswer.elim
  | raised _ e =>
      refine ⟨hs₁, ?_⟩
      rintro a ⟨⟩

/-- **Any other call** keeps the invariant when its effect does. -/
lemma Within.call (hW : Within C rskAccount W I) {o : TapOp Hash Sig}
    {Q : o.Resp → TapLeader Hash Sig → Prop} (hs : I s)
    (hanswer : ∀ s₁ r sent, I s₁ → s₁.Answers C o r sent → I { s₁ with sent := sent })
    (h : ∀ s₁ a sent, Kept s s₁ → I s₁ → s₁.Answers C o a sent →
      W.Does s₁ o (.ok a) { s₁ with sent := sent } → Q a { s₁ with sent := sent })
    (ho : ∀ (β : Type) (body : Ordering → TapDb Hash Sig → PyResult (β × TapDb Hash Sig)),
      o ≠ .transaction body) :
    Ensures W I (Prog.perform o) Q s := by
  apply ensures_perform
  intro s₁ hwait r s₂ hdoes
  obtain ⟨hs₁, hkept⟩ := hW.waits hs hwait
  cases hW.does _ _ _ _ hdoes with
  | committed hbody => exact absurd rfl (ho _ _)
  | commitRaised hbody e => exact absurd rfl (ho _ _)
  | answered hr =>
      refine ⟨hanswer _ _ _ hs₁ hr, ?_⟩
      rintro a ⟨⟩
      exact h s₁ _ _ hkept hs₁ hr hdoes
  | answerRaised hr e =>
      refine ⟨hanswer _ _ _ hs₁ hr, ?_⟩
      rintro a ⟨⟩
  | raised _ e =>
      refine ⟨hs₁, ?_⟩
      rintro a ⟨⟩

end Within

/-! ## The condition -/

/-- Every transaction sent for the batch has succeeded, or was reverted with its deposit accepted
from another call. -/
def Settled (s : TapLeader Hash Sig) (i : ℕ) : Prop :=
  ∀ tx ∈ s.sent, tx.batchId = i →
    tx.receipt = some true ∨ (tx.receipt = some false ∧ s.Paid tx.transfer)

/-- A transaction is found to have succeeded only when the other transactions of its batch are
settled. -/
def FoundSettled (s : TapLeader Hash Sig) : (o : TapOp Hash Sig) → PyResult o.Resp → Prop
  | .waitForTransactionReceipt txHash, r =>
      r = .ok true → ∀ h last, txHash = some h → s.sent[h]? = some last → Settled s last.batchId
  | _, _ => True

variable (C rskAccount) in
/-- The world in which the condition holds. -/
abbrev foundSettledWorld : Effects.World (TapOp Hash Sig) TapOp.Resp PyError (TapLeader Hash Sig) :=
  (world C rskAccount).when FoundSettled

/-! ## The calls -/

/-- What the program keeps, and what is true if it returns, under the condition. -/
abbrev Keeps {α : Type} (C : Crypto Hash Sig) (rskAccount : Address) (p : TapProg Hash Sig α)
    (Q : α → TapLeader Hash Sig → Prop) (s : TapLeader Hash Sig) : Prop :=
  Ensures (foundSettledWorld C rskAccount) Sound p Q s

section Calls

variable {α : Type}

lemma within_foundSettled : Within C rskAccount (foundSettledWorld C rskAccount) Sound where
  does _ _ _ _ h := h.2
  moves _ _ h := h
  keeps _ _ hs h := Moves.sound h hs

lemma keeps_transaction {body : Ordering → TapDb Hash Sig → PyResult (α × TapDb Hash Sig)}
    {Q : α → TapLeader Hash Sig → Prop} (hs : Sound s)
    (h : ∀ s₁ σ a db, Sound s₁ → Kept s s₁ → body σ s₁.db = .ok (a, db) →
      Sound { s₁ with db := db } ∧ Q a { s₁ with db := db }) :
    Keeps C rskAccount (TapProg.transaction body) (fun a s' => Sound s' ∧ Q a s') s :=
  within_foundSettled.transaction hs h

lemma keeps_call {o : TapOp Hash Sig} {Q : o.Resp → TapLeader Hash Sig → Prop} (hs : Sound s)
    (h : ∀ s₁ a sent, Kept s s₁ → FoundSettled s₁ o (.ok a) → s₁.Answers C o a sent →
      Sound { s₁ with sent := sent } → Kept s { s₁ with sent := sent } →
        Q a { s₁ with sent := sent })
    (ho : ∀ (β : Type) (body : Ordering → TapDb Hash Sig → PyResult (β × TapDb Hash Sig)),
      o ≠ .transaction body) :
    Keeps C rskAccount (Prog.perform o) Q s := by
  apply within_foundSettled.call hs _ _ ho
  · exact fun s₁ r sent hs₁ hanswer => hanswer.sound hs₁
  · intro s₁ a sent hkept hs₁ hanswer hdoes
    exact h s₁ a sent hkept hdoes.1 hanswer (hanswer.sound hs₁) (hkept.trans hanswer.kept)

end Calls

/-! ## Collecting signatures -/

variable {service : TapToRskService Hash Sig} {i : ℕ}

lemma keeps_checkSignatures {signer : Address}
    {pairs : List (SerializedTapToRskTransfer Hash × Sig)} (hs : Sound s) :
    Keeps C rskAccount (service.checkSignatures signer pairs)
      (fun _ s' => Sound s' ∧ Kept s s') s := by
  induction pairs generalizing s with
  | nil => exact ensures_pure.2 ⟨hs, Kept.refl s⟩
  | cons pair pairs ih =>
      obtain ⟨transfer, signature⟩ := pair
      apply Ensures.bind (R := fun _ s' => Sound s' ∧ Kept s s')
      · apply keeps_call hs
        · intro s₁ messageHash sent _ _ _ hsound hkept
          exact ⟨hsound, hkept⟩
        · rintro β body ⟨⟩
      · rintro messageHash s₁ ⟨hs₁, hkept⟩
        apply Ensures.bind (R := fun _ s' => Sound s' ∧ Kept s s')
        · exact ensures_lift.2 fun recovered _ => ⟨hs₁, hkept⟩
        · rintro recovered s₂ ⟨hs₂, hkept₂⟩
          by_cases hne : recovered ≠ signer
          · rw [if_pos hne]
            exact ensures_pure.2 ⟨hs₂, hkept₂⟩
          · rw [if_neg hne]
            apply (ih hs₂).mono
            rintro ok s₃ ⟨hs₃, hkept₃⟩
            exact ⟨hs₃, hkept₂.trans hkept₃⟩

/-- One more signer, with as many signatures as there are transfers. -/
lemma wellSigned_set {signatures : Table Address (List Sig)} {signer : Address}
    {answer : List Sig} (h : WellSigned s i signatures)
    (hlength : answer.length = (s.db.members i).length) :
    WellSigned s i (signatures.set signer answer) := by
  intro hne p hp
  rcases Table.mem_rows_set hp with rfl | hp
  · exact hlength
  · exact h hne p hp

lemma keeps_collectSignatures {federators : List Address} {current : CurrentBatch Hash Sig}
    {signatures : Table Address (List Sig)} {responses : List (SignTransferBatchAnswer Sig)}
    (hs : Sound s) (hnum : current.numTransfers = (s.db.members i).length)
    (hsigned : WellSigned s i signatures) :
    Keeps C rskAccount (service.collectSignatures federators current signatures responses)
      (fun signatures' s' => Sound s' ∧ Kept s s' ∧ WellSigned s' i signatures') s := by
  induction responses generalizing s signatures with
  | nil => exact ensures_pure.2 ⟨hs, Kept.refl s, hsigned⟩
  | cons response responses ih =>
      rw [TapToRskService.collectSignatures]
      by_cases hfederator : response.signer ∉ federators
      · rw [if_pos hfederator]
        exact ih hs hnum hsigned
      rw [if_neg hfederator]
      by_cases hlength : response.signatures.length ≠ current.numTransfers
      · rw [if_pos hlength]
        exact ih hs hnum hsigned
      rw [if_neg hlength, not_ne_iff] at *
      apply Ensures.bind (keeps_checkSignatures hs)
      rintro ok s₁ ⟨hs₁, hkept⟩
      have hsigned₁ : WellSigned s₁ i (if ok then signatures.set response.signer response.signatures
          else signatures) := by
        apply hkept.wellSigned
        cases ok with
        | false => exact hsigned
        | true => exact wellSigned_set hsigned (hlength.trans hnum)
      apply (ih hs₁ (by rw [hkept.members, hnum]) hsigned₁).mono
      rintro signatures' s₂ ⟨hs₂, hkept₂, hsigned₂⟩
      exact ⟨hs₂, hkept.trans hkept₂, hsigned₂⟩

/-! ## The rows of a batch -/

/-- A batch whose new row is sound. -/
lemma sound_setBatch (hs : Sound s) {b' : TapToRskTransferBatch Hash Sig}
    (hb' : SoundBatch s i b') : Sound { s with db := s.db.setBatch i b' } where
  batch j c hc := by
    rw [TapDb.setBatch, Table.get?_set] at hc
    by_cases hj : j = i
    · subst hj
      rw [if_pos rfl] at hc
      obtain rfl := Option.some.inj hc
      exact ⟨hb'.signed, hb'.sent, hb'.finalized⟩
    · rw [if_neg hj] at hc
      have hold := hs.batch j c hc
      exact ⟨hold.signed, hold.sent, hold.finalized⟩
  assigned j hj := Table.mem_keys_set (hs.assigned j hj)
  paid := hs.paid

lemma getBatch_eq_ok {db : TapDb Hash Sig} {b : TapToRskTransferBatch Hash Sig} :
    db.getBatch i = .ok b ↔ db.batches.get? i = some b := orError_eq_ok

/-- What storing signatures leaves to be known of the status and the signatures. -/
def ReadyToSend (s : TapLeader Hash Sig) (i : ℕ) (status : TapToRskTransferBatchStatus)
    (signatures : Table Address (List Sig)) : Prop :=
  status = .signaturesCollected → WellSigned s i signatures

/-- The row says that the batch is sent. -/
def SentBatch (s : TapLeader Hash Sig) (i : ℕ) : Prop :=
  ∃ b, s.db.batches.get? i = some b ∧ b.status = .sentToRsk

lemma storeSignatures_sound {current : CurrentBatch Hash Sig}
    {signatures : Table Address (List Sig)} {numRequiredSigners : ℤ}
    {status : TapToRskTransferBatchStatus} {db : TapDb Hash Sig} (hs : Sound s)
    (hsigned : WellSigned s current.batchId signatures)
    (h : TapToRskService.storeSignatures current signatures numRequiredSigners s.db =
      .ok (status, db)) :
    Sound { s with db := db } ∧ WellSigned { s with db := db } current.batchId signatures ∧
      (status = .signaturesCollected ∨ status = current.status) := by
  simp only [TapToRskService.storeSignatures, bind_eq_ok, getBatch_eq_ok, pure_eq_ok,
    Prod.mk.injEq] at h
  obtain ⟨b, hb, hstatus, rfl⟩ := h
  have hold := hs.batch _ b hb
  refine ⟨sound_setBatch hs ⟨fun _ => hsigned, ?_, ?_⟩, hsigned, ?_⟩
  · -- a batch that is sent already stays as it was
    intro hsent
    by_cases henough : numRequiredSigners ≤ (signatures.keys.length : ℤ)
    · rw [if_pos henough] at hsent
      cases hsent
    · rw [if_neg henough] at hsent
      exact hold.sent hsent
  · intro hfinalized
    by_cases henough : numRequiredSigners ≤ (signatures.keys.length : ℤ)
    · rw [if_pos henough] at hfinalized
      cases hfinalized
    · rw [if_neg henough] at hfinalized
      exact hold.finalized hfinalized
  · rw [← hstatus]
    by_cases henough : numRequiredSigners ≤ (signatures.keys.length : ℤ)
    · exact .inl (if_pos henough)
    · exact .inr (if_neg henough)

lemma keeps_collect {current : CurrentBatch Hash Sig} (hs : Sound s)
    (hnum : current.numTransfers = (s.db.members current.batchId).length)
    (hsigned : WellSigned s current.batchId current.signaturesBySigner)
    (hcreated : current.status = .created) :
    Keeps C rskAccount (service.collect current)
      (fun r s' => Sound s' ∧ ReadyToSend s' current.batchId r.1 r.2 ∧ r.1 ≠ .sentToRsk) s := by
  have hview : ∀ {o : TapOp Hash Sig} {s₀ : TapLeader Hash Sig}, Sound s₀ →
      (∀ (β : Type) (body : Ordering → TapDb Hash Sig → PyResult (β × TapDb Hash Sig)),
        o ≠ .transaction body) →
      Keeps C rskAccount (Prog.perform o) (fun _ s' => Sound s' ∧ Kept s₀ s') s₀ := by
    intro o s₀ hs₀ ho
    apply keeps_call hs₀ _ ho
    intro s₁ a sent _ _ _ hsound hkept
    exact ⟨hsound, hkept⟩
  rw [TapToRskService.collect]
  apply Ensures.bind (hview hs (by rintro β body ⟨⟩))
  rintro federators s₁ ⟨hs₁, hkept₁⟩
  apply Ensures.bind (hview hs₁ (by rintro β body ⟨⟩))
  rintro numRequiredSigners s₂ ⟨hs₂, hkept₂⟩
  apply Ensures.bind (hview hs₂ (by rintro β body ⟨⟩))
  rintro responses s₃ ⟨hs₃, hkept₃⟩
  have hkept := (hkept₁.trans hkept₂).trans hkept₃
  apply Ensures.bind (keeps_collectSignatures hs₃ (by rw [hkept.members, hnum])
    (hkept.wellSigned hsigned))
  rintro signatures s₄ ⟨hs₄, _, hsigned₄⟩
  apply Ensures.bind (R := fun status s' => Sound s' ∧ WellSigned s' current.batchId signatures ∧
    status ≠ .sentToRsk)
  · apply keeps_transaction hs₄
    intro s₅ σ status db hs₅ hkept₅ hstore
    obtain ⟨hsound, hsigned', hstatus⟩ := storeSignatures_sound hs₅ (hkept₅.wellSigned hsigned₄)
      hstore
    refine ⟨hsound, hsigned', ?_⟩
    rcases hstatus with rfl | rfl
    · simp
    · simp [hcreated]
  · rintro status s₆ ⟨hs₆, hsigned₆, hstatus⟩
    exact ensures_pure.2 ⟨hs₆, fun _ => hsigned₆, hstatus⟩

/-! ## Sending -/

lemma length_zipAll {α : Type} {lists : List (List α)} {n : ℕ} (hne : lists ≠ [])
    (h : ∀ as ∈ lists, as.length = n) : (zipAll lists).length = n := by
  induction lists with
  | nil => exact absurd rfl hne
  | cons as lists ih =>
      cases lists with
      | nil => simpa [zipAll] using h as (by simp)
      | cons bs lists =>
          have hrest := ih (by simp) fun cs hcs => h cs (List.mem_cons_of_mem _ hcs)
          rw [zipAll, List.length_zipWith, h as (by simp), hrest, min_self]
          simp

/-- There is a call for each transfer of the batch. -/
def CallForEach (s : TapLeader Hash Sig) (i : ℕ) (calls : List (TransferFromTap × List Sig)) :
    Prop :=
  ∀ p ∈ s.db.members i, ∃ c ∈ calls, c.1 = p.2.toTransferFromTap

/-- The calls are none at all, or one for each transfer. -/
lemma startSending_sound {signatures : Table Address (List Sig)} {σ : Ordering}
    {calls : List (TransferFromTap × List Sig)} {db : TapDb Hash Sig} (hs : Sound s)
    (hsigned : WellSigned s i signatures)
    (h : TapToRskService.startSending i signatures σ s.db = .ok (calls, db)) :
    Sound { s with db := db } ∧ (calls ≠ [] → CallForEach { s with db := db } i calls) := by
  simp only [TapToRskService.startSending, bind_eq_ok, getBatch_eq_ok, pure_eq_ok,
    Prod.mk.injEq] at h
  obtain ⟨b, hb, hcalls, rfl⟩ := h
  have hsending : SoundBatch s i { b with status := .sendingToRsk } := by
    constructor
    · rintro (hstatus | hstatus) <;> cases hstatus
    · rintro ⟨⟩
    · rintro ⟨⟩
  refine ⟨sound_setBatch hs hsending, ?_⟩
  intro hne p hp
  have hp' : p ∈ s.db.members i := hp
  have hmembers : s.db.members i ≠ [] := List.ne_nil_of_mem hp'
  have hperm := σ.perm (s.db.members i)
  -- some signer has signed, or there would be no call
  have hrows : signatures.rows.map Prod.snd ≠ [] := by
    intro hnil
    rw [hnil, zipAll, List.zip_nil_right] at hcalls
    exact hne hcalls.symm
  have hlength : (zipAll (signatures.rows.map Prod.snd)).length = (s.db.members i).length := by
    apply length_zipAll hrows
    intro as has
    obtain ⟨q, hq, rfl⟩ := List.mem_map.1 has
    exact hsigned hmembers q hq
  have hfst : calls.map Prod.fst =
      (s.db.batchTransfers σ i).map TapToRskTransfer.toTransferFromTap := by
    rw [← hcalls]
    apply List.map_fst_zip
    rw [hlength, List.length_map, TapDb.batchTransfers, List.length_map, hperm.length_eq]
  have hmem : p.2.toTransferFromTap ∈ calls.map Prod.fst := by
    rw [hfst]
    apply List.mem_map_of_mem
    exact List.mem_map_of_mem (hperm.mem_iff.2 hp')
  obtain ⟨c, hc, heq⟩ := List.mem_map.1 hmem
  exact ⟨c, hc, heq⟩

/-- The calls made so far, and their hashes. -/
structure AllSent (s : TapLeader Hash Sig) (i : ℕ) (calls : List (TransferFromTap × List Sig))
    (txHashes : List ℕ) : Prop where
  sent : ∀ c ∈ calls, ∃ tx ∈ s.sent, tx.batchId = i ∧ tx.transfer = c.1
  hashes : ∀ h ∈ txHashes, SentFor s i h
  length : txHashes.length = calls.length

lemma Kept.allSent (h : Kept s s') {calls : List (TransferFromTap × List Sig)}
    {txHashes : List ℕ} (ha : AllSent s i calls txHashes) : AllSent s' i calls txHashes where
  sent c hc := by
    obtain ⟨tx, htx, hi, ht⟩ := ha.sent c hc
    obtain ⟨n, hn⟩ := List.mem_iff_getElem?.1 htx
    obtain ⟨receipt, hn'⟩ := h.sent n tx hn
    exact ⟨_, List.mem_of_getElem? hn', hi, ht⟩
  hashes n hn := h.sentFor (ha.hashes n hn)
  length := ha.length

lemma keeps_sendAll {calls : List (TransferFromTap × List Sig)} (hs : Sound s) :
    Keeps C rskAccount (TapToRskService.sendAll i calls)
      (fun txHashes s' => Sound s' ∧ Kept s s' ∧ AllSent s' i calls txHashes) s := by
  induction calls generalizing s with
  | nil => exact ensures_pure.2 ⟨hs, Kept.refl s, by simp, by simp, by simp⟩
  | cons call calls ih =>
      obtain ⟨transfer, signatures⟩ := call
      rw [TapToRskService.sendAll]
      apply Ensures.bind (R := fun txHash s' => Sound s' ∧ Kept s s' ∧
        ∃ tx, s'.sent[txHash]? = some tx ∧ tx.batchId = i ∧ tx.transfer = transfer)
      · apply keeps_call hs
        · intro s₁ txHash sent _ _ hanswer hsound hkept
          obtain ⟨rfl, rfl⟩ := hanswer
          refine ⟨hsound, hkept, ⟨i, transfer, signatures, none⟩, ?_, rfl, rfl⟩
          exact List.getElem?_concat_length
        · rintro β body ⟨⟩
      · rintro txHash s₁ ⟨hs₁, hkept₁, tx, htx, hi, ht⟩
        apply Ensures.bind (ih hs₁)
        rintro txHashes s₂ ⟨hs₂, hkept₂, hsent⟩
        obtain ⟨receipt, htx'⟩ := hkept₂.sent txHash tx htx
        refine ensures_pure.2 ⟨hs₂, hkept₁.trans hkept₂, ?_, ?_, by simp [hsent.length]⟩
        · intro c hc
          rcases List.mem_cons.1 hc with rfl | hc
          · exact ⟨_, List.mem_of_getElem? htx', hi, ht⟩
          · exact hsent.sent c hc
        · intro h hh
          rcases List.mem_cons.1 hh with rfl | hh
          · exact ⟨_, htx', hi⟩
          · exact hsent.hashes h hh

/-- A hash to keep is one of a call, so there were calls. -/
lemma finishSending_sound {calls : List (TransferFromTap × List Sig)} {txHashes : List ℕ}
    {status : TapToRskTransferBatchStatus} {db : TapDb Hash Sig} (hs : Sound s)
    (heach : calls ≠ [] → CallForEach s i calls) (hsent : AllSent s i calls txHashes)
    (h : TapToRskService.finishSending i txHashes s.db = .ok (status, db)) :
    Sound { s with db := db } ∧ SentBatch { s with db := db } i := by
  simp only [TapToRskService.finishSending, bind_eq_ok, getBatch_eq_ok, orError_eq_ok, pure_eq_ok,
    Prod.mk.injEq] at h
  obtain ⟨b, hb, txHash, hlast, -, rfl⟩ := h
  have hmem : txHash ∈ txHashes := List.mem_of_getLast? hlast
  have hne : calls ≠ [] := by
    rintro rfl
    rw [List.length_eq_zero_iff.1 hsent.length] at hmem
    cases hmem
  have hcovered : Covered s i := by
    intro p hp
    obtain ⟨c, hc, hcp⟩ := heach hne p hp
    obtain ⟨tx, htx, hi, ht⟩ := hsent.sent c hc
    exact ⟨tx, htx, hi, ht.trans hcp⟩
  refine ⟨sound_setBatch hs ⟨?_, ?_, ?_⟩, ?_⟩
  · rintro (hstatus | hstatus) <;> cases hstatus
  · exact fun _ => ⟨hcovered, txHash, rfl, hsent.hashes txHash hmem⟩
  · rintro ⟨⟩
  · exact ⟨_, by rw [TapDb.setBatch, Table.get?_set, if_pos rfl], rfl⟩

lemma keeps_send {signatures : Table Address (List Sig)} (hs : Sound s)
    (hsigned : WellSigned s i signatures) :
    Keeps C rskAccount (TapToRskService.send i signatures)
      (fun _ s' => Sound s' ∧ SentBatch s' i) s := by
  rw [TapToRskService.send]
  apply Ensures.bind (R := fun calls s' => Sound s' ∧ (calls ≠ [] → CallForEach s' i calls))
  · apply keeps_transaction hs
    intro s₁ σ calls db hs₁ hkept hstart
    exact startSending_sound hs₁ (hkept.wellSigned hsigned) hstart
  · rintro calls s₁ ⟨hs₁, heach⟩
    apply Ensures.bind (keeps_sendAll hs₁)
    rintro txHashes s₂ ⟨hs₂, hkept, hsent⟩
    apply keeps_transaction hs₂
    intro s₃ σ status db hs₃ hkept₃ hfinish
    apply finishSending_sound hs₃ _ (hkept₃.allSent hsent) hfinish
    intro hne p hp
    rw [(hkept.trans hkept₃).members] at hp
    exact heach hne p hp

lemma Kept.sentBatch (h : Kept s s') (hb : SentBatch s i) : SentBatch s' i := by
  obtain ⟨b, hb, hstatus⟩ := hb
  exact ⟨b, h.batch i b hb, hstatus⟩

/-! ## Finalizing -/

/-- Every transfer of the batch is paid. -/
def PaidBatch (s : TapLeader Hash Sig) (i : ℕ) : Prop :=
  ∀ p ∈ s.db.members i, s.Paid p.2.toTransferFromTap

lemma Kept.paidBatch (h : Kept s s') (hp : PaidBatch s i) : PaidBatch s' i := by
  intro p hmem
  rw [h.members] at hmem
  exact h.paid _ (hp p hmem)

lemma SentBatch.covered (hs : Sound s) (h : SentBatch s i) : Covered s i := by
  obtain ⟨b, hb, hstatus⟩ := h
  exact ((hs.batch i b hb).sent hstatus).1

/-- All transfers were sent, and every transaction sent has paid or found its transfer paid. -/
lemma paidBatch_of_settled (hs : Sound s) (hcovered : Covered s i) (hsettled : Settled s i) :
    PaidBatch s i := by
  intro p hp
  obtain ⟨tx, htx, hi, ht⟩ := hcovered p hp
  rw [← ht]
  rcases hsettled tx htx hi with hreceipt | ⟨-, hpaid⟩
  · exact hs.paid tx htx hreceipt
  · exact hpaid

lemma keeps_finalize (hs : Sound s) (hbatch : SentBatch s i) :
    Keeps C rskAccount (TapToRskService.finalize i) (fun _ s' => Sound s') s := by
  rw [TapToRskService.finalize]
  apply Ensures.bind (R := fun txHash s' => Sound s' ∧ SentBatch s' i ∧
    ∀ h, txHash = some h → SentFor s' i h)
  · apply keeps_transaction hs
    intro s₁ σ txHash db hs₁ hkept hread
    have hbatch₁ := hkept.sentBatch hbatch
    obtain ⟨b, hb, hstatus⟩ := hbatch₁
    obtain ⟨-, h, hh, hfor⟩ := (hs₁.batch i b hb).sent hstatus
    simp only [bind_eq_ok, getBatch_eq_ok, pure_eq_ok, Prod.mk.injEq] at hread
    obtain ⟨b', hb', rfl, rfl⟩ := hread
    obtain rfl : b = b' := Option.some.inj (hb.symm.trans hb')
    refine ⟨hs₁, ⟨b, hb, hstatus⟩, ?_⟩
    intro h' hh'
    obtain rfl : h = h' := Option.some.inj (hh.symm.trans hh')
    exact hfor
  rintro txHash s₁ ⟨hs₁, hbatch₁, hfor⟩
  apply Ensures.bind (R := fun status s' => Sound s' ∧ (status = true → PaidBatch s' i))
  · apply keeps_call hs₁
    · intro s₂ status sent hkept hfound hanswer hsound _
      obtain ⟨⟨h, tx, rfl, htx, hreceipt⟩, rfl⟩ := hanswer
      refine ⟨hsound, ?_⟩
      rintro rfl
      have hs₂ : Sound s₂ := hsound
      obtain ⟨tx', htx', hi⟩ := hkept.sentFor (hfor h rfl)
      obtain rfl : tx = tx' := Option.some.inj (htx.symm.trans htx')
      have hsettled : Settled s₂ i := hi ▸ hfound rfl h tx rfl htx
      exact paidBatch_of_settled hs₂ ((hkept.sentBatch hbatch₁).covered hs₂) hsettled
    · rintro β body ⟨⟩
  rintro status s₂ ⟨hs₂, hpaid⟩
  cases status with
  | false => exact ensures_throw
  | true =>
      apply (keeps_transaction (Q := fun _ _ => True) hs₂ _).mono fun _ _ h => h.1
      intro s₃ σ a db hs₃ hkept hset
      simp only [bind_eq_ok, getBatch_eq_ok, pure_eq_ok, Prod.mk.injEq, true_and] at hset
      obtain ⟨b, hb, rfl⟩ := hset
      have hpaid₃ : PaidBatch s₃ i := hkept.paidBatch (hpaid rfl)
      refine ⟨sound_setBatch hs₃ ⟨?_, ?_, fun _ => hpaid₃⟩, trivial⟩
      · rintro (hstatus | hstatus) <;> cases hstatus
      · rintro ⟨⟩

/-! ## The current batch -/

/-- A batch that other rows are not put into keeps its rows. -/
lemma members_assign_of_ne {db : TapDb Hash Sig} {dbIds : List ℕ} {j : ℕ}
    (hunbatched : ∀ p ∈ db.transfers.rows, p.1 ∈ dbIds → p.2.transferBatchId = none)
    (hne : j ≠ i) : (db.assign dbIds i).members j = db.members j := by
  refine Table.filter_mapRows (fun p hp => ?_) fun p hp hj => ?_
  · by_cases hmem : p.1 ∈ dbIds
    · simp [hmem, hunbatched p hp hmem, Ne.symm hne]
    · simp [hmem]
  · -- the rows of the batch are not among those that change
    have hnot : p.1 ∉ dbIds := by
      intro hmem
      rw [hunbatched p hp hmem] at hj
      exact absurd hj (by simp)
    simp [hnot]

/-- The rows of a new batch are those put into it, in what a batch does not change of them. -/
lemma map_members_assign {β : Type} {f : TapToRskTransfer → β}
    (hf : ∀ t batchId, f { t with transferBatchId := batchId } = f t) {db : TapDb Hash Sig}
    {chosen : List (ℕ × TapToRskTransfer)} (hrows : ∀ p ∈ chosen, p ∈ db.transfers.rows)
    (hnodup : chosen.Nodup) (hnone : db.members i = []) :
    (((db.assign (chosen.map Prod.fst) i).members i).map fun p => f p.2).Perm
      (chosen.map fun p => f p.2) := by
  have hkeys : ∀ p ∈ db.transfers.rows, p.1 ∈ chosen.map Prod.fst → p ∈ chosen := by
    intro p hp hmem
    obtain ⟨q, hq, heq⟩ := List.mem_map.1 hmem
    have hlookup := Table.lookup_of_mem db.transfers.nodup (hrows q hq)
    rw [heq, Table.lookup_of_mem db.transfers.nodup hp] at hlookup
    obtain rfl : p = q := Prod.ext heq.symm (Option.some.inj hlookup)
    exact hq
  have hperm : (db.transfers.rows.filter fun p => p.1 ∈ chosen.map Prod.fst).Perm chosen := by
    apply (List.perm_ext_iff_of_nodup (db.transfers.nodup.of_map.filter _) hnodup).2
    intro p
    rw [List.mem_filter, decide_eq_true_eq]
    constructor
    · rintro ⟨hp, hmem⟩
      exact hkeys p hp hmem
    · intro hp
      exact ⟨hrows p hp, List.mem_map_of_mem hp⟩
  refine List.Perm.trans ?_ (hperm.map fun p => f p.2)
  simp only [TapDb.members, TapDb.assign, Table.mapRows, List.filter_map, List.map_map]
  rw [List.filter_congr (q := fun p => decide (p.1 ∈ chosen.map Prod.fst))]
  · refine List.Perm.of_eq (List.map_congr_left fun p _ => ?_)
    by_cases hmem : p.1 ∈ chosen.map Prod.fst
    · simp only [Function.comp_apply, if_pos hmem, hf]
    · simp only [Function.comp_apply, if_neg hmem]
  intro p hp
  have hnot : p.2.transferBatchId ≠ some i := by
    intro hbatch
    have hmem : p ∈ db.members i := List.mem_filter.2 ⟨hp, by simpa using hbatch⟩
    rw [hnone] at hmem
    cases hmem
  by_cases hmem : p.1 ∈ chosen.map Prod.fst
  · simp only [Function.comp_apply, if_pos hmem, decide_true]
    simpa using hmem
  · simp only [Function.comp_apply, if_neg hmem]
    simp only [hnot, decide_false]
    simpa using hmem

lemma length_members_assign {db : TapDb Hash Sig} {chosen : List (ℕ × TapToRskTransfer)}
    (hrows : ∀ p ∈ chosen, p ∈ db.transfers.rows) (hnodup : chosen.Nodup)
    (hnone : db.members i = []) :
    ((db.assign (chosen.map Prod.fst) i).members i).length = chosen.length := by
  simpa using (map_members_assign (f := fun _ => ()) (fun _ _ => rfl) hrows hnodup hnone).length_eq

/-- The database holds what the program has read of the current batch. -/
def IsCurrent (s : TapLeader Hash Sig) (c : CurrentBatch Hash Sig) : Prop :=
  ∃ b, s.db.batches.get? c.batchId = some b ∧ b.status = c.status ∧
    b.signatures = c.signaturesBySigner ∧ c.numTransfers = (s.db.members c.batchId).length

lemma Kept.isCurrent (h : Kept s s') {c : CurrentBatch Hash Sig} (hc : IsCurrent s c) :
    IsCurrent s' c := by
  obtain ⟨b, hb, hstatus, hsignatures, hnum⟩ := hc
  exact ⟨b, h.batch _ b hb, hstatus, hsignatures, by rw [h.members, hnum]⟩

/-- The other batches keep their rows when one is formed of rows that were in none. -/
lemma members_newBatch {db : TapDb Hash Sig} {chosen : List (ℕ × TapToRskTransfer)}
    (hsub : ∀ p ∈ chosen, p ∈ db.unbatched) (b : TapToRskTransferBatch Hash Sig) {j : ℕ}
    (hj : j ≠ i) : ((db.setBatch i b).assign (chosen.map Prod.fst) i).members j = db.members j := by
  have hunbatched : ∀ p ∈ db.transfers.rows, p.1 ∈ chosen.map Prod.fst →
      p.2.transferBatchId = none := by
    intro p hp hmem
    obtain ⟨q, hq, heq⟩ := List.mem_map.1 hmem
    obtain ⟨hqrow, hqnone⟩ := List.mem_filter.1 (hsub q hq)
    have hlookup := Table.lookup_of_mem db.transfers.nodup hqrow
    rw [heq, Table.lookup_of_mem db.transfers.nodup hp] at hlookup
    rw [Option.some.inj hlookup]
    simpa using hqnone
  exact @members_assign_of_ne _ _ i (db.setBatch i b) _ j hunbatched hj

lemma get?_newBatch {db : TapDb Hash Sig} {dbIds : List ℕ}
    {b c : TapToRskTransferBatch Hash Sig} {j : ℕ}
    (h : ((db.setBatch i b).assign dbIds i).batches.get? j = some c) :
    (j = i ∧ c = b) ∨ (j ≠ i ∧ db.batches.get? j = some c) := by
  have hset : (db.setBatch i b).batches.get? j = some c := h
  rw [TapDb.setBatch, Table.get?_set] at hset
  by_cases hj : j = i
  · rw [if_pos hj] at hset
    exact .inl ⟨hj, (Option.some.inj hset).symm⟩
  · rw [if_neg hj] at hset
    exact .inr ⟨hj, hset⟩

lemma mem_keys_newBatch {db : TapDb Hash Sig} {chosen : List (ℕ × TapToRskTransfer)}
    {b : TapToRskTransferBatch Hash Sig} (hassigned : ∀ j, db.members j ≠ [] → j ∈ db.batches.keys)
    (hsub : ∀ p ∈ chosen, p ∈ db.unbatched) {j : ℕ}
    (hj : ((db.setBatch i b).assign (chosen.map Prod.fst) i).members j ≠ []) :
    j ∈ ((db.setBatch i b).assign (chosen.map Prod.fst) i).batches.keys := by
  show j ∈ (db.batches.set i b).keys
  by_cases heq : j = i
  · exact Table.mem_keys.2 ⟨b, by rw [Table.get?_set, if_pos heq]⟩
  · rw [members_newBatch hsub b heq] at hj
    exact Table.mem_keys_set (hassigned j hj)

/-- A new batch of rows that were in none. -/
lemma sound_newBatch (hs : Sound s) {chosen : List (ℕ × TapToRskTransfer)}
    (hsub : ∀ p ∈ chosen, p ∈ s.db.unbatched) {b : TapToRskTransferBatch Hash Sig}
    (hcreated : b.status = .created) (hempty : b.signatures = .empty) :
    Sound { s with
      db := (s.db.setBatch s.db.nextBatchId b).assign (chosen.map Prod.fst) s.db.nextBatchId } := by
  refine ⟨?_, fun j hj => mem_keys_newBatch hs.assigned hsub hj, hs.paid⟩
  intro j c hc
  rcases get?_newBatch hc with ⟨-, rfl⟩ | ⟨hj, hc⟩
  · refine ⟨fun _ _ p hp => ?_, ?_, ?_⟩
    · rw [hempty] at hp
      cases hp
    · intro hsent
      rw [hcreated] at hsent
      cases hsent
    · intro hfinalized
      rw [hcreated] at hfinalized
      cases hfinalized
  · have hmembers := members_newBatch hsub b hj
    have hold := hs.batch j c hc
    refine ⟨?_, ?_, ?_⟩
    · intro hstatus hne p hp
      have hwell := hold.signed hstatus
      simp only [hmembers] at hne ⊢
      exact hwell hne p hp
    · intro hstatus
      obtain ⟨hcovered, hsent⟩ := hold.sent hstatus
      refine ⟨?_, hsent⟩
      intro p hp
      rw [show _ = s.db.members j from hmembers] at hp
      exact hcovered p hp
    · intro hstatus p hp
      rw [show _ = s.db.members j from hmembers] at hp
      exact hold.finalized hstatus p hp

/-- What finding or forming the current batch comes to. -/
lemma getOrCreateCurrentBatch_ok [DecidableEq Hash] {σ : Ordering} {db db' : TapDb Hash Sig}
    {current : Option (ℕ × TapToRskTransferBatch Hash Sig × List TapToRskTransfer)}
    (h : service.getOrCreateCurrentBatch σ db = .ok (current, db')) :
    (db' = db ∧ ∀ i b transfers, current = some (i, b, transfers) →
      db.batches.get? i = some b ∧ transfers = db.batchTransfers σ i) ∨
    ∃ (chosen : List (ℕ × TapToRskTransfer)) (b : TapToRskTransferBatch Hash Sig),
      chosen.Sublist (σ.sort db.unbatched) ∧ b.status = .created ∧ b.signatures = .empty ∧
      current = some (db.nextBatchId, b, chosen.map Prod.snd) ∧
      db' = (db.setBatch db.nextBatchId b).assign (chosen.map Prod.fst) db.nextBatchId := by
  unfold TapToRskService.getOrCreateCurrentBatch at h
  cases hargmin : List.argmin Prod.fst
      (db.batches.rows.filter fun p => p.2.status ≠ .finalized) with
  | some row =>
      obtain ⟨i, b⟩ := row
      simp only [hargmin, pure_eq_ok, Prod.mk.injEq] at h
      obtain ⟨rfl, rfl⟩ := h
      refine .inl ⟨rfl, ?_⟩
      rintro j c transfers hrow
      obtain ⟨rfl, heq⟩ := Prod.mk.inj (Option.some.inj hrow)
      obtain ⟨rfl, rfl⟩ := Prod.mk.inj heq
      have hmem := (List.mem_filter.1 (List.argmin_mem hargmin)).1
      exact ⟨Table.lookup_of_mem db.batches.nodup hmem, rfl⟩
  | none =>
      simp only [hargmin] at h
      have hsublist := List.take_sublist service.batchLimit (σ.sort db.unbatched)
      generalize (σ.sort db.unbatched).take service.batchLimit = chosen at h hsublist
      cases chosen with
      | nil =>
          simp only [pure_eq_ok, Prod.mk.injEq] at h
          obtain ⟨rfl, rfl⟩ := h
          exact .inl ⟨rfl, by simp⟩
      | cons p rest =>
          simp only [bind_eq_ok, exists_unit, pure_eq_ok, Prod.mk.injEq] at h
          obtain ⟨-, rfl, rfl⟩ := h
          exact .inr ⟨_, _, hsublist, rfl, rfl, rfl, rfl⟩

/-- Rows that are chosen of the sorted rows are each chosen once. -/
lemma chosen_of_sublist {σ : Ordering} {db : TapDb Hash Sig} {chosen : List (ℕ × TapToRskTransfer)}
    (h : chosen.Sublist (σ.sort db.unbatched)) :
    (∀ p ∈ chosen, p ∈ db.unbatched) ∧ chosen.Nodup := by
  have hperm := σ.perm db.unbatched
  refine ⟨fun p hp => hperm.mem_iff.1 (h.subset hp), h.nodup ?_⟩
  exact hperm.nodup_iff.2 (db.transfers.nodup.of_map.filter _)

/-- The batch that is returned is the one the database then holds. -/
lemma isCurrent_currentBatch [DecidableEq Hash] {σ : Ordering}
    {current : Option (CurrentBatch Hash Sig)} {db : TapDb Hash Sig}
    (hassigned : ∀ i, s.db.members i ≠ [] → i ∈ s.db.batches.keys)
    (h : service.currentBatch σ s.db = .ok (current, db)) :
    ∀ c, current = some c → IsCurrent { s with db := db } c := by
  simp only [TapToRskService.currentBatch, bind_eq_ok, pure_eq_ok, Prod.exists,
    Prod.mk.injEq] at h
  obtain ⟨found, db', hfound, rfl, rfl⟩ := h
  intro c hc
  rcases getOrCreateCurrentBatch_ok hfound with
    ⟨rfl, hrow⟩ | ⟨chosen, b, hsublist, -, -, rfl, rfl⟩
  · obtain ⟨⟨i, b, transfers⟩, hsome, rfl⟩ := Option.map_eq_some_iff.1 hc
    obtain ⟨hb, rfl⟩ := hrow i b transfers hsome
    refine ⟨b, hb, rfl, rfl, ?_⟩
    show (s.db.batchTransfers σ i).length = _
    rw [TapDb.batchTransfers, List.length_map, (σ.perm _).length_eq]
  · obtain ⟨hsub, hnodup⟩ := chosen_of_sublist hsublist
    obtain rfl := Option.some.inj hc
    refine ⟨_, (Table.get?_set _ _ _ _).trans (if_pos rfl), rfl, rfl, ?_⟩
    have hnone : s.db.members s.db.nextBatchId = [] := by
      by_contra hne
      exact nextBatchId_notMem s.db (hassigned _ hne)
    have hlength := length_members_assign (fun q hq => (List.mem_filter.1 (hsub q hq)).1)
      hnodup hnone
    exact (List.length_map _).trans hlength.symm

lemma currentBatch_sound [DecidableEq Hash] {σ : Ordering}
    {current : Option (CurrentBatch Hash Sig)} {db : TapDb Hash Sig} (hs : Sound s)
    (h : service.currentBatch σ s.db = .ok (current, db)) : Sound { s with db := db } := by
  simp only [TapToRskService.currentBatch, bind_eq_ok, pure_eq_ok, Prod.exists,
    Prod.mk.injEq] at h
  obtain ⟨found, db', hfound, -, rfl⟩ := h
  rcases getOrCreateCurrentBatch_ok hfound with
    ⟨rfl, -⟩ | ⟨chosen, b, hsublist, hcreated, hempty, -, rfl⟩
  · exact hs
  · exact sound_newBatch hs (chosen_of_sublist hsublist).1 hcreated hempty

/-! ## One iteration -/

lemma keeps_processBatch {c : CurrentBatch Hash Sig} (hs : Sound s) (hc : IsCurrent s c) :
    Keeps C rskAccount (service.processBatch c) (fun _ _ => True) s := by
  obtain ⟨b, hb, hstatus, hsignatures, hnum⟩ := hc
  have hbatch := hs.batch _ b hb
  rw [TapToRskService.processBatch]
  apply Ensures.bind (R := fun r s' => Sound s' ∧ ReadyToSend s' c.batchId r.1 r.2 ∧
    (r.1 = .sentToRsk → SentBatch s' c.batchId))
  · by_cases hcreated : c.status = .created
    · rw [if_pos hcreated]
      apply (keeps_collect hs hnum _ hcreated).mono
      · rintro r s' ⟨hs', hready, hne⟩
        exact ⟨hs', hready, fun hsent => absurd hsent hne⟩
      · rw [← hsignatures]
        exact hbatch.signed (.inl (hstatus.trans hcreated))
    · rw [if_neg hcreated]
      refine ensures_pure.2 ⟨hs, ?_, fun hsent => ⟨b, hb, hstatus.trans hsent⟩⟩
      intro hcollected
      show WellSigned s c.batchId c.signaturesBySigner
      rw [← hsignatures]
      exact hbatch.signed (.inr (hstatus.trans hcollected))
  rintro ⟨status, signatures⟩ s₁ ⟨hs₁, hready, hsent⟩
  apply Ensures.bind (R := fun status s' => Sound s' ∧
    (status = .sentToRsk → SentBatch s' c.batchId))
  · by_cases hcollected : status = .signaturesCollected
    · simp only [if_pos hcollected]
      apply (keeps_send hs₁ (hready hcollected)).mono
      rintro status s' ⟨hs', hsent'⟩
      exact ⟨hs', fun _ => hsent'⟩
    · simp only [if_neg hcollected]
      exact ensures_pure.2 ⟨hs₁, hsent⟩
  rintro status s₂ ⟨hs₂, hsent₂⟩
  by_cases hsending : status = .sendingToRsk
  · simp only [if_pos hsending]
    exact ensures_throw
  · simp only [if_neg hsending]
    by_cases hsentToRsk : status = .sentToRsk
    · simp only [if_pos hsentToRsk]
      exact (keeps_finalize hs₂ (hsent₂ hsentToRsk)).mono fun _ _ _ => trivial
    · simp only [if_neg hsentToRsk]
      exact ensures_pure.2 trivial

lemma keeps_processCurrentTransferBatch [DecidableEq Hash] (hs : Sound s) :
    Keeps C rskAccount service.processCurrentTransferBatch (fun _ _ => True) s := by
  rw [TapToRskService.processCurrentTransferBatch]
  apply Ensures.bind (R := fun current s' => Sound s' ∧ ∀ c, current = some c → IsCurrent s' c)
  · apply keeps_transaction hs
    intro s₁ σ current db hs₁ _ hcurrent
    exact ⟨currentBatch_sound hs₁ hcurrent, isCurrent_currentBatch hs₁.assigned hcurrent⟩
  rintro current s₁ ⟨hs₁, hcurrent⟩
  cases current with
  | none => exact ensures_pure.2 trivial
  | some c => exact keeps_processBatch hs₁ (hcurrent c rfl)

end TapLeader

end NbteBridge
