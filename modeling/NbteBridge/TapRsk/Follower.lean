import NbteBridge.TapRsk.OwnSignatures

/-!
# The nodes that sign

A node that is no leader signs the batches it is asked about.  It looks whether a transfer is
processed already, signs them all, and stores its signatures under the hash of the batch.  Asked
about that hash again, it answers with what it stored, whatever transfers the question has.

So whoever asks what, the node signs once for each hash, nothing the contract has processed, and
gives the same answer each time; and as long as a hash stands for the same transfers, the leader
finds the answer good, however often it has to ask.
-/

namespace NbteBridge

open Checked Effects Runs Tables

/-- The node's account. -/
structure RskAccount (Hash Sig : Type) where
  address : Address
  /-- `sign_message`, of the prefixed hash. -/
  signMessage : Hash → Sig

/-- The calls to the contract while the node answers. -/
structure TapBridgeViews (Hash : Type) where
  isProcessed : Bytes32 → Uint256 → PyResult Bool
  getTransferFromTapMessageHash : TransferFromTap → PyResult Hash

namespace TapToRskService

variable {Hash Sig : Type} [DecidableEq Hash]

/-- The loop over the transfers, and what `my_signatures` is after it. -/
def signTransfers (account : RskAccount Hash Sig) (views : TapBridgeViews Hash) :
    List (SerializedTapToRskTransfer Hash) → PyResult (List Sig)
  | [] => pure []
  | transfer :: transfers => do
      let processed ← views.isProcessed transfer.depositBtcTxId transfer.depositBtcTxVout
      require (processed = false) (.valueError "Transfer already processed")
      let messageHash ← views.getTransferFromTapMessageHash transfer.toTransferFromTap
      let signatures ← signTransfers account views transfers
      pure (account.signMessage messageHash :: signatures)

/-- `_answer_sign_transfer_batch`: the answer, and the database after it. -/
def answerSignTransferBatch (isLeader : Bool) (account : RskAccount Hash Sig)
    (views : TapBridgeViews Hash) (serializedBatch : SerializedTapToRskTransferBatch Hash Sig)
    (db : TapDb Hash Sig) : PyResult (SignTransferBatchAnswer Sig × TapDb Hash Sig) := do
  require (isLeader = false) (.valueError "Leader doesn't answer to anyone")
  require (serializedBatch.status = .created) (.valueError "Only created batches can be signed")
  match serializedBatch.signatures.get? account.address with
  | some signatures => pure (⟨signatures, account.address⟩, db)
  | none =>
      match db.batches.rows.find? fun p => p.2.hash = serializedBatch.hash with
      | some (_, existingBatch) => do
          -- not signed again
          let signatures ← orError (existingBatch.signatures.get? account.address)
            (.other "KeyError")
          pure (⟨signatures, account.address⟩, db)
      | none => do
          let signatures ← signTransfers account views serializedBatch.transfers
          -- the other signatures are taken as they are
          let transferBatch : TapToRskTransferBatch Hash Sig := {
            hash := serializedBatch.hash
            status := .created
            signatures := serializedBatch.signatures.set account.address signatures
            executedTxHash := none }
          pure (⟨signatures, account.address⟩, db.setBatch db.nextBatchId transferBatch)

end TapToRskService

/-! ## Runs -/

/-- A node that is no leader. -/
structure TapFollower (Hash Sig : Type) where
  db : TapDb Hash Sig
  chain : TapWorld
  /-- What the account has signed, batch by batch with its hash, oldest first. -/
  signed : List (Hash × List TransferFromTap)

inductive TapFollowerAction (Hash Sig : Type)
  | called (sender : Address) (call : TapCall Sig)
  | deposited
  | asked (question : SerializedTapToRskTransferBatch Hash Sig)
      (answer : SignTransferBatchAnswer Sig)

/-- The questions that were answered, with the answers. -/
def TapFollowerAction.answeredOf {Hash Sig : Type} (tr : List (TapFollowerAction Hash Sig)) :
    List (SerializedTapToRskTransferBatch Hash Sig × SignTransferBatchAnswer Sig) :=
  tr.filterMap fun
    | .asked question answer => some (question, answer)
    | _ => none

/-- The transfers a question is about. -/
def SerializedTapToRskTransferBatch.asksFor {Hash Sig : Type}
    (q : SerializedTapToRskTransferBatch Hash Sig) : List TransferFromTap :=
  q.transfers.map SerializedTapToRskTransfer.toTransferFromTap

section

variable {Hash Sig : Type} (C : Crypto Hash Sig)

/-- The calls tell of the contract as it is, or raise. -/
structure TapBridgeViews.Reads (chain : TapWorld) (views : TapBridgeViews Hash) : Prop where
  isProcessed : ∀ txId vout processed, views.isProcessed txId vout = .ok processed →
    processed = chain.bridge.isProcessed txId vout
  messageHash : ∀ t h, views.getTransferFromTapMessageHash t = .ok h →
    h = TapBridge.getTransferFromTapMessageHash C chain.self t

/-- The account's signature of a transfer, for the bridge at an address. -/
def RskAccount.sign (account : RskAccount Hash Sig) (bridge : Address) (t : TransferFromTap) :
    Sig :=
  account.signMessage (TapBridge.getTransferFromTapMessageHash C bridge t)

end

namespace TapFollower

variable {Hash Sig : Type} [DecidableEq Hash]

/-- What the answer to a question makes the account sign. -/
def newlySigned (account : RskAccount Hash Sig) (db : TapDb Hash Sig)
    (q : SerializedTapToRskTransferBatch Hash Sig) : List (Hash × List TransferFromTap) :=
  if q.signatures.get? account.address = none ∧ ∀ p ∈ db.batches.rows, p.2.hash ≠ q.hash then
    [(q.hash, q.asksFor)]
  else []

variable (C : Crypto Hash Sig) (account : RskAccount Hash Sig)

/-- The answer may still get lost on its way, or the node crash. -/
inductive Step :
    TapFollower Hash Sig → TapFollowerAction Hash Sig → TapFollower Hash Sig → Prop
  | called {s : TapFollower Hash Sig} {sender : Address} {call : TapCall Sig} {chain : TapWorld}
      (h : TapWorld.Step C s.chain (sender, call) chain) :
      Step s (.called sender call) { s with chain }
  /-- The scan. -/
  | deposited {s : TapFollower Hash Sig} {dbId : ℕ} {t : TapToRskTransfer} :
      Step s .deposited { s with db := s.db.setTransfer dbId t }
  | asked {s : TapFollower Hash Sig} {views : TapBridgeViews Hash}
      {question : SerializedTapToRskTransferBatch Hash Sig} {answer : SignTransferBatchAnswer Sig}
      {db : TapDb Hash Sig} (reads : views.Reads C s.chain)
      (h : TapToRskService.answerSignTransferBatch false account views question s.db =
        .ok (answer, db)) :
      Step s (.asked question answer)
        { s with db, signed := s.signed ++ newlySigned account s.db question }

/-- A node that has answered nothing. -/
def Started (s : TapFollower Hash Sig) : Prop := s.db = .empty ∧ s.signed = []

/-! ## One answer -/

variable {C account} {s s' : TapFollower Hash Sig} {db db' : TapDb Hash Sig}
  {views : TapBridgeViews Hash} {chain : TapWorld}
  {question : SerializedTapToRskTransferBatch Hash Sig} {answer : SignTransferBatchAnswer Sig}

omit [DecidableEq Hash] in
/-- The loop signs everything, and nothing that is processed. -/
lemma signTransfers_ok (hreads : views.Reads C chain)
    {transfers : List (SerializedTapToRskTransfer Hash)} {signatures : List Sig}
    (h : TapToRskService.signTransfers account views transfers = .ok signatures) :
    signatures = transfers.map (fun t => account.sign C chain.self t.toTransferFromTap) ∧
      ∀ t ∈ transfers,
        chain.bridge.isProcessed t.depositBtcTxId t.depositBtcTxVout = false := by
  induction transfers generalizing signatures with
  | nil =>
      obtain rfl := pure_eq_ok.1 h
      exact ⟨rfl, fun _ ht => absurd ht List.not_mem_nil⟩
  | cons transfer transfers ih =>
      simp only [TapToRskService.signTransfers, bind_eq_ok, exists_unit, require_eq_ok,
        pure_eq_ok] at h
      obtain ⟨processed, hprocessed, hfree, messageHash, hhash, rest, hrest, rfl⟩ := h
      obtain ⟨hsigned, hunprocessed⟩ := ih hrest
      have hread := hreads.isProcessed _ _ _ hprocessed
      rw [hfree] at hread
      refine ⟨?_, fun t ht => ?_⟩
      · rw [List.map_cons, ← hsigned, hreads.messageHash _ _ hhash]
        rfl
      · rcases List.mem_cons.1 ht with rfl | ht
        · exact hread.symm
        · exact hunprocessed t ht

omit [DecidableEq Hash] in
/-- What it signs for a question. -/
lemma asksFor_of_signTransfers (hreads : views.Reads C chain) {signatures : List Sig}
    (h : TapToRskService.signTransfers account views question.transfers = .ok signatures) :
    signatures = question.asksFor.map (account.sign C chain.self) := by
  rw [(signTransfers_ok hreads h).1, SerializedTapToRskTransferBatch.asksFor, List.map_map]
  rfl

/-- How a question is answered. -/
inductive Answered (account : RskAccount Hash Sig) (views : TapBridgeViews Hash)
    (question : SerializedTapToRskTransferBatch Hash Sig) (db : TapDb Hash Sig) :
    List Sig → TapDb Hash Sig → Prop
  /-- With the signatures the question has. -/
  | echoed {signatures : List Sig}
      (own : question.signatures.get? account.address = some signatures) :
      Answered account views question db signatures db
  /-- With those stored for its hash. -/
  | stored {signatures : List Sig} {p : ℕ × TapToRskTransferBatch Hash Sig}
      (unsigned : question.signatures.get? account.address = none) (row : p ∈ db.batches.rows)
      (hash : p.2.hash = question.hash)
      (own : p.2.signatures.get? account.address = some signatures) :
      Answered account views question db signatures db
  | signed {signatures : List Sig}
      (unsigned : question.signatures.get? account.address = none)
      (new : ∀ p ∈ db.batches.rows, p.2.hash ≠ question.hash)
      (signs : TapToRskService.signTransfers account views question.transfers = .ok signatures) :
      Answered account views question db signatures (db.setBatch db.nextBatchId
        ⟨question.hash, .created, question.signatures.set account.address signatures, none⟩)

lemma answerSignTransferBatch_ok
    (h : TapToRskService.answerSignTransferBatch false account views question db =
      .ok (answer, db')) :
    answer.signer = account.address ∧
      Answered account views question db answer.signatures db' := by
  simp only [TapToRskService.answerSignTransferBatch, bind_eq_ok, exists_unit] at h
  obtain ⟨-, -, h⟩ := h
  split at h
  · rename_i signatures hown
    obtain ⟨rfl, rfl⟩ := Prod.mk.inj (pure_eq_ok.1 h)
    exact ⟨rfl, .echoed hown⟩
  · rename_i hunsigned
    split at h
    · rename_i i existing hfound
      simp only [bind_eq_ok, orError_eq_ok, pure_eq_ok, Prod.mk.injEq] at h
      obtain ⟨signatures, hown, rfl, rfl⟩ := h
      have hhash := List.find?_some hfound
      exact ⟨rfl, .stored hunsigned (List.mem_of_find?_eq_some hfound) (of_decide_eq_true hhash)
        hown⟩
    · rename_i hnone
      simp only [bind_eq_ok, pure_eq_ok, Prod.mk.injEq] at h
      obtain ⟨signatures, hsigns, rfl, rfl⟩ := h
      refine ⟨rfl, .signed hunsigned (fun p hp => ?_) hsigns⟩
      simpa using List.find?_eq_none.1 hnone p hp

/-! ## What the node remembers -/

/-- The database has what was signed, and what was signed was asked for and answered. -/
structure Remembers (C : Crypto Hash Sig) (account : RskAccount Hash Sig) (s : TapFollower Hash Sig)
    (answered : List (SerializedTapToRskTransferBatch Hash Sig × SignTransferBatchAnswer Sig)) :
    Prop where
  once : (s.signed.map Prod.fst).Nodup
  stored : s.db.batches.rows.map (fun p => (p.2.hash, p.2.signatures.get? account.address)) =
    s.signed.map fun b => (b.1, some (b.2.map (account.sign C s.chain.self)))
  asked : ∀ b ∈ s.signed, ∃ a ∈ answered, a.1.hash = b.1 ∧ a.1.asksFor = b.2
  answered : ∀ a ∈ answered, a.2.signer = account.address ∧
    (a.1.signatures.get? account.address = some a.2.signatures ∨
      a.1.signatures.get? account.address = none ∧ ∃ b ∈ s.signed, b.1 = a.1.hash ∧
        a.2.signatures = b.2.map (account.sign C s.chain.self))

omit [DecidableEq Hash] in
lemma remembers_of_started (h : s.Started) : s.Remembers C account [] := by
  obtain ⟨hdb, hsigned⟩ := h
  refine ⟨?_, ?_, ?_, fun _ ha => absurd ha List.not_mem_nil⟩
  · rw [hsigned]
    exact List.nodup_nil
  · rw [hdb, hsigned]
    rfl
  · rw [hsigned]
    exact fun _ hb => absurd hb List.not_mem_nil

section Remembers

variable {answered : List (SerializedTapToRskTransferBatch Hash Sig × SignTransferBatchAnswer Sig)}

omit [DecidableEq Hash] in
/-- A batch that is stored was signed. -/
lemma Remembers.signed_of_row (h : s.Remembers C account answered)
    {p : ℕ × TapToRskTransferBatch Hash Sig} (hp : p ∈ s.db.batches.rows) :
    ∃ b ∈ s.signed, b.1 = p.2.hash ∧
      p.2.signatures.get? account.address = some (b.2.map (account.sign C s.chain.self)) := by
  have hmem : (p.2.hash, p.2.signatures.get? account.address) ∈
      s.signed.map fun b => (b.1, some (b.2.map (account.sign C s.chain.self))) := by
    rw [← h.stored]
    exact List.mem_map.2 ⟨p, hp, rfl⟩
  obtain ⟨b, hb, heq⟩ := List.mem_map.1 hmem
  obtain ⟨hhash, hsignatures⟩ := Prod.mk.inj heq
  exact ⟨b, hb, hhash, hsignatures.symm⟩

omit [DecidableEq Hash] in
/-- A batch that was signed is stored. -/
lemma Remembers.row_of_signed (h : s.Remembers C account answered)
    {b : Hash × List TransferFromTap} (hb : b ∈ s.signed) :
    ∃ p ∈ s.db.batches.rows, p.2.hash = b.1 := by
  have hmem : (b.1, some (b.2.map (account.sign C s.chain.self))) ∈ s.db.batches.rows.map
      fun p => (p.2.hash, p.2.signatures.get? account.address) := by
    rw [h.stored]
    exact List.mem_map.2 ⟨b, hb, rfl⟩
  obtain ⟨p, hp, heq⟩ := List.mem_map.1 hmem
  exact ⟨p, hp, (Prod.mk.inj heq).1⟩

omit [DecidableEq Hash] in
/-- For one hash, one batch was signed. -/
lemma Remembers.unique (h : s.Remembers C account answered) {b b' : Hash × List TransferFromTap}
    (hb : b ∈ s.signed) (hb' : b' ∈ s.signed) (heq : b.1 = b'.1) : b = b' :=
  List.inj_on_of_nodup_map h.once hb hb' heq

omit [DecidableEq Hash] in
/-- One more answer, to a question that makes nothing be signed. -/
lemma Remembers.answer_step (h : s.Remembers C account answered)
    (hsigner : answer.signer = account.address)
    (hanswer : question.signatures.get? account.address = some answer.signatures ∨
      question.signatures.get? account.address = none ∧ ∃ b ∈ s.signed, b.1 = question.hash ∧
        answer.signatures = b.2.map (account.sign C s.chain.self)) :
    s.Remembers C account (answered ++ [(question, answer)]) := by
  refine ⟨h.once, h.stored, fun b hb => ?_, fun a ha => ?_⟩
  · obtain ⟨a, ha, hfor⟩ := h.asked b hb
    exact ⟨a, List.mem_append_left _ ha, hfor⟩
  · rcases List.mem_append.1 ha with ha | ha
    · exact h.answered a ha
    · obtain rfl := List.mem_singleton.1 ha
      exact ⟨hsigner, hanswer⟩

/-- **An answer.** -/
lemma Remembers.asked_step (h : s.Remembers C account answered) (hreads : views.Reads C s.chain)
    (hanswer : TapToRskService.answerSignTransferBatch false account views question s.db =
      .ok (answer, db)) :
    Remembers C account { s with db, signed := s.signed ++ newlySigned account s.db question }
      (answered ++ [(question, answer)]) := by
  obtain ⟨hsigner, hanswered⟩ := answerSignTransferBatch_ok hanswer
  cases hanswered with
  | echoed hown =>
      have hnothing : newlySigned account s.db question = [] := by
        rw [newlySigned, if_neg (by simp [hown])]
      rw [hnothing, List.append_nil]
      exact h.answer_step hsigner (.inl hown)
  | @stored p hunsigned hrow hhash hown =>
      have hnothing : newlySigned account s.db question = [] := by
        rw [newlySigned, if_neg fun hnew => hnew.2 _ hrow hhash]
      obtain ⟨b, hb, hb₁, hb₂⟩ := h.signed_of_row hrow
      rw [hown] at hb₂
      rw [hnothing, List.append_nil]
      exact h.answer_step hsigner
        (.inr ⟨hunsigned, b, hb, hb₁.trans hhash, Option.some.inj hb₂⟩)
  | signed hunsigned hnew hsigns =>
      have hone : newlySigned account s.db question = [(question.hash, question.asksFor)] :=
        if_pos ⟨hunsigned, hnew⟩
      have hsignatures := asksFor_of_signTransfers hreads hsigns
      have hfree : s.db.batches.get? s.db.nextBatchId = none := by
        by_contra hne
        obtain ⟨b, hb⟩ := Option.ne_none_iff_exists'.1 hne
        exact TapLeader.nextBatchId_notMem s.db (Table.mem_keys.2 ⟨b, hb⟩)
      rw [hone]
      refine ⟨?_, ?_, ?_, ?_⟩
      · rw [List.map_append, List.map_singleton]
        refine h.once.append (List.nodup_singleton _) fun hash hmem hsingle => ?_
        obtain ⟨b, hb, rfl⟩ := List.mem_map.1 hmem
        obtain ⟨p, hp, hhash⟩ := h.row_of_signed hb
        exact hnew p hp (hhash.trans (List.mem_singleton.1 hsingle))
      · rw [TapDb.setBatch, Table.rows_set_of_get?_eq_none _ hfree, List.map_append,
          List.map_append, h.stored, List.map_singleton, List.map_singleton, Table.get?_set,
          if_pos rfl, hsignatures]
      · intro b hb
        rcases List.mem_append.1 hb with hb | hb
        · obtain ⟨a, ha, hfor⟩ := h.asked b hb
          exact ⟨a, List.mem_append_left _ ha, hfor⟩
        · obtain rfl := List.mem_singleton.1 hb
          exact ⟨(question, answer), List.mem_append_right _ List.mem_cons_self, rfl, rfl⟩
      · intro a ha
        rcases List.mem_append.1 ha with ha | ha
        · obtain ⟨hsigner', hbefore | ⟨hno, b, hb, hfor⟩⟩ := h.answered a ha
          · exact ⟨hsigner', .inl hbefore⟩
          · exact ⟨hsigner', .inr ⟨hno, b, List.mem_append_left _ hb, hfor⟩⟩
        · obtain rfl := List.mem_singleton.1 ha
          exact ⟨hsigner, .inr ⟨hunsigned, _, List.mem_append_right _ List.mem_cons_self, rfl,
            hsignatures⟩⟩

omit [DecidableEq Hash] in
/-- The contract keeps its address. -/
lemma Remembers.called (h : s.Remembers C account answered) (hself : chain.self = s.chain.self) :
    Remembers C account { s with chain } answered := by
  refine ⟨h.once, ?_, h.asked, fun a ha => ?_⟩
  · show _ = s.signed.map fun b => (b.1, some (b.2.map (account.sign C chain.self)))
    rw [hself]
    exact h.stored
  · show _ ∧ (_ ∨ _ ∧ ∃ b ∈ s.signed, _ ∧ _ = b.2.map (account.sign C chain.self))
    rw [hself]
    exact h.answered a ha

end Remembers

lemma remembers_of_run {tr : List (TapFollowerAction Hash Sig)}
    (h : Run Started (Step C account) tr s) :
    s.Remembers C account (TapFollowerAction.answeredOf tr) := by
  refine h.invariant (I := fun tr s => s.Remembers C account (TapFollowerAction.answeredOf tr))
    (fun _ hs => remembers_of_started hs) ?_
  intro tr s a s' _ hremembers hs
  have happend : TapFollowerAction.answeredOf (tr ++ [a]) =
      TapFollowerAction.answeredOf tr ++ TapFollowerAction.answeredOf [a] :=
    List.filterMap_append
  rw [happend]
  cases hs with
  | called hcall =>
      have hcalled := hremembers.called (TapWorld.self_of_step hcall)
      rwa [← List.append_nil (TapFollowerAction.answeredOf tr)] at hcalled
  | deposited =>
      have hkept := hremembers
      rw [← List.append_nil (TapFollowerAction.answeredOf tr)] at hkept
      exact ⟨hkept.once, hkept.stored, hkept.asked, hkept.answered⟩
  | asked hreads hanswer => exact hremembers.asked_step hreads hanswer

/-! ### What the leader is told -/

/-- The question is about what its hash was signed for, and its signatures of the account, if it
has any, are those the account gave. -/
structure Agrees (C : Crypto Hash Sig) (account : RskAccount Hash Sig) (s : TapFollower Hash Sig)
    (question : SerializedTapToRskTransferBatch Hash Sig) : Prop where
  own : ∀ signatures, question.signatures.get? account.address = some signatures →
    signatures = question.asksFor.map (account.sign C s.chain.self)
  transfers : ∀ b ∈ s.signed, b.1 = question.hash → b.2 = question.asksFor

/-- The answer has the account's signatures of all transfers. -/
lemma signatures_of_agrees
    {answered : List (SerializedTapToRskTransferBatch Hash Sig × SignTransferBatchAnswer Sig)}
    (h : s.Remembers C account answered) (hagrees : s.Agrees C account question)
    (hreads : views.Reads C s.chain)
    (hanswer : TapToRskService.answerSignTransferBatch false account views question s.db =
      .ok (answer, db)) :
    answer.signatures = question.asksFor.map (account.sign C s.chain.self) := by
  obtain ⟨-, hanswered⟩ := answerSignTransferBatch_ok hanswer
  cases hanswered with
  | echoed hown => exact hagrees.own _ hown
  | stored hunsigned hrow hhash hown =>
      obtain ⟨b, hb, hb₁, hb₂⟩ := h.signed_of_row hrow
      rw [hown] at hb₂
      rw [Option.some.inj hb₂, hagrees.transfers b hb (hb₁.trans hhash)]
  | signed hunsigned hnew hsigns => exact asksFor_of_signTransfers hreads hsigns

end TapFollower

namespace TapToRskService

variable {Hash Sig : Type} [DecidableEq Hash]

/-- What the account signs is recovered to it. -/
def Recovers (service : TapToRskService Hash Sig) (account : RskAccount Hash Sig) : Prop :=
  ∀ h, service.recoverMessage h (account.signMessage h) = .ok account.address

/-- The leader counts the signatures of an answer and finds them good, whatever state it is in,
when its calls go through. -/
def FindsGood (service : TapToRskService Hash Sig) (C : Crypto Hash Sig) (bridge : Address)
    (question : SerializedTapToRskTransferBatch Hash Sig) (answer : SignTransferBatchAnswer Sig) :
    Prop :=
  answer.signatures.length = question.transfers.length ∧
    ∀ (l : TapLeader Hash Sig) (answers : List (SignTransferBatchAnswer Sig))
      (env : ℕ → Ordering), l.chain.self = bridge →
      (service.checkSignatures answer.signer (question.transfers.zip answer.signatures)).eval
        (TapLeader.handle C answers) (fun k => some (env k)) l = (.ok true, l)

variable {service : TapToRskService Hash Sig} {C : Crypto Hash Sig} {account : RskAccount Hash Sig}
  {l : TapLeader Hash Sig} {answers : List (SignTransferBatchAnswer Sig)}

omit [DecidableEq Hash] in
lemma eval_checkSignatures (hrecovers : service.Recovers account)
    {transfers : List (SerializedTapToRskTransfer Hash)} {env : ℕ → Ordering} :
    (service.checkSignatures account.address (transfers.zip (transfers.map fun t =>
      account.sign C l.chain.self t.toTransferFromTap))).eval (TapLeader.handle C answers)
        (fun k => some (env k)) l = (.ok true, l) := by
  induction transfers generalizing env with
  | nil => rfl
  | cons t transfers ih =>
      have hrecovered : service.recoverMessage
          (TapBridge.getTransferFromTapMessageHash C l.chain.self t.toTransferFromTap)
          (account.sign C l.chain.self t.toTransferFromTap) = .ok account.address := hrecovers _
      rw [List.map_cons, List.zip_cons_cons, checkSignatures]
      refine (eval_perform_bind
        (o := TapOp.getTransferFromTapMessageHash t.toTransferFromTap)).trans ?_
      refine (eval_lift_bind (x := service.recoverMessage
        (TapBridge.getTransferFromTapMessageHash C l.chain.self t.toTransferFromTap)
        (account.sign C l.chain.self t.toTransferFromTap))).trans ?_
      rw [hrecovered]
      simp only [ne_eq, not_true_eq_false, if_false]
      exact ih

end TapToRskService

namespace TapFollower

variable {Hash Sig : Type} [DecidableEq Hash]

/-- For each hash the account has signed the transfers of one question, and it has given the same
answer to all questions with this hash, but for those that bring signatures of its own. -/
structure SignsOnce (account : RskAccount Hash Sig) (s : TapFollower Hash Sig)
    (answered : List (SerializedTapToRskTransferBatch Hash Sig × SignTransferBatchAnswer Sig)) :
    Prop where
  once : (s.signed.map Prod.fst).Nodup
  asked : ∀ b ∈ s.signed, ∃ a ∈ answered, a.1.hash = b.1 ∧ a.1.asksFor = b.2
  same : ∀ a ∈ answered, ∀ b ∈ answered, a.1.hash = b.1.hash →
    a.1.signatures.get? account.address = none → b.1.signatures.get? account.address = none →
    a.2 = b.2

omit [DecidableEq Hash] in
lemma Remembers.signsOnce {C : Crypto Hash Sig} {account : RskAccount Hash Sig}
    {s : TapFollower Hash Sig}
    {answered : List (SerializedTapToRskTransferBatch Hash Sig × SignTransferBatchAnswer Sig)}
    (h : s.Remembers C account answered) : s.SignsOnce account answered := by
  refine ⟨h.once, h.asked, ?_⟩
  rintro ⟨qa, sa, ra⟩ ha ⟨qb, sb, rb⟩ hb hhash hnoneA hnoneB
  obtain ⟨rfl, hownA | ⟨-, x, hx, hxhash, rfl⟩⟩ := h.answered _ ha
  · rw [hnoneA] at hownA
    cases hownA
  · obtain ⟨rfl, hownB | ⟨-, y, hy, hyhash, rfl⟩⟩ := h.answered _ hb
    · rw [hnoneB] at hownB
      cases hownB
    · rw [h.unique hx hy (hxhash.trans (hhash.trans hyhash.symm))]

/-- What was not signed before is not processed. -/
lemma unprocessed_of_asked {C : Crypto Hash Sig} {account : RskAccount Hash Sig}
    {s : TapFollower Hash Sig} {views : TapBridgeViews Hash} {db : TapDb Hash Sig}
    {question : SerializedTapToRskTransferBatch Hash Sig} {answer : SignTransferBatchAnswer Sig}
    (hreads : views.Reads C s.chain)
    (hanswer : TapToRskService.answerSignTransferBatch false account views question s.db =
      .ok (answer, db)) :
    ∀ b ∈ newlySigned account s.db question, ∀ t ∈ b.2,
      s.chain.bridge.isProcessed t.btcTxId t.btcTxVout = false := by
  intro b hb t ht
  rw [newlySigned] at hb
  split at hb
  · rename_i hnew
    obtain rfl := List.mem_singleton.1 hb
    obtain ⟨-, hanswered⟩ := answerSignTransferBatch_ok hanswer
    cases hanswered with
    | echoed hown =>
        rw [hnew.1] at hown
        cases hown
    | stored hunsigned hrow hhash hown => exact absurd hhash (hnew.2 _ hrow)
    | signed hunsigned hfree hsigns =>
        obtain ⟨transfer, htransfer, rfl⟩ := List.mem_map.1 ht
        exact (signTransfers_ok hreads hsigns).2 transfer htransfer
  · cases hb

lemma signer_of_answered {C : Crypto Hash Sig} {account : RskAccount Hash Sig}
    {s s' : TapFollower Hash Sig} {question : SerializedTapToRskTransferBatch Hash Sig}
    {answer : SignTransferBatchAnswer Sig} (h : Step C account s (.asked question answer) s') :
    answer.signer = account.address := by
  cases h with
  | asked hreads hanswer => exact (answerSignTransferBatch_ok hanswer).1

/-- An answer the leader finds good. -/
lemma findsGood_of_asked {C : Crypto Hash Sig} {account : RskAccount Hash Sig}
    {s s' : TapFollower Hash Sig} {question : SerializedTapToRskTransferBatch Hash Sig}
    {answer : SignTransferBatchAnswer Sig} {service : TapToRskService Hash Sig}
    {answered : List (SerializedTapToRskTransferBatch Hash Sig × SignTransferBatchAnswer Sig)}
    (h : s.Remembers C account answered) (hs : Step C account s (.asked question answer) s')
    (hrecovers : service.Recovers account) (hagrees : s.Agrees C account question) :
    service.FindsGood C s.chain.self question answer := by
  have hsigner := signer_of_answered hs
  cases hs with
  | asked hreads hanswer =>
      have hsignatures := signatures_of_agrees h hagrees hreads hanswer
      rw [SerializedTapToRskTransferBatch.asksFor, List.map_map] at hsignatures
      refine ⟨?_, fun l answers env hself => ?_⟩
      · rw [hsignatures, List.length_map]
      · rw [hsigner, hsignatures, ← hself]
        exact TapToRskService.eval_checkSignatures hrecovers

end TapFollower

/-- **The nodes that sign do so once**, in every run, whoever asks them what: for each hash of a
batch a node signs the transfers of one question, nothing the contract has processed, and whoever
asks about the hash again gets the same answer.  When the question is about the same transfers, the
leader finds the answer good. -/
theorem tap_followers_sign_once {Hash Sig : Type} [DecidableEq Hash] {C : Crypto Hash Sig}
    {account : RskAccount Hash Sig} {tr : List (TapFollowerAction Hash Sig)}
    {s : TapFollower Hash Sig} (h : Run TapFollower.Started (TapFollower.Step C account) tr s) :
    s.SignsOnce account (TapFollowerAction.answeredOf tr) ∧
      ∀ question answer s', TapFollower.Step C account s (.asked question answer) s' →
        (∀ b ∈ s'.signed, b ∉ s.signed → ∀ t ∈ b.2,
          s.chain.bridge.isProcessed t.btcTxId t.btcTxVout = false) ∧
        ∀ service : TapToRskService Hash Sig, service.Recovers account →
          s.Agrees C account question → service.FindsGood C s.chain.self question answer := by
  have hremembers := TapFollower.remembers_of_run h
  refine ⟨hremembers.signsOnce, fun question answer s' hs => ⟨?_, ?_⟩⟩
  · cases hs with
    | asked hreads hanswer =>
        intro b hb hnew
        have hadded := (List.mem_append.1 hb).resolve_left hnew
        exact TapFollower.unprocessed_of_asked hreads hanswer b hadded
  · intro service hrecovers hagrees
    exact TapFollower.findsGood_of_asked hremembers hs hrecovers hagrees

/-! ## Example -/

namespace ExampleTapFollower

def account : RskAccount Bytes (Address × Bytes) :=
  ⟨5, fun h => (5, symbolicCrypto.toEthSignedMessageHash h)⟩

/-- A batch of one deposit. -/
def question : SerializedTapToRskTransferBatch Bytes (Address × Bytes) where
  hash := TapToRskTransferBatch.computeHash ⟨id, id⟩ [TapLeader.Example.small]
  status := .created
  signatures := .empty
  transfers := [TapLeader.Example.small.serialize ⟨id, id⟩]

def views (chain : TapWorld) : TapBridgeViews Bytes where
  isProcessed txId vout := .ok (chain.bridge.isProcessed txId vout)
  getTransferFromTapMessageHash t :=
    .ok (TapBridge.getTransferFromTapMessageHash symbolicCrypto chain.self t)

lemma reads (chain : TapWorld) : (views chain).Reads symbolicCrypto chain :=
  ⟨fun _ _ _ h => (Except.ok.inj h).symm, fun _ _ h => (Except.ok.inj h).symm⟩

lemma recovers : TapLeader.Example.service.Recovers account := by
  intro h
  show orError (symbolicCrypto.recover _ (5, symbolicCrypto.toEthSignedMessageHash h)) _ = _
  simp [symbolicCrypto, orError, account]

end ExampleTapFollower

open ExampleTapFollower in
/-- A node that is asked twice about a deposit. -/
theorem tap_followers_sign_once_example :
    ∃ (tr : List (TapFollowerAction Bytes (Address × Bytes)))
      (s : TapFollower Bytes (Address × Bytes)),
      s.SignsOnce account (TapFollowerAction.answeredOf tr) ∧
      (TapFollowerAction.answeredOf tr).map Prod.snd =
        List.replicate 2 ⟨[TapLeader.Example.sign TapLeader.Example.small], 5⟩ ∧
      TapLeader.Example.service.FindsGood symbolicCrypto s.chain.self question
        ⟨[TapLeader.Example.sign TapLeader.Example.small], 5⟩ := by
  have heval : (do
      let w ← TapLeader.Example.chain 9000
      let (answer, db) ← TapToRskService.answerSignTransferBatch false account (views w) question
        .empty
      let (answer', _) ← TapToRskService.answerSignTransferBatch false account (views w) question db
      pure (answer, answer') : PyResult _) =
        .ok (⟨[TapLeader.Example.sign TapLeader.Example.small], 5⟩,
          ⟨[TapLeader.Example.sign TapLeader.Example.small], 5⟩) := by
    decide +kernel
  simp only [bind_eq_ok, pure_eq_ok, Prod.exists, Prod.mk.injEq] at heval
  obtain ⟨w, -, answer, db, hfirst, answer', db', hsecond, rfl, rfl⟩ := heval
  have hstarted : Run TapFollower.Started (TapFollower.Step symbolicCrypto account) []
      ⟨.empty, w, []⟩ := .init ⟨rfl, rfl⟩
  have hasked := hstarted.step (.asked (reads w) hfirst)
  have hagain := hasked.step (.asked (reads w) hsecond)
  have hagrees : TapFollower.Agrees symbolicCrypto account
      ⟨db, w, [] ++ TapFollower.newlySigned account .empty question⟩ question := by
    refine ⟨fun _ hown => ?_, fun b hb hhash => ?_⟩
    · cases hown
    · rw [List.nil_append, TapFollower.newlySigned,
        if_pos ⟨rfl, fun _ hp => absurd hp List.not_mem_nil⟩] at hb
      rw [List.mem_singleton.1 hb]
  obtain ⟨-, hanswers⟩ := tap_followers_sign_once hasked
  obtain ⟨-, hgood⟩ := hanswers _ _ _ (.asked (reads w) hsecond)
  exact ⟨_, _, (tap_followers_sign_once hagain).1, rfl, hgood _ recovers hagrees⟩

end NbteBridge
