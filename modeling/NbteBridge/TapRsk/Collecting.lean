import NbteBridge.TapRsk.Follower

/-!
# A batch gets its signatures

The leader and the nodes that sign, together.  Each node may have been asked anything before, in a
run of its own; when it has signed nothing else for the hash of the leader's batch, its answer is
good (`AnsweringNode.findsGood`).  So when enough nodes answer and the leader's calls go through,
the leader stores the signatures of all of them, and the batch moves on
(`tap_batches_get_signed`).
-/

namespace NbteBridge

open Checked Effects Runs Tables

/-! ## The leader's loop -/

namespace TapToRskService

variable {Hash Sig : Type} [DecidableEq Hash] {service : TapToRskService Hash Sig}
  {C : Crypto Hash Sig} {l : TapLeader Hash Sig} {current : CurrentBatch Hash Sig}
  {answers : List (SignTransferBatchAnswer Sig)}

/-- The signatures after the loop, when all answers are good. -/
def withAnswers (signaturesBySigner : Table Address (List Sig))
    (responses : List (SignTransferBatchAnswer Sig)) : Table Address (List Sig) :=
  responses.foldl (fun signatures response =>
    signatures.set response.signer response.signatures) signaturesBySigner

omit [DecidableEq Hash] in
lemma eval_collectSignatures
    (hnum : current.numTransfers = current.serializedBatch.transfers.length)
    {federators : List Address} {responses : List (SignTransferBatchAnswer Sig)}
    (hgood : ∀ r ∈ responses, r.signer ∈ federators ∧
      service.FindsGood C l.chain.self current.serializedBatch r)
    {signaturesBySigner : Table Address (List Sig)} {env : ℕ → Ordering} :
    (service.collectSignatures federators current signaturesBySigner responses).eval
        (TapLeader.handle C answers) (fun k => some (env k)) l =
      (.ok (withAnswers signaturesBySigner responses), l) := by
  induction responses generalizing signaturesBySigner env with
  | nil => rfl
  | cons response responses ih =>
      obtain ⟨hfederator, hlength, hchecked⟩ := hgood response List.mem_cons_self
      have hlength : response.signatures.length = current.numTransfers := hlength.trans hnum.symm
      rw [collectSignatures, if_neg (not_not.2 hfederator), if_neg (not_not.2 hlength)]
      obtain ⟨n, hbind⟩ := eval_bind_of_ok (f := fun ok =>
        service.collectSignatures federators current
          (if ok = true then signaturesBySigner.set response.signer response.signatures
            else signaturesBySigner) responses) (hchecked l answers env rfl)
      refine hbind.trans ?_
      rw [if_pos rfl]
      exact ih fun r hr => hgood r (List.mem_cons_of_mem _ hr)

omit [DecidableEq Hash] in
/-- The first stage, when all answers are good and there are enough of them. -/
lemma eval_collect {batch : TapToRskTransferBatch Hash Sig}
    (hbatch : l.db.batches.get? current.batchId = some batch)
    (hnum : current.numTransfers = current.serializedBatch.transfers.length)
    (hgood : ∀ r ∈ answers, r.signer ∈ l.chain.bridge.federators ∧
      service.FindsGood C l.chain.self current.serializedBatch r)
    (henough : (l.chain.bridge.numRequiredSigners.toNat : ℤ) - 1 ≤
      ((withAnswers current.signaturesBySigner answers).keys.length : ℤ)) {env : ℕ → Ordering} :
    (service.collect current).eval (TapLeader.handle C answers) (fun k => some (env k)) l =
      (.ok (.signaturesCollected, withAnswers current.signaturesBySigner answers),
        { l with db := l.db.setBatch current.batchId { batch with
          signatures := withAnswers current.signaturesBySigner answers
          status := .signaturesCollected } }) := by
  have hstored : storeSignatures current (withAnswers current.signaturesBySigner answers)
      ((l.chain.bridge.numRequiredSigners.toNat : ℤ) - 1) l.db =
        .ok (.signaturesCollected, l.db.setBatch current.batchId { batch with
          signatures := withAnswers current.signaturesBySigner answers
          status := .signaturesCollected }) := by
    rw [storeSignatures, TapDb.getBatch, hbatch]
    simp only [orError, ok_bind, if_pos henough]
    rfl
  rw [collect]
  refine (eval_perform_bind (o := TapOp.getFederators)).trans ?_
  refine (eval_perform_bind (o := TapOp.numRequiredSigners)).trans ?_
  refine (eval_perform_bind (o := TapOp.ask current.serializedBatch)).trans ?_
  obtain ⟨n, hbind⟩ := eval_bind_of_ok (f := fun signaturesBySigner => do
      let status ← TapProg.transaction fun _ db => storeSignatures current signaturesBySigner
        ((l.chain.bridge.numRequiredSigners.toNat : ℤ) - 1) db
      pure (status, signaturesBySigner))
    (eval_collectSignatures hnum hgood)
  refine hbind.trans ?_
  refine (eval_perform_bind (o := TapOp.transaction fun _ db => storeSignatures current
    (withAnswers current.signaturesBySigner answers)
    ((l.chain.bridge.numRequiredSigners.toNat : ℤ) - 1) db)).trans ?_
  simp only [TapLeader.handle, hstored]
  rfl

/-! ### The signatures after the loop -/

variable {signaturesBySigner : Table Address (List Sig)}
  {responses : List (SignTransferBatchAnswer Sig)}

omit [DecidableEq Hash] in
lemma get?_withAnswers_of_notMem {signer : Address}
    (h : signer ∉ responses.map SignTransferBatchAnswer.signer) :
    (withAnswers signaturesBySigner responses).get? signer = signaturesBySigner.get? signer := by
  induction responses generalizing signaturesBySigner with
  | nil => rfl
  | cons response responses ih =>
      rw [List.map_cons, List.mem_cons, not_or] at h
      refine (ih h.2).trans ?_
      rw [Table.get?_set, if_neg h.1]

omit [DecidableEq Hash] in
/-- Each of them is there. -/
lemma get?_withAnswers (h : (responses.map SignTransferBatchAnswer.signer).Nodup)
    {response : SignTransferBatchAnswer Sig} (hr : response ∈ responses) :
    (withAnswers signaturesBySigner responses).get? response.signer = some response.signatures := by
  induction responses generalizing signaturesBySigner with
  | nil => cases hr
  | cons first responses ih =>
      obtain ⟨hfirst, hrest⟩ := List.nodup_cons.1 h
      rcases List.mem_cons.1 hr with rfl | hr
      · refine (get?_withAnswers_of_notMem hfirst).trans ?_
        rw [Table.get?_set, if_pos rfl]
      · exact ih hrest hr

omit [DecidableEq Hash] in
lemma length_le_keys_withAnswers (h : (responses.map SignTransferBatchAnswer.signer).Nodup) :
    responses.length ≤ (withAnswers signaturesBySigner responses).keys.length := by
  rw [← List.length_map (f := SignTransferBatchAnswer.signer)]
  refine (List.subperm_of_subset h fun signer hsigner => ?_).length_le
  obtain ⟨response, hr, rfl⟩ := List.mem_map.1 hsigner
  exact Table.mem_keys.2 ⟨_, get?_withAnswers h hr⟩

/-- The current batch has a row, and is serialized as it is. -/
lemma currentBatch_ok {σ : Ordering} {db db' : TapDb Hash Sig}
    (h : service.currentBatch σ db = .ok (some current, db')) :
    (∃ batch, db'.batches.get? current.batchId = some batch) ∧
      current.numTransfers = current.serializedBatch.transfers.length := by
  simp only [currentBatch, bind_eq_ok, pure_eq_ok, Prod.exists, Prod.mk.injEq] at h
  obtain ⟨found, db₁, hfound, hcurrent, rfl⟩ := h
  obtain ⟨⟨i, batch, transfers⟩, hsome, rfl⟩ := Option.map_eq_some_iff.1 hcurrent
  refine ⟨?_, (List.length_map _).symm⟩
  rcases TapLeader.getOrCreateCurrentBatch_ok hfound with
    ⟨rfl, hrow⟩ | ⟨chosen, b, -, -, -, heq, rfl⟩
  · exact ⟨batch, (hrow i batch transfers hsome).1⟩
  · rw [heq] at hsome
    obtain ⟨rfl, -⟩ := Prod.mk.inj (Option.some.inj hsome)
    exact ⟨b, (Table.get?_set _ _ _ _).trans (if_pos rfl)⟩

end TapToRskService

/-! ## The nodes -/

/-- A node of the federation with a history of its own, and its answer to a question of the leader.
It has signed nothing else for the hash of the question. -/
structure AnsweringNode {Hash Sig : Type} [DecidableEq Hash] (C : Crypto Hash Sig)
    (service : TapToRskService Hash Sig) (l : TapLeader Hash Sig)
    (question : SerializedTapToRskTransferBatch Hash Sig) where
  account : RskAccount Hash Sig
  history : List (TapFollowerAction Hash Sig)
  node : TapFollower Hash Sig
  run : Run TapFollower.Started (TapFollower.Step C account) history node
  answer : SignTransferBatchAnswer Sig
  asked : ∃ node', TapFollower.Step C account node (.asked question answer) node'
  recovers : service.Recovers account
  federator : account.address ∈ l.chain.bridge.federators
  bridge : node.chain.self = l.chain.self
  agrees : node.Agrees C account question

section AnsweringNode

variable {Hash Sig : Type} [DecidableEq Hash] {C : Crypto Hash Sig}
  {service : TapToRskService Hash Sig} {l : TapLeader Hash Sig}
  {question : SerializedTapToRskTransferBatch Hash Sig}

lemma AnsweringNode.signer (n : AnsweringNode C service l question) :
    n.answer.signer = n.account.address := by
  obtain ⟨node', hs⟩ := n.asked
  exact TapFollower.signer_of_answered hs

lemma AnsweringNode.findsGood (n : AnsweringNode C service l question) :
    service.FindsGood C l.chain.self question n.answer := by
  obtain ⟨node', hs⟩ := n.asked
  rw [← n.bridge]
  exact TapFollower.findsGood_of_asked (TapFollower.remembers_of_run n.run) hs n.recovers n.agrees

end AnsweringNode

/-- **A batch gets its signatures** when enough nodes of the federation answer and the leader's
calls go through: whatever the nodes were asked before, as long as they have signed nothing else for
its hash, the leader stores the signatures of all of them and moves the batch on. -/
theorem tap_batches_get_signed {Hash Sig : Type} [DecidableEq Hash] {C : Crypto Hash Sig}
    {service : TapToRskService Hash Sig} {l : TapLeader Hash Sig} {current : CurrentBatch Hash Sig}
    {σ : Ordering} {db : TapDb Hash Sig}
    (hcurrent : service.currentBatch σ db = .ok (some current, l.db))
    (nodes : List (AnsweringNode C service l current.serializedBatch))
    (hdistinct : (nodes.map fun n => n.account.address).Nodup)
    (henough : l.chain.bridge.numRequiredSigners.toNat ≤ nodes.length + 1) (env : ℕ → Ordering) :
    ∃ (signatures : Table Address (List Sig)) (l' : TapLeader Hash Sig),
      (service.collect current).eval (TapLeader.handle C (nodes.map fun n => n.answer))
        (fun k => some (env k)) l = (.ok (.signaturesCollected, signatures), l') ∧
      (∀ n ∈ nodes, signatures.get? n.account.address = some n.answer.signatures) ∧
      ∃ batch, l'.db.batches.get? current.batchId = some batch ∧
        batch.status = .signaturesCollected ∧ batch.signatures = signatures := by
  obtain ⟨⟨batch, hbatch⟩, hnum⟩ := TapToRskService.currentBatch_ok hcurrent
  have hsigners : (nodes.map fun n => n.answer).map SignTransferBatchAnswer.signer =
      nodes.map fun n => n.account.address := by
    rw [List.map_map]
    exact List.map_congr_left fun n _ => n.signer
  have hnodup : ((nodes.map fun n => n.answer).map SignTransferBatchAnswer.signer).Nodup := by
    rw [hsigners]
    exact hdistinct
  have hgood : ∀ r ∈ nodes.map fun n => n.answer, r.signer ∈ l.chain.bridge.federators ∧
      service.FindsGood C l.chain.self current.serializedBatch r := by
    intro r hr
    obtain ⟨n, -, rfl⟩ := List.mem_map.1 hr
    exact ⟨n.signer ▸ n.federator, n.findsGood⟩
  have hcount : (l.chain.bridge.numRequiredSigners.toNat : ℤ) - 1 ≤
      ((TapToRskService.withAnswers current.signaturesBySigner
        (nodes.map fun n => n.answer)).keys.length : ℤ) := by
    have hle := @TapToRskService.length_le_keys_withAnswers _ current.signaturesBySigner _ hnodup
    rw [List.length_map] at hle
    omega
  refine ⟨_, _, TapToRskService.eval_collect hbatch hnum hgood hcount, fun n hn => ?_, ?_⟩
  · rw [← n.signer]
    exact TapToRskService.get?_withAnswers hnodup (List.mem_map.2 ⟨n, hn, rfl⟩)
  · exact ⟨_, (Table.get?_set _ _ _ _).trans (if_pos rfl), rfl, rfl⟩

open ExampleTapFollower in
/-- A batch of one deposit and the federator who answers. -/
theorem tap_batches_get_signed_example :
    ∃ (l l' : TapLeader Bytes (Address × Bytes)) (current : CurrentBatch Bytes (Address × Bytes))
      (answer : SignTransferBatchAnswer (Address × Bytes))
      (signatures : Table Address (List (Address × Bytes))),
      (TapLeader.Example.service.collect current).eval (TapLeader.handle symbolicCrypto [answer])
        (fun _ => some .stable) l = (.ok (.signaturesCollected, signatures), l') ∧
      signatures.get? 5 = some [TapLeader.Example.sign TapLeader.Example.small] := by
  have heval : (do
      let w ← TapLeader.Example.chain 9000
      let (found, _) ← TapLeader.Example.service.currentBatch .stable
        (TapDb.empty.setTransfer 1 TapLeader.Example.small)
      let current ← orError found (.other "no batch")
      let (answer, _) ← TapToRskService.answerSignTransferBatch false account (views w)
        current.serializedBatch .empty
      pure (decide (5 ∈ w.bridge.federators ∧ w.bridge.numRequiredSigners.toNat = 2 ∧
        current.serializedBatch.signatures.get? 5 = none), answer.signatures) : PyResult _) =
        .ok (true, [TapLeader.Example.sign TapLeader.Example.small]) := by
    decide +kernel
  simp only [bind_eq_ok, pure_eq_ok, orError_eq_ok, Prod.exists, Prod.mk.injEq,
    decide_eq_true_eq] at heval
  obtain ⟨w, -, found, db, hcurrent, current, rfl, answer, db', hanswer,
    ⟨hfederator, hrequired, hunsigned⟩, hsignatures⟩ := heval
  let node : AnsweringNode symbolicCrypto TapLeader.Example.service ⟨db, w, []⟩
      current.serializedBatch :=
    { account := account
      history := []
      node := ⟨.empty, w, []⟩
      run := .init ⟨rfl, rfl⟩
      answer := answer
      asked := ⟨_, .asked (reads w) hanswer⟩
      recovers := recovers
      federator := hfederator
      bridge := rfl
      agrees := ⟨fun _ hown => absurd (hunsigned.symm.trans hown) (by simp),
        fun _ hb => absurd hb List.not_mem_nil⟩ }
  have henough : w.bridge.numRequiredSigners.toNat ≤ [node].length + 1 := hrequired.le
  obtain ⟨signatures, l', heval, hstored, -⟩ := tap_batches_get_signed (l := ⟨db, w, []⟩) hcurrent
    [node] (List.nodup_singleton _) henough fun _ => .stable
  exact ⟨_, l', current, answer, signatures, heval,
    (hstored node List.mem_cons_self).trans (congrArg some hsignatures)⟩

end NbteBridge
