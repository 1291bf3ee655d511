import NbteBridge.TapRsk.Leader

/-!
# An executable leader

One way the leader's world can go: every call returns, rows with equal counters come back in the
order they were added, the peers give the same answers each time, and the transactions sent so far
are mined, in order, before each call.  A run of it is a run of the world (`running_execute`).
-/

namespace NbteBridge

open Checked Effects Tables

namespace TapLeader

variable {Hash Sig : Type} (C : Crypto Hash Sig) (rskAccount : Address)

/-! ## The chain -/

/-- Mine a transaction, which is reverted when the contract refuses. -/
def mine (s : TapLeader Hash Sig) (i : ℕ) : TapLeader Hash Sig :=
  match s.sent[i]? with
  | some ⟨batchId, transfer, signatures, none⟩ =>
      match s.chain.acceptTransferFromTap C rskAccount transfer signatures with
      | .ok chain =>
          { s with chain := chain, sent := s.sent.set i ⟨batchId, transfer, signatures, some true⟩ }
      | .error _ => { s with sent := s.sent.set i ⟨batchId, transfer, signatures, some false⟩ }
  | _ => s

def mineAll (s : TapLeader Hash Sig) : TapLeader Hash Sig :=
  (List.range s.sent.length).foldl (mine C rskAccount) s

variable {C rskAccount}

lemma waits_mine (s : TapLeader Hash Sig) (i : ℕ) :
    (world C rskAccount).Waits s (s.mine C rskAccount i) := by
  unfold mine
  split
  · next batchId transfer signatures hsent =>
      split
      · next chain haccept => exact .single (.mined hsent rfl haccept)
      · exact .single (.reverted hsent rfl)
  · exact .refl

lemma waits_mineAll (s : TapLeader Hash Sig) :
    (world C rskAccount).Waits s (s.mineAll C rskAccount) := by
  have hfold : ∀ (is : List ℕ) (s₀ : TapLeader Hash Sig), (world C rskAccount).Waits s s₀ →
      (world C rskAccount).Waits s (is.foldl (mine C rskAccount) s₀) := by
    intro is
    induction is with
    | nil => exact fun _ h => h
    | cons i is ih => exact fun s₀ h => ih _ (h.trans (waits_mine s₀ i))
  exact hfold _ s .refl

/-! ## The calls -/

variable (C) in
/-- What a call returns, and what it does. -/
def respond (answers : List (SignTransferBatchAnswer Sig)) (s : TapLeader Hash Sig) :
    (o : TapOp Hash Sig) → PyResult (o.Resp × TapLeader Hash Sig)
  | .transaction body => do
      let (b, db) ← body .stable s.db
      pure (b, { s with db := db })
  | .getFederators => pure (s.chain.bridge.federators, s)
  | .numRequiredSigners => pure (s.chain.bridge.numRequiredSigners.toNat, s)
  | .getTransferFromTapMessageHash t =>
      pure (TapBridge.getTransferFromTapMessageHash C s.chain.self t, s)
  | .ask _ => pure (answers, s)
  | .transact batchId t signatures =>
      pure (s.sent.length, { s with sent := s.sent ++ [⟨batchId, t, signatures, none⟩] })
  | .waitForTransactionReceipt txHash => do
      let h ← orError txHash (.other "TypeError")
      let tx ← orError s.sent[h]? (.other "TransactionNotFound")
      let status ← orError tx.receipt (.other "TimeExhausted")
      pure (status, s)

/-- A call that only reads. -/
lemma does_of_answers {s : TapLeader Hash Sig} {o : TapOp Hash Sig} {r : o.Resp}
    (h : s.Answers C o r s.sent) : Does C s o (.ok r) s := .answered h

lemma does_respond {answers : List (SignTransferBatchAnswer Sig)} {s s' : TapLeader Hash Sig}
    {o : TapOp Hash Sig} {r : o.Resp} (h : s.respond C answers o = .ok (r, s')) :
    Does C s o (.ok r) s' := by
  cases o with
  | transaction body =>
      simp only [respond, bind_eq_ok, pure_eq_ok, Prod.exists] at h
      obtain ⟨b, db, hbody, rfl, rfl⟩ := h
      exact .committed hbody
  | getFederators =>
      obtain ⟨rfl, rfl⟩ := Prod.mk.inj (pure_eq_ok.1 h)
      exact does_of_answers ⟨rfl, rfl⟩
  | numRequiredSigners =>
      obtain ⟨rfl, rfl⟩ := Prod.mk.inj (pure_eq_ok.1 h)
      exact does_of_answers ⟨rfl, rfl⟩
  | getTransferFromTapMessageHash t =>
      obtain ⟨rfl, rfl⟩ := Prod.mk.inj (pure_eq_ok.1 h)
      exact does_of_answers ⟨rfl, rfl⟩
  | ask serializedBatch =>
      obtain ⟨rfl, rfl⟩ := Prod.mk.inj (pure_eq_ok.1 h)
      exact does_of_answers rfl
  | transact batchId t signatures =>
      obtain ⟨rfl, rfl⟩ := Prod.mk.inj (pure_eq_ok.1 h)
      exact .answered ⟨rfl, rfl⟩
  | waitForTransactionReceipt txHash =>
      simp only [respond, bind_eq_ok, orError_eq_ok, pure_eq_ok] at h
      obtain ⟨n, hn, tx, htx, status, hstatus, rfl, rfl⟩ := h
      exact does_of_answers ⟨⟨n, tx, hn, htx, hstatus⟩, rfl⟩

/-! ## Runs -/

variable (C rskAccount) in
/-- Run a program to its end, with a check on each call. -/
def execute {α : Type} (answers : List (SignTransferBatchAnswer Sig))
    (check : TapLeader Hash Sig → (o : TapOp Hash Sig) → o.Resp → Bool) :
    TapProg Hash Sig α → TapLeader Hash Sig → PyResult (TapLeader Hash Sig)
  | .pure _, s => pure s
  | .throw e, _ => .error e
  | .call o next, s => do
      let s := s.mineAll C rskAccount
      let (r, s') ← s.respond C answers o
      require (check s o r = true) (.other "unexpected")
      execute answers check (next (.ok r)) s'

/-- **What the executable leader does, the leader can do.** -/
lemma running_execute {answers : List (SignTransferBatchAnswer Sig)}
    {check : TapLeader Hash Sig → (o : TapOp Hash Sig) → o.Resp → Bool}
    {Cond : TapLeader Hash Sig → (o : TapOp Hash Sig) → PyResult o.Resp → Prop}
    (hcheck : ∀ s o r, check s o r = true → Cond s o (.ok r)) {main p : TapProg Hash Sig Unit}
    {Init : TapLeader Hash Sig → Prop} {s s' : TapLeader Hash Sig}
    (hexecute : execute C rskAccount answers check p s = .ok s')
    (h : Running ((world C rskAccount).when Cond) main Init ⟨s, some p⟩) :
    Running ((world C rskAccount).when Cond) main Init ⟨s', none⟩ := by
  induction p generalizing s with
  | pure u =>
      obtain rfl := pure_eq_ok.1 hexecute
      exact .step h (.done s)
  | throw e => cases hexecute
  | call o next ih =>
      simp only [execute, bind_eq_ok, exists_unit, require_eq_ok, Prod.exists] at hexecute
      obtain ⟨r, s₁, hrespond, hchecked, hrest⟩ := hexecute
      apply ih (.ok r) hrest
      have hwaited := h.waits (waits_mineAll s)
      exact .step hwaited (.call ⟨hcheck _ _ _ hchecked, does_respond hrespond⟩)

end TapLeader

end NbteBridge
