import NbteBridge.Node.Leader
import NbteBridge.Node.Reference

/-!
# Mints that were not submitted

What is left of a deposit when `send_rune_deposit_to_evm` ends before it submits the mint.  The
first transaction takes the deposit out of `ACCEPTED`, and nothing after it and before the
submission brings it back: the deposit is taken up again exactly when that transaction did not take
effect (`retryable_iff`).
-/

namespace NbteBridge

open Checked Effects Tables RuneBridgeService

/-- The deposit is as it was, and the next iteration takes it up. -/
structure Retryable {Hash : Type} (db : Db Hash) (key : RuneDepositKey) (row : RuneDeposit Hash) :
    Prop where
  row : ∃ row', db.runeDeposits.get? key = some row' ∧ row'.status = .accepted ∧
    row'.acceptTransferSignatures = row.acceptTransferSignatures ∧
    row'.acceptTransferSigners = row.acceptTransferSigners
  next : key ∈ getAcceptedRuneDepositIds db

/-- The deposit is not taken out for sending: the bridge is frozen or cannot be asked whether it is,
the number of signatures required is unknown or not reached, or the transaction that takes the
deposit out takes no effect. -/
def NotTakenOut {Hash : Type} (env : ℕ → Surroundings Hash) (row : RuneDeposit Hash) : Prop :=
  (env 0).views.contract.frozen ≠ .ok false ∨
    (∀ n, (env 1).views.contract.numRequiredFederators = .ok n →
      row.acceptTransferSignatures.length < n) ∨
    (env 2).commit.takesEffect = false

section Retry

variable {Hash : Type} {env : ℕ → Surroundings Hash} {s : NodeState Hash} {key : RuneDepositKey}
  {row : RuneDeposit Hash}

lemma mem_getAcceptedRuneDepositIds {db : Db Hash} (hrow : db.runeDeposits.get? key = some row)
    (haccepted : row.status = .accepted) : key ∈ getAcceptedRuneDepositIds db := by
  apply List.mem_map.2
  refine ⟨(key, row), List.mem_filter.2 ⟨Table.mem_of_get? hrow, ?_⟩, rfl⟩
  simpa using haccepted

lemma retryable_of_kept (hrow : s.db.runeDeposits.get? key = some row)
    (haccepted : row.status = .accepted) : Retryable s.db key row :=
  ⟨⟨row, hrow, haccepted, rfl, rfl⟩, mem_getAcceptedRuneDepositIds hrow haccepted⟩

/-- A deposit that was taken out is not accepted. -/
lemma not_retryable_of_set {db : Db Hash} {row' : RuneDeposit Hash}
    (hstatus : row'.status = .sendingToEvm) :
    ¬ Retryable (db.setRuneDeposit key row') key row := by
  rintro ⟨⟨row'', hrow, haccepted, -, -⟩, -⟩
  rw [Db.setRuneDeposit, Table.get?_set, if_pos rfl] at hrow
  obtain rfl := Option.some.inj hrow
  rw [hstatus] at haccepted
  cases haccepted

/-- A read. -/
def IsRead : NodeOp Hash → Prop
  | .read _ => True
  | _ => False

lemma calls_prepareSubmission : (prepareSubmission : NodeProg Hash ℕ).Calls IsRead := by
  have hread : ∀ {β : Type} (query : Views Hash → PyResult β),
      (NodeProg.read query).Calls IsRead := fun query => Prog.calls_perform trivial
  apply Prog.calls_bind (hread _)
  intro txGasPrice
  apply Prog.calls_bind (hread _)
  intro balanceWei
  apply Prog.calls_bind Prog.calls_lift
  intro _
  apply Prog.calls_bind (hread _)
  intro nonce
  apply Prog.calls_bind (hread _)
  intro latest
  apply Prog.calls_bind Prog.calls_lift
  exact fun _ => trivial

/-- Nothing is changed without enough signatures. -/
lemma beginSendingRuneDeposit_of_few {db : Db Hash} {numRequired : ℕ}
    (hrow : db.runeDeposits.get? key = some row) (haccepted : row.status = .accepted)
    (hfew : row.acceptTransferSignatures.length < numRequired) :
    beginSendingRuneDeposit key numRequired db = .ok (none, db) := by
  simp only [beginSendingRuneDeposit, runeDeposit, hrow, orError, ok_bind, require_of haccepted,
    if_pos hfew]
  rfl

lemma beginSendingRuneDeposit_of_enough {db : Db Hash} {numRequired : ℕ}
    (hrow : db.runeDeposits.get? key = some row) (haccepted : row.status = .accepted)
    (henough : ¬ row.acceptTransferSignatures.length < numRequired) :
    ∃ call, beginSendingRuneDeposit key numRequired db =
      .ok (some call, db.setRuneDeposit key { row with status := .sendingToEvm }) := by
  simp only [beginSendingRuneDeposit, runeDeposit, hrow, orError, ok_bind, require_of haccepted,
    if_neg henough]
  exact ⟨_, rfl⟩

/-- The checks before the submission change nothing. -/
lemma eval_prepareSubmission_state : (NodeState.eval prepareSubmission env s).2 = s := by
  refine eval_keeps calls_prepareSubmission (I := fun s' => s' = s) ?_ rfl
  intro m s' o ho hs'
  cases o with
  | read query => exact hs'
  | _ => exact ho.elim

/-- The submission is tried. -/
lemma length_transacted_submitRuneDeposit {call : AcceptTransferCall} {nonce : ℕ} :
    s.transacted.length <
      (NodeState.eval (submitRuneDeposit key call nonce) env s).2.transacted.length := by
  obtain ⟨next, hsubmit⟩ : ∃ next, (submitRuneDeposit key call nonce : NodeProg Hash Unit) =
      .call (.transact call nonce) next := ⟨_, rfl⟩
  have hlater := @NodeState.length_transacted_eval _ _ (fun n => env (n + 1))
    { s with transacted := s.transacted ++ [call] } (next (env 0).transact)
  rw [hsubmit]
  apply lt_of_lt_of_le _ hlater
  simp

/-- What follows the transaction leaves the deposit as it is, unless it submits the mint. -/
lemma db_eval_send {call : AcceptTransferCall}
    (hbefore : (NodeState.eval (prepareSubmission >>= submitRuneDeposit key call) env s).2.transacted =
      s.transacted) :
    (NodeState.eval (prepareSubmission >>= submitRuneDeposit key call) env s).2.db = s.db := by
  obtain ⟨n, hbind⟩ := @eval_bind _ _ _ _ _ _ _ NodeState.handle env s
    (prepareSubmission : NodeProg Hash ℕ) (submitRuneDeposit key call)
  have hstate : (prepareSubmission.eval NodeState.handle env s).2 = s := eval_prepareSubmission_state
  rw [NodeState.eval, hbind] at hbefore ⊢
  rcases h : (prepareSubmission : NodeProg Hash ℕ).eval NodeState.handle env s with ⟨r, s'⟩
  rw [h] at hbefore hstate
  obtain rfl : s' = s := hstate
  cases r with
  | error e => rfl
  | ok nonce =>
      have hlt := @length_transacted_submitRuneDeposit _ (fun i => env (i + n)) s' key call nonce
      rw [NodeState.eval, show _ = s'.transacted from hbefore] at hlt
      exact absurd hlt (lt_irrefl _)

/-- **Deposits that are retried.**  When the function ends before it submits the mint, the deposit is
as it was exactly when it was not taken out for sending. -/
theorem retryable_iff (hrow : s.db.runeDeposits.get? key = some row)
    (haccepted : row.status = .accepted)
    (hbefore : (NodeState.eval (sendRuneDepositToEvm key) env s).2.transacted = s.transacted) :
    Retryable (NodeState.eval (sendRuneDepositToEvm key) env s).2.db key row ↔
      NotTakenOut env row := by
  have hkept : Retryable s.db key row := retryable_of_kept hrow haccepted
  rw [sendRuneDepositToEvm, NodeState.eval_read_bind] at hbefore ⊢
  cases hfrozen : (env 0).views.contract.frozen with
  | error e => exact iff_of_true hkept (.inl (by simp [hfrozen]))
  | ok frozen =>
  cases frozen with
  | true => exact iff_of_true hkept (.inl (by simp [hfrozen]))
  | false =>
  simp only [hfrozen, Bool.false_eq_true, if_false, NodeState.eval_read_bind] at hbefore ⊢
  cases hnum : (env (0 + 1)).views.contract.numRequiredFederators with
  | error e =>
      refine iff_of_true hkept (.inr (.inl ?_))
      intro n hn
      rw [hnum] at hn
      cases hn
  | ok numRequired =>
  simp only [hnum, NodeState.eval_transaction_bind] at hbefore ⊢
  by_cases hfew : row.acceptTransferSignatures.length < numRequired
  · refine iff_of_true ?_ (.inr (.inl ?_))
    · simp only [beginSendingRuneDeposit_of_few hrow haccepted hfew]
      cases (env (0 + 1 + 1)).commit with
      | done => exact hkept
      | refused e => exact hkept
      | unacknowledged e => exact hkept
    · intro n hn
      rw [hnum] at hn
      cases hn
      exact hfew
  · have hnotTakenOut : NotTakenOut env row ↔ (env 2).commit.takesEffect = false := by
      simp [NotTakenOut, hfrozen, hnum, hfew]
    obtain ⟨call, hbegin⟩ := beginSendingRuneDeposit_of_enough hrow haccepted hfew
    rw [hnotTakenOut]
    simp only [hbegin] at hbefore ⊢
    cases hcommit : (env (0 + 1 + 1)).commit with
    | done =>
        simp only [hcommit] at hbefore ⊢
        rw [db_eval_send hbefore]
        exact iff_of_false (not_retryable_of_set rfl) (by simp [Commit.takesEffect])
    | refused e => exact iff_of_true hkept (by simp [Commit.takesEffect])
    | unacknowledged e =>
        exact iff_of_false (not_retryable_of_set rfl) (by simp [Commit.takesEffect])

end Retry

/-! ## Examples -/

namespace ExampleNode

def depositKey : RuneDepositKey := ⟨"deposit", 2, 0⟩

/-- An accepted deposit with two signatures. -/
def signedDeposit : RuneDeposit Bytes where
  blockNumber := 5
  rune := runeRow
  user := user
  incomingBtcTx := ⟨"deposit", 2⟩
  postage := 10000
  transferAmountRaw := 4
  netAmountRaw := 3
  evmTxHash := none
  acceptTransferMessageHash := none
  acceptTransferSignatures := ["a", "b"]
  acceptTransferSigners := ["a", "b"]
  status := .accepted

def depositState : NodeState Bytes where
  db := db.setRuneDeposit depositKey signedDeposit
  transacted := []
  broadcast := []

/-- Three federators; the node's account has pending transactions. -/
def surroundings (frozen : Bool) (pending : ℕ) : Surroundings Bytes where
  views :=
    { views ['a', 'b', 'c'] with
      contract := { contract ['a', 'b', 'c'] with frozen := .ok frozen }
      evm := { evm with pendingTransactionCount := .ok pending } }
  commit := .done
  check := .ok ()
  askMint := .ok []
  askPayout := .ok []
  transact := .ok "hash"
  broadcastPsbt := .ok "txid"
  sendMessage := .ok ()

end ExampleNode

open ExampleNode in
/-- A deposit is retried after the bridge was frozen. -/
theorem retryable_iff_example :
    Retryable (NodeState.eval (sendRuneDepositToEvm depositKey) (fun _ => surroundings true 0)
      depositState).2.db depositKey signedDeposit := by
  apply (retryable_iff (by decide) rfl (by decide)).2
  left
  simp [surroundings]

open ExampleNode in
/-- With four pending transactions the function raises before it submits the mint, and the deposit
is not retried. -/
theorem not_retryable_pending :
    let ended := NodeState.eval (sendRuneDepositToEvm depositKey) (fun _ => surroundings false 4)
      depositState
    ended.1 = .error (.runtimeError "Too many pending transactions") ∧ ended.2.transacted = [] ∧
      ¬ Retryable ended.2.db depositKey signedDeposit := by
  refine ⟨by decide +kernel, by decide +kernel, ?_⟩
  rintro ⟨⟨row, hrow, haccepted, -⟩, -⟩
  have hstatus : ((NodeState.eval (sendRuneDepositToEvm depositKey)
      (fun _ => surroundings false 4) depositState).2.db.runeDeposits.get? depositKey).map
        RuneDeposit.status = some .sendingToEvm := by
    decide +kernel
  rw [hrow, Option.map_some, haccepted] at hstatus
  cases hstatus

end NbteBridge
