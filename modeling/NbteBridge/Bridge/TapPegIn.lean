import NbteBridge.TapRsk.FinalizedBatches
import NbteBridge.TapRsk.OwnSignatures
import NbteBridge.TapRsk.SentDeposits
import NbteBridge.TapRsk.TapDeposits

/-!
# Transfers from tap, from the deposit to the tokens released

Users get deposit addresses with a quote, tapd receives assets there, the leader scans tapd and
sends what it finds to the tap Bridge, batch by batch, and the transactions are mined in any order,
or reverted, or never.  Anyone else may call the contract, and the process runs, fails and crashes
as it likes.

In every state each outpoint has one row, which is of assets received at a deposit address; nothing
else is sent; and while the quoted assets stay listed, the transactions of the leader that succeed
are paid exactly what their users were quoted (`tap_deposits_paid_as_quoted`).
-/

namespace NbteBridge

open Checked Effects Runs Tables

structure TapPegIn (Hash Sig : Type) where
  /-- The leader, its database, and the contract. -/
  process : Process (TapOp Hash Sig) TapOp.Resp PyError (TapLeader Hash Sig)
  addresses : List TapDepositAddressRow
  /-- What tapd has received, oldest first. -/
  received : List TapReceive

inductive TapPegInAction (Sig : Type)
  | call (sender : Address) (call : TapCall Sig)
  | mined (txHash : ℕ)
  | reverted (txHash : ℕ)
  /-- An answer is given, when the node is no leader. -/
  | answered
  | generate
  | receive (event : TapReceive)
  | scan
  | work

namespace TapPegIn

variable {Hash Sig : Type}

def leader (s : TapPegIn Hash Sig) : TapLeader Hash Sig := s.process.world

def withLeader (s : TapPegIn Hash Sig) (leader : TapLeader Hash Sig) : TapPegIn Hash Sig :=
  { s with process := { s.process with world := leader } }

/-- tapd tells of everything it has received at an address. -/
def Reports (received : List TapReceive) (client : TapClient) : Prop :=
  ∀ tapAddress events, client.listReceives tapAddress = .ok events →
    ∀ event, event ∈ events ↔ event ∈ received ∧ event.encoded = tapAddress

inductive Step [DecidableEq Hash] (C : Crypto Hash Sig) (rskAccount : Address)
    (service : TapToRskService Hash Sig) :
    TapPegIn Hash Sig → TapPegInAction Sig → TapPegIn Hash Sig → Prop
  | call {s : TapPegIn Hash Sig} {sender : Address} {call : TapCall Sig} {chain : TapWorld}
      (h : TapWorld.Step C s.leader.chain (sender, call) chain) :
      Step C rskAccount service s (.call sender call) (s.withLeader { s.leader with chain })
  | mined {s : TapPegIn Hash Sig} {i : ℕ} {tx : SentTx Sig} {chain : TapWorld}
      (sent : s.leader.sent[i]? = some tx) (pending : tx.receipt = none)
      (h : s.leader.chain.acceptTransferFromTap C rskAccount tx.transfer tx.signatures =
        .ok chain) :
      Step C rskAccount service s (.mined i) (s.withLeader { s.leader with
        chain, sent := s.leader.sent.set i { tx with receipt := some true } })
  | reverted {s : TapPegIn Hash Sig} {i : ℕ} {tx : SentTx Sig}
      (sent : s.leader.sent[i]? = some tx) (pending : tx.receipt = none) :
      Step C rskAccount service s (.reverted i) (s.withLeader { s.leader with
        sent := s.leader.sent.set i { tx with receipt := some false } })
  | answered {s : TapPegIn Hash Sig} {batch : TapToRskTransferBatch Hash Sig}
      (created : batch.status = .created) (unsent : batch.executedTxHash = none) :
      Step C rskAccount service s .answered (s.withLeader { s.leader with
        db := s.leader.db.setBatch s.leader.db.nextBatchId batch })
  | generate {s : TapPegIn Hash Sig} {client : TapClient} {userRskAddress : Address}
      {tapAmount rskAmount : Option ℤ} {tapAssetId : Option Bytes32}
      {rskTokenAddress : Option Address} {row : TapDepositAddressRow}
      {addresses : List TapDepositAddressRow}
      (hencodes : TapDepositService.Encodes client s.leader.chain.bridge.tapUtils)
      (h : TapDepositService.generateDepositAddress client s.leader.chain.bridge userRskAddress
        tapAmount tapAssetId rskAmount rskTokenAddress s.addresses = .ok (row, addresses)) :
      Step C rskAccount service s .generate { s with addresses }
  | receive (s : TapPegIn Hash Sig) (event : TapReceive) :
      Step C rskAccount service s (.receive event) { s with received := s.received ++ [event] }
  | scan {s : TapPegIn Hash Sig} {client : TapClient} {newId : TapDb Hash Sig → ℕ}
      {db : TapDb Hash Sig} (hreports : Reports s.received client)
      (h : TapDepositService.scanNewDeposits client newId s.addresses s.leader.db = .ok db) :
      Step C rskAccount service s .scan (s.withLeader { s.leader with db })
  | work {s : TapPegIn Hash Sig}
      {process : Process (TapOp Hash Sig) TapOp.Resp PyError (TapLeader Hash Sig)}
      (h : s.process.Step (TapLeader.world C rskAccount).still
        service.processCurrentTransferBatch process) :
      Step C rskAccount service s .work { s with process }

/-- A contract just deployed, and a leader that has done nothing. -/
structure Start (s : TapPegIn Hash Sig) : Prop where
  deployed : s.leader.chain.Deployed
  started : s.leader.Started
  idle : s.process.running = none
  addresses : s.addresses = []

/-- The contract keeps to what was quoted: quoted assets stay listed, and are read in the same
way. -/
def KeepsQuotes (s : TapPegIn Hash Sig) : TapPegInAction Sig → Prop
  | .call _ call => ∀ row ∈ s.addresses, call.KeepsQuotes row.rskTokenAddress
  | _ => True

/-! ## What is paid -/

/-- The outpoint of a transfer. -/
def outpointOf (t : TransferFromTap) : Bytes32 × Uint256 := (t.btcTxId, t.btcTxVout)

/-- What the user of an address was quoted. -/
def quoted (s : TapPegIn Hash Sig) (t : TransferFromTap) : Option (Address × Address × ℤ) :=
  (s.addresses.find? fun row => row.address.tapAddress = t.transferTapAddress).map fun row =>
    (row.rskTokenAddress, row.address.rskAddress, row.rskAmount)

/-- The transfers of the transactions that have succeeded. -/
def paidOf (sent : List (SentTx Sig)) : List TransferFromTap :=
  (sent.filter fun tx => tx.receipt = some true).map SentTx.transfer

/-- The leader's transfers that were paid. -/
def paid (s : TapPegIn Hash Sig) : List TransferFromTap := paidOf s.leader.sent

/-- A transfer is of assets received at a deposit address. -/
def Deposited (s : TapPegIn Hash Sig) (t : TransferFromTap) : Prop :=
  ∃ row ∈ s.addresses, t.to_ = row.address.rskAddress ∧
    t.transferTapAddress = row.address.tapAddress ∧
    ∃ event ∈ s.received, event.encoded = row.address.tapAddress ∧ event.outpoint = outpointOf t

/-- Deposits are recorded once, and paid once, as quoted. -/
structure PaidAsQuoted (s : TapPegIn Hash Sig) : Prop where
  once : (s.leader.db.deposits.map outpointOf).Nodup
  deposited : ∀ t ∈ s.leader.db.deposits, s.Deposited t
  sent : ∀ tx ∈ s.leader.sent, tx.transfer ∈ s.leader.db.deposits
  paidOnce : (s.paid.map outpointOf).Nodup
  paid : (s.paid.map s.quoted).Subperm (s.leader.chain.released.map fun r => some r.value)

/-- Everything received at the deposit addresses has a row. -/
def AllRecorded (s : TapPegIn Hash Sig) : Prop :=
  ∀ row ∈ s.addresses, ∀ event ∈ s.received, event.encoded = row.address.tapAddress →
    ∃ t ∈ s.leader.db.deposits, outpointOf t = event.outpoint

lemma Deposited.mono {s s' : TapPegIn Hash Sig} {t : TransferFromTap} (h : s.Deposited t)
    (haddresses : ∀ row ∈ s.addresses, row ∈ s'.addresses)
    (hreceived : ∀ event ∈ s.received, event ∈ s'.received) : s'.Deposited t := by
  obtain ⟨row, hrow, hto, htap, event, hevent, hmatches⟩ := h
  exact ⟨row, haddresses row hrow, hto, htap, event, hreceived event hevent, hmatches⟩

/-- What was quoted for an address. -/
lemma quoted_eq {s : TapPegIn Hash Sig}
    (hunique : (s.addresses.map fun row => row.address.tapAddress).Nodup)
    {row : TapDepositAddressRow} (hrow : row ∈ s.addresses) {t : TransferFromTap}
    (ht : t.transferTapAddress = row.address.tapAddress) :
    s.quoted t = some (row.rskTokenAddress, row.address.rskAddress, row.rskAmount) := by
  have hfind : s.addresses.find? (fun row => row.address.tapAddress = t.transferTapAddress) =
      some row := by
    cases hfound : s.addresses.find? fun row => row.address.tapAddress = t.transferTapAddress with
    | none =>
        have hnone := List.find?_eq_none.1 hfound row hrow
        rw [ht] at hnone
        simp at hnone
    | some row' =>
        have hsome := List.find?_some hfound
        have heq : row'.address.tapAddress = t.transferTapAddress := of_decide_eq_true hsome
        rw [List.inj_on_of_nodup_map hunique (List.mem_of_find?_eq_some hfound) hrow
          (heq.trans ht)]
  rw [quoted, hfind]
  rfl

/-! ## Transactions that are mined -/

section Sent

variable {sent : List (SentTx Sig)} {i : ℕ} {tx : SentTx Sig}

lemma paidOf_append (sent sent' : List (SentTx Sig)) :
    paidOf (sent ++ sent') = paidOf sent ++ paidOf sent' := by
  rw [paidOf, List.filter_append, List.map_append]
  rfl

/-- The transactions around one of them. -/
lemma sent_split (hi : sent[i]? = some tx) (tx' : SentTx Sig) :
    ∃ before after, sent = before ++ tx :: after ∧ sent.set i tx' = before ++ tx' :: after := by
  obtain ⟨hlt, rfl⟩ := List.getElem?_eq_some_iff.1 hi
  refine ⟨sent.take i, sent.drop (i + 1), ?_, List.set_eq_take_append_cons_drop.trans (if_pos hlt)⟩
  rw [List.getElem_cons_drop, List.take_append_drop]

lemma paidOf_set_reverted (hi : sent[i]? = some tx) (hpending : tx.receipt = none) :
    paidOf (sent.set i { tx with receipt := some false }) = paidOf sent := by
  obtain ⟨before, after, hsent, hset⟩ := sent_split hi { tx with receipt := some false }
  rw [hset, hsent, paidOf, paidOf, List.filter_append, List.filter_append,
    List.filter_cons_of_neg (by simp), List.filter_cons_of_neg (by simp [hpending])]

lemma paidOf_set_succeeded (hi : sent[i]? = some tx) (hpending : tx.receipt = none) :
    (paidOf (sent.set i { tx with receipt := some true })).Perm (tx.transfer :: paidOf sent) := by
  obtain ⟨before, after, hsent, hset⟩ := sent_split hi { tx with receipt := some true }
  rw [hset, hsent, paidOf, paidOf, List.filter_append, List.filter_append,
    List.filter_cons_of_pos (by simp), List.filter_cons_of_neg (by simp [hpending]),
    List.map_append, List.map_append, List.map_cons]
  exact List.perm_middle

end Sent

/-! ## The invariant -/

variable [DecidableEq Hash] {C : Crypto Hash Sig} {rskAccount : Address}
  {service : TapToRskService Hash Sig} {s s' : TapPegIn Hash Sig}

structure Consistent (C : Crypto Hash Sig) (rskAccount : Address)
    (service : TapToRskService Hash Sig) (s : TapPegIn Hash Sig) : Prop where
  running : Running (TapLeader.world C rskAccount) service.processCurrentTransferBatch
    TapLeader.Started s.process
  assets : s.leader.chain.bridge.AssetsAgree
  unique : (s.addresses.map fun row => row.address.tapAddress).Nodup
  quotes : ∀ row ∈ s.addresses, TapQuote s.leader.chain.bridge row.address.tapAddress
    row.rskTokenAddress row.rskAmount
  once : (s.leader.db.deposits.map outpointOf).Nodup
  deposited : ∀ t ∈ s.leader.db.deposits, s.Deposited t
  processed : ∀ t ∈ s.paid, s.leader.chain.bridge.isProcessed t.btcTxId t.btcTxVout = true
  paidOnce : (s.paid.map outpointOf).Nodup
  paid : (s.paid.map s.quoted).Subperm (s.leader.chain.released.map fun r => some r.value)

lemma Consistent.sent (h : Consistent C rskAccount service s) :
    ∀ tx ∈ s.leader.sent, tx.transfer ∈ s.leader.db.deposits :=
  TapLeader.fromRows_of_running (fun _ hs => hs.2) h.running

lemma Consistent.paid_mem (h : Consistent C rskAccount service s) {t : TransferFromTap}
    (ht : t ∈ s.paid) : t ∈ s.leader.db.deposits := by
  obtain ⟨tx, htx, rfl⟩ := List.mem_map.1 ht
  exact h.sent tx (List.mem_filter.1 htx).1

lemma consistent_of_start (h : s.Start) : Consistent C rskAccount service s := by
  obtain ⟨hdeployed, hstarted, hidle, haddresses⟩ := h
  obtain ⟨hdb, hsent⟩ := hstarted
  have hdeposits : s.leader.db.deposits = [] := by
    rw [hdb]
    rfl
  have hpaid : s.paid = [] := by
    rw [TapPegIn.paid, hsent]
    rfl
  have hassets : s.leader.chain.bridge.AssetsAgree := by
    obtain ⟨sender, tapUtils, numRequiredSigners, federators, hconstruct, -, -⟩ := hdeployed
    exact TapBridge.agree_construct hconstruct
  refine ⟨?_, hassets, ?_, ?_, ?_, ?_, ?_, ?_, ?_⟩
  · have hprocess : s.process = ⟨s.process.world, none⟩ := by rw [← hidle]
    rw [hprocess]
    exact .init ⟨hdb, hsent⟩
  · rw [haddresses]
    exact List.nodup_nil
  · rw [haddresses]
    exact fun _ hrow => absurd hrow List.not_mem_nil
  · rw [hdeposits]
    exact List.nodup_nil
  · rw [hdeposits]
    exact fun _ ht => absurd ht List.not_mem_nil
  · rw [hpaid]
    exact fun _ ht => absurd ht List.not_mem_nil
  · rw [hpaid]
    exact List.nodup_nil
  · rw [hpaid]
    exact List.nil_subperm

/-! ### Steps -/

omit [DecidableEq Hash] in
/-- What the world's moves record is new. -/
lemma waits_once {l l' : TapLeader Hash Sig} (hwait : (TapLeader.world C rskAccount).Waits l l')
    (h : (l.db.deposits.map outpointOf).Nodup) : (l'.db.deposits.map outpointOf).Nodup := by
  induction hwait with
  | refl => exact h
  | @tail l₁ l₂ _ hmove ih =>
      cases hmove with
      | @deposited dbId t hnew _ hunseen =>
          show ((l₁.db.setTransfer dbId t).deposits.map outpointOf).Nodup
          rw [TapDb.deposits_setTransfer hnew, List.map_append, List.map_singleton]
          refine ih.append (List.nodup_singleton _) fun o ho hsingle => ?_
          obtain ⟨t', ht', rfl⟩ := List.mem_map.1 ho
          obtain ⟨p, hp, rfl⟩ := List.mem_map.1 ht'
          exact hunseen p hp (List.mem_singleton.1 hsingle)
      | _ => exact ih

/-- A step of the process records nothing and pays nothing. -/
lemma kept_of_step {c c' : Process (TapOp Hash Sig) TapOp.Resp PyError (TapLeader Hash Sig)}
    (h : Running (TapLeader.world C rskAccount) service.processCurrentTransferBatch
      TapLeader.Started c)
    (hs : c.Step (TapLeader.world C rskAccount).still service.processCurrentTransferBatch c') :
    c'.world.db.deposits = c.world.db.deposits ∧ paidOf c'.world.sent = paidOf c.world.sent ∧
      c'.world.chain = c.world.chain := by
  have hcalls := Running.calls (TapToRskService.processCurrentTransferBatch_keepsRows service) h
  cases hs with
  | @call l l' o next r does =>
      have ho := (hcalls _ rfl).1
      have hsent {r : o.Resp} {sent : List (SentTx Sig)} (hanswer : l.Answers C o r sent) :
          paidOf sent = paidOf l.sent := by
        cases o with
        | transaction body => exact hanswer.elim
        | transact batchId t signatures =>
            obtain ⟨-, rfl⟩ := hanswer
            rw [paidOf_append]
            exact List.append_nil _
        | ask serializedBatch => exact congrArg paidOf hanswer
        | getFederators => exact congrArg paidOf hanswer.2
        | numRequiredSigners => exact congrArg paidOf hanswer.2
        | getTransferFromTapMessageHash t => exact congrArg paidOf hanswer.2
        | waitForTransactionReceipt txHash => exact congrArg paidOf hanswer.2
      cases does with
      | committed hok => exact ⟨ho _ _ _ _ hok, rfl, rfl⟩
      | commitRaised hok e => exact ⟨ho _ _ _ _ hok, rfl, rfl⟩
      | answered hanswer => exact ⟨rfl, hsent hanswer, rfl⟩
      | answerRaised hanswer e => exact ⟨rfl, hsent hanswer, rfl⟩
      | raised _ e => exact ⟨rfl, rfl, rfl⟩
  | move moves => exact absurd moves id
  | _ => exact ⟨rfl, rfl, rfl⟩

/-- **Steps that neither pay nor record** keep everything. -/
lemma Consistent.kept (h : Consistent C rskAccount service s)
    (hrunning : Running (TapLeader.world C rskAccount) service.processCurrentTransferBatch
      TapLeader.Started s'.process)
    (haddresses : s'.addresses = s.addresses)
    (hreceived : ∀ event ∈ s.received, event ∈ s'.received)
    (hdeposits : s'.leader.db.deposits = s.leader.db.deposits) (hpaid : s'.paid = s.paid)
    (hchain : s'.leader.chain = s.leader.chain) : Consistent C rskAccount service s' := by
  have hquoted : s'.quoted = s.quoted := by
    funext t
    rw [quoted, haddresses]
    rfl
  refine ⟨hrunning, ?_, ?_, ?_, ?_, ?_, ?_, ?_, ?_⟩
  · rw [hchain]
    exact h.assets
  · rw [haddresses]
    exact h.unique
  · rw [haddresses, hchain]
    exact h.quotes
  · rw [hdeposits]
    exact h.once
  · rw [hdeposits]
    exact fun t ht => (h.deposited t ht).mono (fun row hrow => haddresses ▸ hrow) hreceived
  · rw [hpaid, hchain]
    exact h.processed
  · rw [hpaid]
    exact h.paidOnce
  · rw [hpaid, hquoted, hchain]
    exact h.paid

/-- **A call** of the contract that keeps to the quotes. -/
lemma Consistent.call (h : Consistent C rskAccount service s) {sender : Address}
    {call : TapCall Sig} {chain : TapWorld}
    (hstep : TapWorld.Step C s.leader.chain (sender, call) chain)
    (hkeeps : ∀ row ∈ s.addresses, call.KeepsQuotes row.rskTokenAddress) :
    Consistent C rskAccount service (s.withLeader { s.leader with chain }) := by
  have hmoves : TapLeader.Moves C rskAccount s.leader { s.leader with chain } := .called hstep
  refine ⟨h.running.step (.move hmoves _), TapWorld.agree_step h.assets hstep, h.unique, ?_, h.once,
    h.deposited, ?_, h.paidOnce, ?_⟩
  · exact fun row hrow => (h.quotes row hrow).step h.assets hstep (hkeeps row hrow)
  · exact fun t ht => TapLeader.isProcessed_of_step hstep (h.processed t ht)
  · obtain ⟨new, hreleased⟩ := TapWorld.released_of_step hstep
    show List.Subperm _ (chain.released.map _)
    rw [hreleased, List.map_append]
    exact h.paid.trans (List.sublist_append_left _ _).subperm

/-- **A transaction succeeds.** -/
lemma Consistent.mined (h : Consistent C rskAccount service s) {i : ℕ} {tx : SentTx Sig}
    {chain : TapWorld} (hi : s.leader.sent[i]? = some tx) (hpending : tx.receipt = none)
    (haccept : s.leader.chain.acceptTransferFromTap C rskAccount tx.transfer tx.signatures =
      .ok chain) :
    Consistent C rskAccount service (s.withLeader { s.leader with
      chain, sent := s.leader.sent.set i { tx with receipt := some true } }) := by
  have hstep : TapWorld.Step C s.leader.chain
      (rskAccount, .acceptTransferFromTap tx.transfer tx.signatures) chain := haccept
  have hmoves : TapLeader.Moves C rskAccount s.leader { s.leader with
      chain, sent := s.leader.sent.set i { tx with receipt := some true } } :=
    .mined hi hpending haccept
  have hperm := paidOf_set_succeeded hi hpending
  obtain ⟨row, hrow, hto, htap, -⟩ := h.deposited _ (h.sent tx (List.mem_of_getElem? hi))
  have hquote := h.quotes row hrow
  rw [← htap] at hquote
  obtain ⟨r, hreleased, hvalue⟩ := hquote.released h.assets haccept
  obtain ⟨-, hfree, -, -, -⟩ := TapWorld.acceptTransferFromTap_effect haccept
  refine ⟨h.running.step (.move hmoves _), TapWorld.agree_step h.assets hstep, h.unique, ?_, h.once,
    h.deposited, ?_, ?_, ?_⟩
  · exact fun row hrow => (h.quotes row hrow).step h.assets hstep trivial
  · intro t ht
    rcases List.mem_cons.1 (hperm.mem_iff.1 ht) with rfl | ht
    · exact TapLeader.isProcessed_of_accept haccept
    · exact TapLeader.isProcessed_of_step hstep (h.processed t ht)
  · refine ((hperm.map _).nodup_iff).2 (List.nodup_cons.2 ⟨fun hmem => ?_, h.paidOnce⟩)
    -- the outpoint was not processed before, those of what was paid were
    obtain ⟨t, ht, heq⟩ := List.mem_map.1 hmem
    obtain ⟨htxid, hvout⟩ := Prod.mk.inj heq
    have hprocessed := h.processed t ht
    rw [htxid, hvout, hfree] at hprocessed
    cases hprocessed
  · have hpaid : ((s.withLeader { s.leader with
        chain, sent := s.leader.sent.set i { tx with receipt := some true } }).paid.map
          s.quoted).Perm (s.quoted tx.transfer :: s.paid.map s.quoted) := hperm.map _
    refine hpaid.subperm.trans ?_
    show List.Subperm _ (chain.released.map _)
    rw [hreleased, List.map_append, List.map_singleton, hvalue, quoted_eq h.unique hrow htap, hto]
    exact ((List.subperm_cons _).2 h.paid).trans (List.perm_append_singleton _ _).symm.subperm

/-- **A deposit address** is quoted, and no other quote changes. -/
lemma Consistent.generate (h : Consistent C rskAccount service s) {client : TapClient}
    {userRskAddress : Address} {tapAmount rskAmount : Option ℤ} {tapAssetId : Option Bytes32}
    {rskTokenAddress : Option Address} {row : TapDepositAddressRow}
    {addresses : List TapDepositAddressRow}
    (hencodes : TapDepositService.Encodes client s.leader.chain.bridge.tapUtils)
    (hgenerate : TapDepositService.generateDepositAddress client s.leader.chain.bridge
      userRskAddress tapAmount tapAssetId rskAmount rskTokenAddress s.addresses =
        .ok (row, addresses)) :
    Consistent C rskAccount service { s with addresses } := by
  obtain ⟨rfl, hunique, -, hquote⟩ :=
    TapDepositService.generateDepositAddress_ok h.assets hencodes hgenerate
  have hmono : ∀ t, s.Deposited t → Deposited { s with addresses := s.addresses ++ [row] } t :=
    fun t ht => ht.mono (fun row hrow => List.mem_append_left _ hrow) fun _ he => he
  have hnodup : ((s.addresses ++ [row]).map fun row => row.address.tapAddress).Nodup := by
    rw [List.map_append, List.map_singleton]
    refine h.unique.append (List.nodup_singleton _) fun tapAddress hmem hsingle => ?_
    obtain ⟨other, hother, rfl⟩ := List.mem_map.1 hmem
    exact hunique other hother (List.mem_singleton.1 hsingle)
  refine ⟨h.running, h.assets, hnodup, ?_, h.once, ?_, h.processed, h.paidOnce, ?_⟩
  · intro row' hrow'
    rcases List.mem_append.1 hrow' with hrow' | hrow'
    · exact h.quotes row' hrow'
    · rw [List.mem_singleton.1 hrow']
      exact hquote
  · exact fun t ht => hmono t (h.deposited t ht)
  · have hquoted : s.paid.map (quoted { s with addresses := s.addresses ++ [row] }) =
        s.paid.map s.quoted := by
      refine List.map_congr_left fun t ht => ?_
      obtain ⟨row', hrow', -, htap, -⟩ := h.deposited t (h.paid_mem ht)
      have hafter := @quoted_eq _ _ { s with addresses := s.addresses ++ [row] } hnodup row'
        (List.mem_append_left _ hrow') t htap
      rw [hafter, quoted_eq h.unique hrow' htap]
    show (s.paid.map _).Subperm _
    rw [hquoted]
    exact h.paid

/-- **A scan** records what tapd has received. -/
lemma Consistent.scan (h : Consistent C rskAccount service s) {client : TapClient}
    {newId : TapDb Hash Sig → ℕ} {db : TapDb Hash Sig} (hreports : Reports s.received client)
    (hscan : TapDepositService.scanNewDeposits client newId s.addresses s.leader.db = .ok db) :
    Consistent C rskAccount service (s.withLeader { s.leader with db }) := by
  obtain ⟨⟨new, hrows, hnew⟩, -, hmoves⟩ := TapDepositService.scanNewDeposits_ok hscan
  have hwaits := hmoves C rskAccount s.leader.chain s.leader.sent
  refine ⟨Running.waits h.running hwaits, h.assets, h.unique, h.quotes, waits_once hwaits h.once,
    ?_, h.processed, h.paidOnce, h.paid⟩
  intro t ht
  have hdeposits : db.deposits =
      s.leader.db.deposits ++ new.map fun p => p.2.toTransferFromTap := by
    rw [TapDb.deposits, hrows, List.map_append]
    rfl
  have hmem : t ∈ db.deposits := ht
  rw [hdeposits] at hmem
  rcases List.mem_append.1 hmem with hold | hfound
  · exact h.deposited t hold
  · obtain ⟨p, hp, rfl⟩ := List.mem_map.1 hfound
    obtain ⟨row, hrow, events, hevents, haddress, -, event, hevent, hencoded, -, houtpoint⟩ :=
      hnew p hp
    have hreceived := ((hreports _ _ hevents) event).1 hevent
    exact ⟨row, hrow, by rw [← haddress]; rfl, by rw [← haddress]; rfl, event, hreceived.1,
      hencoded, houtpoint⟩

omit [DecidableEq Hash] in
lemma allRecorded_of_scan {client : TapClient} {newId : TapDb Hash Sig → ℕ} {db : TapDb Hash Sig}
    (hreports : Reports s.received client)
    (hscan : TapDepositService.scanNewDeposits client newId s.addresses s.leader.db = .ok db) :
    (s.withLeader { s.leader with db }).AllRecorded := by
  obtain ⟨-, hall, -⟩ := TapDepositService.scanNewDeposits_ok hscan
  intro row hrow event hevent hencoded
  obtain ⟨events, hevents, hrecorded⟩ := hall row hrow
  have hmem := ((hreports _ _ hevents) event).2 ⟨hevent, hencoded⟩
  obtain ⟨p, hp, houtpoint⟩ := hrecorded event hmem
  exact ⟨_, List.mem_map.2 ⟨p, hp, rfl⟩, houtpoint⟩

/-- **The process** records nothing and pays nothing. -/
lemma Consistent.work (h : Consistent C rskAccount service s)
    {process : Process (TapOp Hash Sig) TapOp.Resp PyError (TapLeader Hash Sig)}
    (hstep : s.process.Step (TapLeader.world C rskAccount).still
      service.processCurrentTransferBatch process) :
    Consistent C rskAccount service { s with process } := by
  obtain ⟨hdeposits, hpaid, hchain⟩ := kept_of_step h.running hstep
  exact h.kept (h.running.step hstep.of_still) rfl (fun _ he => he) hdeposits hpaid hchain

/-- **Every step** that keeps to the quotes. -/
lemma Consistent.step {a : TapPegInAction Sig} (h : Consistent C rskAccount service s)
    (hkeeps : s.KeepsQuotes a) (hs : Step C rskAccount service s a s') :
    Consistent C rskAccount service s' := by
  cases hs with
  | call hstep => exact h.call hstep hkeeps
  | mined hi hpending haccept => exact h.mined hi hpending haccept
  | reverted hi hpending =>
      have hmoves := @TapLeader.Moves.reverted _ _ C rskAccount s.leader _ _ hi hpending
      exact h.kept (h.running.step (.move hmoves _)) rfl (fun _ he => he) rfl
        (paidOf_set_reverted hi hpending) rfl
  | answered hcreated hunsent =>
      have hmoves := @TapLeader.Moves.answered _ _ C rskAccount s.leader _ hcreated hunsent
      exact h.kept (h.running.step (.move hmoves _)) rfl (fun _ he => he) rfl rfl rfl
  | generate hencodes hgenerate => exact h.generate hencodes hgenerate
  | receive event =>
      exact h.kept h.running rfl (fun _ he => List.mem_append_left _ he) rfl rfl rfl
  | scan hreports hscan => exact h.scan hreports hscan
  | work hstep => exact h.work hstep

end TapPegIn

/-- **Deposits from tap are recorded once and paid as quoted**, in every run that keeps to the
quotes, with transactions that are reverted, calls that raise and crashes.  Each row is of assets
received at a deposit address, with an outpoint of its own; only rows are sent; and what was quoted
for the transactions that succeeded is among what the contract has released.  A scan that succeeds
leaves nothing unrecorded. -/
theorem tap_deposits_paid_as_quoted {Hash Sig : Type} [DecidableEq Hash] {C : Crypto Hash Sig}
    {rskAccount : Address} {service : TapToRskService Hash Sig} {s : TapPegIn Hash Sig}
    {tr : List (TapPegInAction Sig)}
    (h : Run TapPegIn.Start (fun s a s' => s.KeepsQuotes a ∧
      TapPegIn.Step C rskAccount service s a s') tr s) :
    s.PaidAsQuoted ∧
      ∀ s', TapPegIn.Step C rskAccount service s .scan s' → s'.AllRecorded := by
  have hconsistent : TapPegIn.Consistent C rskAccount service s :=
    h.stateInvariant (fun _ => TapPegIn.consistent_of_start)
      fun _ _ _ hc hs => hc.step hs.1 hs.2
  refine ⟨⟨hconsistent.once, hconsistent.deposited, hconsistent.sent, hconsistent.paidOnce,
    hconsistent.paid⟩, fun s' hscan => ?_⟩
  cases hscan with
  | scan hreports hscan => exact TapPegIn.allRecorded_of_scan hreports hscan

/-! ## Example -/

namespace ExampleTapPegIn

def tapAddress : Bytes := TapWorld.Example.transfer.transferTapAddress

/-- A thousand units received at the address. -/
def event : TapReceive := ⟨tapAddress, (77, 0), true⟩

def client : TapClient where
  createAddress assetId amount :=
    if assetId = 7 ∧ amount = 1000 then .ok tapAddress else .error (.other "TapRestError")
  listReceives tapAddress := .ok ([event].filter fun event => event.encoded = tapAddress)

def answers : List (SignTransferBatchAnswer (Address × Bytes)) :=
  [⟨[TapLeader.Example.sign TapLeader.Example.small], 5⟩]

/-- The leader after an iteration in which all calls go through. -/
def processed (s : TapLeader Bytes (Address × Bytes)) : TapLeader Bytes (Address × Bytes) :=
  (TapLeader.Example.service.processCurrentTransferBatch.eval
    (TapLeader.handle symbolicCrypto answers) (fun _ => some .stable) s).2

lemma reports : TapPegIn.Reports [event] client := by
  rintro tapAddress events ⟨⟩ e
  rw [List.mem_filter, decide_eq_true_eq]

lemma encodes : TapDepositService.Encodes client ⟨Packed.ascii "taprt"⟩ := by
  have hdecoded : (TapUtils.decodeTapAddress ⟨Packed.ascii "taprt"⟩ tapAddress).map
      (fun decoded => (decoded.assetId, decoded.amount)) = .ok (7, 1000) := by
    decide +kernel
  obtain ⟨decoded, hok, heq⟩ : ∃ decoded,
      TapUtils.decodeTapAddress ⟨Packed.ascii "taprt"⟩ tapAddress = .ok decoded ∧
        (decoded.assetId, decoded.amount) = (7, 1000) := by
    cases h : TapUtils.decodeTapAddress ⟨Packed.ascii "taprt"⟩ tapAddress with
    | ok decoded =>
        rw [h] at hdecoded
        exact ⟨decoded, rfl, Except.ok.inj hdecoded⟩
    | error e =>
        rw [h] at hdecoded
        cases hdecoded
  obtain ⟨hid, hamount⟩ := Prod.mk.inj heq
  intro assetId amount address h
  by_cases hasset : assetId = 7 ∧ amount = 1000
  · simp only [client, if_pos hasset, Except.ok.injEq] at h
    subst h
    refine ⟨decoded, hok, hid.trans hasset.1.symm, ?_⟩
    rw [hamount, hasset.2]
    rfl
  · simp only [client, if_neg hasset] at h
    cases h

variable {Hash Sig : Type} [DecidableEq Hash] {C : Crypto Hash Sig} {rskAccount : Address}
  {service : TapToRskService Hash Sig}

lemma run_step {tr : List (TapPegInAction Sig)} {s s' : TapPegIn Hash Sig} {a : TapPegInAction Sig}
    (h : Run TapPegIn.Start (fun s a s' => s.KeepsQuotes a ∧
      TapPegIn.Step C rskAccount service s a s') tr s)
    (hs : TapPegIn.Step C rskAccount service s a s') (hkeeps : s.KeepsQuotes a) :
    Run TapPegIn.Start (fun s a s' => s.KeepsQuotes a ∧
      TapPegIn.Step C rskAccount service s a s') (tr ++ [a]) s' :=
  h.step ⟨hkeeps, hs⟩

/-- The process can go on for as long as it likes. -/
lemma run_work {tr : List (TapPegInAction Sig)} {s : TapPegIn Hash Sig}
    (h : Run TapPegIn.Start (fun s a s' => s.KeepsQuotes a ∧
      TapPegIn.Step C rskAccount service s a s') tr s)
    {process : Process (TapOp Hash Sig) TapOp.Resp PyError (TapLeader Hash Sig)}
    (hsteps : Relation.ReflTransGen (Process.Step (TapLeader.world C rskAccount).still
      service.processCurrentTransferBatch) s.process process) :
    ∃ tr', Run TapPegIn.Start (fun s a s' => s.KeepsQuotes a ∧
      TapPegIn.Step C rskAccount service s a s') tr' { s with process } := by
  induction hsteps with
  | refl => exact ⟨tr, h⟩
  | tail _ hstep ih =>
      obtain ⟨tr', hrun⟩ := ih
      refine ⟨tr' ++ [.work], run_step hrun (.work hstep) ?_⟩
      trivial

lemma ok_of_toOption {ε α : Type} {x : Except ε α} {a : α} (h : x.toOption = some a) :
    x = .ok a := by
  cases x with
  | ok b => exact congrArg Except.ok (Option.some.inj h)
  | error e => cases h

end ExampleTapPegIn

open ExampleTapPegIn in
/-- A deposit that is quoted, received, recorded, sent and paid. -/
theorem tap_deposits_paid_as_quoted_example :
    ∃ s : TapPegIn Bytes (Address × Bytes), s.PaidAsQuoted ∧
      s.paid = [TapWorld.Example.transfer] ∧
      s.leader.chain.released = [⟨20, 11, 3000⟩] := by
  have heval : (do
      let b ← (TapBridge.construct 9 ⟨Packed.ascii "taprt"⟩ 2 [4, 5]).toOption
      let w ← ((TapWorld.Example.world b).step symbolicCrypto 9
        (.addBridgeableAsset TapWorld.Example.asset)).toOption
      let (row, addresses) ← (TapDepositService.generateDepositAddress client w.bridge 11
        (some 1000) (some 7) none none []).toOption
      let db ← (TapDepositService.scanNewDeposits client (fun _ => 1) addresses
        (.empty : TapDb Bytes (Address × Bytes))).toOption
      let l := processed ⟨db, w, []⟩
      let tx ← l.sent[0]?
      let w' ← (l.chain.acceptTransferFromTap symbolicCrypto 4 tx.transfer
        tx.signatures).toOption
      pure (w.bridge.tapUtils, tx.receipt,
        TapPegIn.paidOf (l.sent.set 0 { tx with receipt := some true }), w'.released)) =
        some (⟨Packed.ascii "taprt"⟩, none, [TapWorld.Example.transfer], [⟨20, 11, 3000⟩]) := by
    decide +kernel
  simp only [Option.bind_eq_bind, Option.bind_eq_some_iff, Option.pure_def, Option.some.injEq,
    Prod.exists, Prod.mk.injEq] at heval
  obtain ⟨b, hb, w, hw, row, addresses, hgenerate, db, hscan, tx, htx, w', hw', hutils, hpending,
    hpaid, hreleased⟩ := heval
  let start : TapPegIn Bytes (Address × Bytes) :=
    ⟨⟨⟨.empty, TapWorld.Example.world b, []⟩, none⟩, [], []⟩
  have hstart : Run TapPegIn.Start (fun s a s' => s.KeepsQuotes a ∧
      TapPegIn.Step symbolicCrypto 4 TapLeader.Example.service s a s') [] start :=
    .init ⟨⟨9, _, 2, [4, 5], ok_of_toOption hb, rfl, rfl⟩, ⟨rfl, rfl⟩, rfl, rfl⟩
  have hkeeps : TapPegIn.KeepsQuotes start
      (.call 9 (.addBridgeableAsset TapWorld.Example.asset)) := by
    intro row hrow
    cases hrow
  have hadded := run_step hstart (.call (ok_of_toOption hw)) hkeeps
  have hencodes : TapDepositService.Encodes client w.bridge.tapUtils := by
    rw [hutils]
    exact encodes
  have hgenerated := run_step hadded (.generate hencodes (ok_of_toOption hgenerate)) trivial
  have hreceived := run_step hgenerated (.receive _ event) trivial
  have hscanned := run_step hreceived (.scan reports (ok_of_toOption hscan)) trivial
  have hsteps : Relation.ReflTransGen
      (Process.Step (TapLeader.world symbolicCrypto 4).still
        TapLeader.Example.service.processCurrentTransferBatch)
      ⟨⟨db, w, []⟩, none⟩ ⟨processed ⟨db, w, []⟩, none⟩ :=
    .head (.start _) (Process.steps_evalOf (W := (TapLeader.world symbolicCrypto 4).still)
      TapLeader.does_handle)
  obtain ⟨tr, hrun⟩ := run_work hscanned hsteps
  have hmined := run_step hrun (.mined htx hpending (ok_of_toOption hw')) trivial
  exact ⟨_, (tap_deposits_paid_as_quoted hmined).1, hpaid, hreleased⟩

end NbteBridge
