import NbteBridge.Foundations.Outbox
import NbteBridge.TapRsk.RskToTap

/-!
# Transfers to tap are sent once, and in order

A transfer is put into one batch and stays there, and a batch is formed of the transfers with the
smallest counters.  While a batch is not finalized no other one is formed.  The statuses of a batch
are the stages of an outbox: `send_assets` is called for a batch once it is committed that it is
sent, and once only.  All of this holds in every run, with transfers that arrive, calls that raise
and crashes at any point.
-/

namespace NbteBridge

open Checked Effects Outboxes Tables

variable {Result : Type}

/-! ## Transactions and the rows of transfers -/

namespace RskToTapDb

variable {db db' db'' : RskToTapDb Result}

/-- The batch a transfer is in. -/
def batchOf (db : RskToTapDb Result) (dbId : ℕ) : Option ℕ :=
  (db.transfers.get? dbId).bind RskToTapTransfer.transferBatchId

/-- Transfers stay, in the batches they are in, and none is put into a batch while one with a
smaller counter is in none. -/
structure Orderly (db db' : RskToTapDb Result) : Prop where
  row : ∀ dbId t, db.transfers.get? dbId = some t →
    ∃ t', db'.transfers.get? dbId = some t' ∧ t'.counter = t.counter
  batch : ∀ dbId i, db.batchOf dbId = some i → db'.batchOf dbId = some i
  ordered : ∀ dbId dbId' t t', db.transfers.get? dbId = some t →
    db.transfers.get? dbId' = some t' → t.counter < t'.counter →
      db.batchOf dbId' = none → db'.batchOf dbId' ≠ none → db'.batchOf dbId ≠ none

lemma Orderly.of_batchOf
    (hrow : ∀ dbId t, db.transfers.get? dbId = some t →
      ∃ t', db'.transfers.get? dbId = some t' ∧ t'.counter = t.counter)
    (hbatch : ∀ dbId, db.transfers.get? dbId ≠ none → db'.batchOf dbId = db.batchOf dbId) :
    Orderly db db' where
  row := hrow
  batch dbId i hi := by
    rw [hbatch dbId, hi]
    intro hnone
    rw [batchOf, hnone] at hi
    cases hi
  ordered dbId dbId' t t' _ ht' _ hnone hsome := by
    rw [hbatch dbId' (by simp [ht'])] at hsome
    exact absurd hnone hsome

lemma Orderly.of_transfers (h : db'.transfers = db.transfers) : Orderly db db' :=
  .of_batchOf (fun _ t ht => ⟨t, by rw [h, ht], rfl⟩) fun dbId _ => by rw [batchOf, batchOf, h]

lemma Orderly.refl (db : RskToTapDb Result) : Orderly db db := .of_transfers rfl

lemma Orderly.trans (h : Orderly db db') (h' : Orderly db' db'') : Orderly db db'' where
  row dbId t ht := by
    obtain ⟨t', ht', hcounter⟩ := h.row dbId t ht
    obtain ⟨t'', ht'', hcounter'⟩ := h'.row dbId t' ht'
    exact ⟨t'', ht'', hcounter'.trans hcounter⟩
  batch dbId i hi := h'.batch dbId i (h.batch dbId i hi)
  ordered dbId dbId' t t' ht ht' hlt hnone hsome := by
    cases hbatch : db'.batchOf dbId' with
    | none =>
        -- the later transfer is put into a batch in the second step
        obtain ⟨u, hu, hcounter⟩ := h.row dbId t ht
        obtain ⟨u', hu', hcounter'⟩ := h.row dbId' t' ht'
        exact h'.ordered dbId dbId' u u' hu hu' (by omega) hbatch hsome
    | some i =>
        obtain ⟨j, hj⟩ := Option.ne_none_iff_exists'.1
          (h.ordered dbId dbId' t t' ht ht' hlt hnone (by simp [hbatch]))
        rw [h'.batch dbId j hj]
        exact Option.some_ne_none j

lemma orderly_setTransfer {dbId : ℕ} {t : RskToTapTransfer}
    (hnew : db.transfers.get? dbId = none) : Orderly db (db.setTransfer dbId t) := by
  have hget : ∀ dbId', db.transfers.get? dbId' ≠ none →
      (db.setTransfer dbId t).transfers.get? dbId' = db.transfers.get? dbId' := by
    intro dbId' hsome
    rw [setTransfer, Table.get?_set, if_neg]
    rintro rfl
    exact hsome hnew
  refine .of_batchOf (fun dbId' t' ht' => ⟨t', ?_, rfl⟩) fun dbId' hsome => ?_
  · rw [hget dbId' (by simp [ht']), ht']
  · rw [batchOf, batchOf, hget dbId' hsome]

/-! ### Forming a batch -/

lemma byCounter_perm (rows : List (ℕ × RskToTapTransfer)) : (byCounter rows).Perm rows :=
  List.perm_insertionSort _ rows

lemma byCounter_sorted (rows : List (ℕ × RskToTapTransfer)) :
    (byCounter rows).Pairwise fun p q => p.2.counter ≤ q.2.counter := by
  have : Std.Total fun p q : ℕ × RskToTapTransfer => p.2.counter ≤ q.2.counter :=
    ⟨fun p q => Nat.le_total _ _⟩
  have : IsTrans (ℕ × RskToTapTransfer) fun p q => p.2.counter ≤ q.2.counter :=
    ⟨fun _ _ _ => Nat.le_trans⟩
  exact List.pairwise_insertionSort _ rows

/-- Of sorted rows, what is before a chosen one is chosen. -/
lemma mem_take_byCounter {rows : List (ℕ × RskToTapTransfer)} {n : ℕ} {p q : ℕ × RskToTapTransfer}
    (hp : p ∈ rows) (hq : q ∈ (byCounter rows).take n) (hlt : p.2.counter < q.2.counter) :
    p ∈ (byCounter rows).take n := by
  have hsorted := byCounter_sorted rows
  rw [← List.take_append_drop n (byCounter rows)] at hsorted
  have hmem : p ∈ byCounter rows := (byCounter_perm rows).mem_iff.2 hp
  rw [← List.take_append_drop n (byCounter rows)] at hmem
  rcases List.mem_append.1 hmem with hmem | hmem
  · exact hmem
  · exact absurd ((List.pairwise_append.1 hsorted).2.2 q hq p hmem) (by omega)

/-- The rows that a batch is formed of. -/
structure Chosen (db : RskToTapDb Result) (chosen : List (ℕ × RskToTapTransfer)) : Prop where
  unbatched : ∀ p ∈ chosen, p ∈ db.unbatched
  smallest : ∀ p ∈ db.unbatched, ∀ q ∈ chosen, p.2.counter < q.2.counter → p ∈ chosen

lemma chosen_take (db : RskToTapDb Result) (n : ℕ) :
    Chosen db ((byCounter db.unbatched).take n) where
  unbatched _ hp := (byCounter_perm _).mem_iff.1 (List.mem_of_mem_take hp)
  smallest _ hp _ hq hlt := mem_take_byCounter hp hq hlt

variable {chosen : List (ℕ × RskToTapTransfer)}

/-- A row with the number of a chosen one is chosen. -/
lemma Chosen.mem (h : Chosen db chosen) {p : ℕ × RskToTapTransfer} (hp : p ∈ db.transfers.rows)
    (hmem : p.1 ∈ chosen.map Prod.fst) : p ∈ chosen := by
  obtain ⟨q, hq, heq⟩ := List.mem_map.1 hmem
  have hlookup := Table.lookup_of_mem db.transfers.nodup (List.mem_filter.1 (h.unbatched q hq)).1
  rw [heq, Table.lookup_of_mem db.transfers.nodup hp] at hlookup
  obtain rfl : p = q := Prod.ext heq.symm (Option.some.inj hlookup)
  exact hq

lemma batchOf_eq_none_of_mem_unbatched {p : ℕ × RskToTapTransfer} (h : p ∈ db.unbatched) :
    db.batchOf p.1 = none := by
  obtain ⟨hrow, hnone⟩ := List.mem_filter.1 h
  have hget : db.transfers.get? p.1 = some p.2 := Table.lookup_of_mem db.transfers.nodup hrow
  rw [batchOf, hget]
  simpa using hnone

lemma mem_unbatched {dbId : ℕ} {t : RskToTapTransfer} (ht : db.transfers.get? dbId = some t)
    (hnone : db.batchOf dbId = none) : (dbId, t) ∈ db.unbatched := by
  rw [batchOf, ht] at hnone
  exact List.mem_filter.2 ⟨Table.mem_of_get? ht, by simpa using hnone⟩

lemma batchOf_assign {dbIds : List ℕ} {i dbId : ℕ} {t : RskToTapTransfer}
    (ht : db.transfers.get? dbId = some t) :
    (db.assign dbIds i).batchOf dbId = if dbId ∈ dbIds then some i else db.batchOf dbId := by
  rw [batchOf, batchOf, assign, Table.get?_mapRows, ht]
  by_cases hmem : dbId ∈ dbIds
  · simp [hmem]
  · simp [hmem]

/-- **Forming a batch** takes nothing out of a batch, and passes over no smaller counter. -/
lemma orderly_assign (h : Chosen db chosen) (i : ℕ) :
    Orderly db (db.assign (chosen.map Prod.fst) i) where
  row dbId t ht := by
    rw [assign, Table.get?_mapRows, ht]
    refine ⟨_, rfl, ?_⟩
    split_ifs <;> rfl
  batch dbId j hj := by
    obtain ⟨t, ht, -⟩ := Option.bind_eq_some_iff.1 hj
    rw [batchOf_assign ht, if_neg, hj]
    intro hmem
    obtain ⟨p, hp, rfl⟩ := List.mem_map.1 hmem
    rw [batchOf_eq_none_of_mem_unbatched (h.unbatched p hp)] at hj
    cases hj
  ordered dbId dbId' t t' ht ht' hlt hnone hsome := by
    rw [batchOf_assign ht'] at hsome
    split_ifs at hsome with hmem'
    · -- the later transfer is chosen, so the earlier one is chosen too unless it has a batch
      have hchosen := h.mem (Table.mem_of_get? ht') hmem'
      rw [batchOf_assign ht]
      split_ifs with hmem
      · exact Option.some_ne_none i
      · intro hunbatched
        exact hmem (List.mem_map_of_mem
          (h.smallest (dbId, t) (mem_unbatched ht hunbatched) (dbId', t') hchosen hlt))
    · exact absurd hnone hsome

end RskToTapDb

/-! ### The transactions of the service -/

/-- A transaction is orderly. -/
def RskToTapOp.Orderly : RskToTapOp Result → Prop
  | .transaction body => ∀ newId db b db', body newId db = .ok (b, db') → db.Orderly db'
  | .sendAssets .. => True

namespace RskToTapService

variable {service : RskToTapService} {db db' : RskToTapDb Result} {i : ℕ}

lemma getBatch_eq_ok {b : RskToTapTransferBatch Result} :
    db.getBatch i = .ok b ↔ db.batches.get? i = some b := orError_eq_ok

/-- What forming or finding a batch comes to. -/
lemma getOrCreateCurrentBatch_ok {newId : ℕ}
    {current : Option (ℕ × RskToTapTransferBatch Result)}
    (h : service.getOrCreateCurrentBatch newId db = .ok (current, db')) :
    (db' = db ∧ ∀ i b, current = some (i, b) → db.batches.get? i = some b) ∨
    ∃ chosen, RskToTapDb.Chosen db chosen ∧ newId ∉ db.batches.keys ∧
      (∀ i b, db.batches.get? i = some b → b.status = .finalized) ∧
      current = some (newId, ⟨.created, none⟩) ∧
      db' = (db.setBatch newId ⟨.created, none⟩).assign (chosen.map Prod.fst) newId := by
  unfold getOrCreateCurrentBatch at h
  cases hargmin : List.argmin Prod.fst
      (db.batches.rows.filter fun p => p.2.status ≠ .finalized) with
  | some row =>
      simp only [hargmin, pure_eq_ok, Prod.mk.injEq] at h
      obtain ⟨rfl, rfl⟩ := h
      refine .inl ⟨rfl, ?_⟩
      rintro i b hrow
      obtain rfl := Option.some.inj hrow
      exact Table.lookup_of_mem db.batches.nodup
        (List.mem_filter.1 (List.argmin_mem hargmin)).1
  | none =>
      simp only [hargmin] at h
      have hfinalized : ∀ i b, db.batches.get? i = some b → b.status = .finalized := by
        intro i b hb
        have hnone := List.filter_eq_nil_iff.1 (List.argmin_eq_none.1 hargmin) (i, b)
          (Table.mem_of_get? hb)
        simpa using hnone
      have hchosen := RskToTapDb.chosen_take db service.batchLimit
      generalize (RskToTapDb.byCounter db.unbatched).take service.batchLimit = chosen
        at h hchosen
      cases chosen with
      | nil =>
          simp only [pure_eq_ok, Prod.mk.injEq] at h
          obtain ⟨rfl, rfl⟩ := h
          exact .inl ⟨rfl, by simp⟩
      | cons p rest =>
          simp only [bind_eq_ok, exists_unit, require_eq_ok, pure_eq_ok, Prod.mk.injEq] at h
          obtain ⟨hnew, rfl, rfl⟩ := h
          exact .inr ⟨_, hchosen, hnew, hfinalized, rfl, rfl⟩

lemma startSending_ok {recipients : List String}
    (h : startSending i db = .ok (recipients, db')) :
    ∃ b, db.batches.get? i = some b ∧ b.status = .created ∧
      recipients = (db.batchTransfers i).map RskToTapTransfer.recipientTapAddress ∧
      db' = db.setBatch i { b with status := .sendingToTap } := by
  simp only [startSending, bind_eq_ok, exists_unit, require_eq_ok, getBatch_eq_ok, pure_eq_ok,
    Prod.mk.injEq] at h
  obtain ⟨b, hb, hstatus, rfl, rfl⟩ := h
  exact ⟨b, hb, hstatus, rfl, rfl⟩

lemma checkSending_ok {u : Unit} (h : checkSending i db = .ok (u, db')) : db' = db := by
  simp only [checkSending, bind_eq_ok, exists_unit, pure_eq_ok, Prod.mk.injEq, true_and] at h
  obtain ⟨-, -, -, rfl⟩ := h
  rfl

lemma finishSending_ok {sendResult : Result} {u : Unit}
    (h : finishSending i sendResult db = .ok (u, db')) :
    ∃ b, db.batches.get? i = some b ∧ b.status = .sendingToTap ∧
      db' = db.setBatch i ⟨.sentToTap, some sendResult⟩ := by
  simp only [finishSending, bind_eq_ok, exists_unit, require_eq_ok, getBatch_eq_ok, pure_eq_ok,
    Prod.mk.injEq, true_and] at h
  obtain ⟨b, hb, hstatus, rfl⟩ := h
  exact ⟨b, hb, hstatus, rfl⟩

lemma finalize_ok {u : Unit} (h : finalize i db = .ok (u, db')) :
    ∃ b, db.batches.get? i = some b ∧ b.status = .sentToTap ∧
      db' = db.setBatch i { b with status := .finalized } := by
  simp only [finalize, bind_eq_ok, exists_unit, require_eq_ok, getBatch_eq_ok, pure_eq_ok,
    Prod.mk.injEq, true_and] at h
  obtain ⟨b, hb, hstatus, rfl⟩ := h
  exact ⟨b, hb, hstatus, rfl⟩

variable (service) in
/-- **Every transaction is orderly.** -/
lemma calls_orderly :
    (service.processCurrentTransferBatch : RskToTapProg Result Unit).Calls
      RskToTapOp.Orderly := by
  have htransaction {β : Type}
      {body : ℕ → RskToTapDb Result → PyResult (β × RskToTapDb Result)}
      (h : ∀ newId db b db', body newId db = .ok (b, db') → db.Orderly db') :
      (RskToTapProg.transaction body).Calls RskToTapOp.Orderly := Prog.calls_perform h
  unfold processCurrentTransferBatch
  refine Prog.calls_bind (htransaction ?_) ?_
  · intro newId db current db' h
    rcases getOrCreateCurrentBatch_ok h with ⟨rfl, -⟩ | ⟨chosen, hchosen, -, -, -, rfl⟩
    · exact .refl _
    · have hassign := @RskToTapDb.orderly_assign _ (db.setBatch newId ⟨.created, none⟩) chosen
        ⟨hchosen.unbatched, hchosen.smallest⟩ newId
      have hset : db.Orderly (db.setBatch newId ⟨.created, none⟩) := .of_transfers rfl
      exact hset.trans hassign
  · rintro (_ | ⟨batchId, batch⟩)
    · trivial
    · unfold processBatch
      refine Prog.calls_bind ?_ fun status => ?_
      · split_ifs
        · unfold send
          refine Prog.calls_bind (htransaction ?_) fun recipients => ?_
          · intro _ db _ db' h
            obtain ⟨b, -, -, -, rfl⟩ := startSending_ok h
            exact .of_transfers rfl
          refine Prog.calls_bind (htransaction ?_) fun _ => ?_
          · intro _ db _ db' h
            obtain rfl := checkSending_ok h
            exact .refl _
          refine Prog.calls_bind (Prog.calls_perform trivial) fun sendResult => ?_
          refine Prog.calls_bind (htransaction ?_) fun _ => trivial
          intro _ db _ db' h
          obtain ⟨b, -, -, rfl⟩ := finishSending_ok h
          exact .of_transfers rfl
        · trivial
      · split_ifs
        · trivial
        · refine htransaction ?_
          intro _ db _ db' h
          obtain ⟨b, -, -, rfl⟩ := finalize_ok h
          exact .of_transfers rfl
        · trivial

end RskToTapService

/-! ## The outbox -/

def RskToTapTransferBatchStatus.stage : RskToTapTransferBatchStatus → Stage
  | created => .ready
  | sendingToTap => .taken
  | sentToTap => .settled
  | finalized => .settled

@[simp] lemma RskToTapTransferBatchStatus.stage_eq_taken {s : RskToTapTransferBatchStatus} :
    s.stage = .taken ↔ s = .sendingToTap := by
  cases s <;> decide

namespace RskToTapDb

variable {db : RskToTapDb Result} {i j : ℕ}

def stage (db : RskToTapDb Result) (i : ℕ) : Stage :=
  ((db.batches.get? i).map fun b => b.status.stage).getD .new

lemma stage_of_get? {b : RskToTapTransferBatch Result} (h : db.batches.get? i = some b) :
    db.stage i = b.status.stage := by
  simp [stage, h]

lemma stage_setBatch (b : RskToTapTransferBatch Result) :
    (db.setBatch i b).stage j = if j = i then b.status.stage else db.stage j := by
  by_cases hj : j = i
  · simp [stage, setBatch, hj]
  · simp [stage, setBatch, hj]

/-- A batch that is not finalized. -/
def IsCurrent (db : RskToTapDb Result) (i : ℕ) : Prop :=
  ∃ b, db.batches.get? i = some b ∧ b.status ≠ .finalized

lemma mem_keys_setBatch {b : RskToTapTransferBatch Result} (h : j ∈ db.batches.keys) :
    j ∈ (db.setBatch i b).batches.keys := by
  rw [setBatch, Table.keys_set]
  split_ifs
  · exact h
  · exact List.mem_append_left _ h

/-- The members of other batches stay when a batch is formed. -/
lemma members_assign {chosen : List (ℕ × RskToTapTransfer)} (h : Chosen db chosen) (hj : j ≠ i) :
    (db.assign (chosen.map Prod.fst) i).members j = db.members j := by
  have hnone : ∀ p ∈ db.transfers.rows, p.1 ∈ chosen.map Prod.fst →
      p.2.transferBatchId = none := by
    intro p hp hmem
    simpa using (List.mem_filter.1 (h.unbatched p (h.mem hp hmem))).2
  refine Table.filter_mapRows (fun p hp => ?_) fun p hp hbatch => ?_
  · by_cases hmem : p.1 ∈ chosen.map Prod.fst
    · simp only [if_pos hmem, hnone p hp hmem]
      simp [Ne.symm hj]
    · simp only [if_neg hmem]
  · rw [if_neg]
    intro hmem
    rw [hnone p hp hmem] at hbatch
    exact absurd hbatch (by simp)

lemma members_setTransfer {dbId : ℕ} {t : RskToTapTransfer}
    (hnew : db.transfers.get? dbId = none) (hunbatched : t.transferBatchId = none) :
    (db.setTransfer dbId t).members j = db.members j := by
  rw [members, setTransfer, Table.rows_set_of_get?_eq_none t hnew, List.filter_append]
  simp [members, hunbatched]

/-- The counters of all transfers. -/
def counters (db : RskToTapDb Result) : List ℕ := db.transfers.rows.map fun p => p.2.counter

lemma counters_assign (dbIds : List ℕ) : (db.assign dbIds i).counters = db.counters := by
  simp only [counters, assign, Table.mapRows, List.map_map]
  refine List.map_congr_left fun p _ => ?_
  show (if p.1 ∈ dbIds then { p.2 with transferBatchId := some i } else p.2).counter = _
  split_ifs <;> rfl

end RskToTapDb

namespace RskToTapLeader

variable {s s' s'' : RskToTapLeader Result} {i : ℕ}

/-- The batches as what is sent. -/
def outbox : Outbox (RskToTapLeader Result) ℕ :=
  ⟨fun s => s.db.stage, fun s i => s.sent.countP fun call => call.batchId = i⟩

/-! ## The invariant -/

structure Sound (s : RskToTapLeader Result) : Prop where
  current : ∀ i j, s.db.IsCurrent i → s.db.IsCurrent j → i = j
  safe : outbox.Safe s
  assigned : ∀ i, s.db.members i ≠ [] → i ∈ s.db.batches.keys
  counters : s.db.counters.Nodup
  recipients : ∀ call ∈ s.sent, call.batchId ∈ s.db.batches.keys ∧
    call.recipients = (s.db.batchTransfers call.batchId).map RskToTapTransfer.recipientTapAddress

/-- What does not change while the leader does nothing. -/
structure Kept (s s' : RskToTapLeader Result) : Prop where
  batches : s'.db.batches = s.db.batches
  members : ∀ i, s'.db.members i = s.db.members i
  sent : s'.sent = s.sent

lemma Kept.refl (s : RskToTapLeader Result) : Kept s s := ⟨rfl, fun _ => rfl, rfl⟩

lemma Kept.trans (h : Kept s s') (h' : Kept s' s'') : Kept s s'' :=
  ⟨h'.batches.trans h.batches, fun i => (h'.members i).trans (h.members i), h'.sent.trans h.sent⟩

lemma Kept.batchTransfers (h : Kept s s') (i : ℕ) :
    s'.db.batchTransfers i = s.db.batchTransfers i := by
  rw [RskToTapDb.batchTransfers, h.members, RskToTapDb.batchTransfers]

lemma Kept.fresh (h : Kept s s') (hf : outbox.Fresh i s) : outbox.Fresh i s' where
  stage := by
    show s'.db.stage i = _
    rw [RskToTapDb.stage, h.batches]
    exact hf.stage
  submissions := by
    show s'.sent.countP _ = 0
    rw [h.sent]
    exact hf.submissions

lemma Moves.kept (h : Moves s s') : Kept s s' := by
  obtain ⟨hnew, hunbatched, -⟩ := h
  exact ⟨rfl, fun i => RskToTapDb.members_setTransfer hnew hunbatched, rfl⟩

/-- **A new transfer.** -/
lemma Moves.sound (h : Moves s s') (hs : Sound s) : Sound s' := by
  have hkept := h.kept
  obtain ⟨hnew, -, hunseen⟩ := h
  rename_i dbId t
  refine ⟨hs.current, hs.safe, fun i hi => ?_, ?_, fun call hcall => ?_⟩
  · rw [hkept.members] at hi
    exact hs.assigned i hi
  · show ((s.db.transfers.set dbId t).rows.map fun p => p.2.counter).Nodup
    rw [Table.rows_set_of_get?_eq_none t hnew, List.map_append, List.nodup_append]
    refine ⟨hs.counters, List.nodup_singleton _, fun c hc c' hc' heq => ?_⟩
    obtain ⟨p, hp, rfl⟩ := List.mem_map.1 hc
    exact hunseen p hp (heq.trans (List.mem_singleton.1 hc'))
  · rw [hkept.batchTransfers]
    exact hs.recipients call hcall

lemma waits_sound (hs : Sound s) (h : (world Result).Waits s s') : Sound s' ∧ Kept s s' := by
  induction h with
  | refl => exact ⟨hs, Kept.refl s⟩
  | tail _ hmove ih =>
      exact ⟨Moves.sound hmove ih.1, ih.2.trans (Moves.kept hmove)⟩

/-! ## Changes of a batch -/

/-- **The current batch gets another status.** -/
lemma sound_setBatch (hs : Sound s) {b b' : RskToTapTransferBatch Result}
    (hb : s.db.batches.get? i = some b) (hcurrent : b.status ≠ .finalized)
    (hstage : b.status.stage.Advances b'.status.stage ∨
      (outbox.submissions s i = 1 ∧ b'.status.stage = .settled)) :
    Sound { s with db := s.db.setBatch i b' } ∧
      outbox.Advances (fun j => j = i ∧ outbox.submissions s i = 1) s
        { s with db := s.db.setBatch i b' } := by
  have hadvances : outbox.Advances (fun j => j = i ∧ outbox.submissions s i = 1) s
      { s with db := s.db.setBatch i b' } := by
    refine ⟨fun _ => rfl, fun j => ?_⟩
    show (s.db.stage j).Advances ((s.db.setBatch i b').stage j) ∨
      (_ ∧ (s.db.setBatch i b').stage j = _)
    rw [RskToTapDb.stage_setBatch]
    by_cases hj : j = i
    · rw [if_pos hj, hj, RskToTapDb.stage_of_get? hb]
      exact hstage.imp_right fun h => ⟨⟨rfl, h.1⟩, h.2⟩
    · rw [if_neg hj]
      exact .inl (.refl _)
  have hold : ∀ j, (s.db.setBatch i b').IsCurrent j → s.db.IsCurrent j := by
    rintro j ⟨c, hc, hstatus⟩
    rw [RskToTapDb.setBatch, Table.get?_set] at hc
    by_cases hj : j = i
    · exact hj ▸ ⟨b, hb, hcurrent⟩
    · rw [if_neg hj] at hc
      exact ⟨c, hc, hstatus⟩
  refine ⟨⟨fun j k hj hk => hs.current j k (hold j hj) (hold k hk), ?_, fun j hj => ?_,
    hs.counters, fun call hcall => ?_⟩, hadvances⟩
  · refine hs.safe.advances hadvances ?_
    rintro j ⟨rfl, hone⟩
    exact hone
  · exact RskToTapDb.mem_keys_setBatch (hs.assigned j hj)
  · obtain ⟨hmem, hrecipients⟩ := hs.recipients call hcall
    exact ⟨RskToTapDb.mem_keys_setBatch hmem, hrecipients⟩

/-- **A batch is formed** when no other one is current. -/
lemma sound_newBatch (hs : Sound s) {chosen : List (ℕ × RskToTapTransfer)}
    (hchosen : RskToTapDb.Chosen s.db chosen) (hnew : i ∉ s.db.batches.keys)
    (hfinalized : ∀ j b, s.db.batches.get? j = some b → b.status = .finalized) :
    Sound { s with
      db := (s.db.setBatch i ⟨.created, none⟩).assign (chosen.map Prod.fst) i } := by
  have hmembers : ∀ j, j ≠ i →
      ((s.db.setBatch i ⟨.created, none⟩).assign (chosen.map Prod.fst) i).members j =
        s.db.members j :=
    fun j hj => @RskToTapDb.members_assign _ (s.db.setBatch i ⟨.created, none⟩) i j chosen
      ⟨hchosen.unbatched, hchosen.smallest⟩ hj
  have hnone : s.db.batches.get? i = none := by
    by_contra hsome
    exact hnew (Table.mem_keys.2 (Option.ne_none_iff_exists'.1 hsome))
  have honly : ∀ j, (s.db.setBatch i ⟨.created, none⟩).IsCurrent j → j = i := by
    rintro j ⟨b, hb, hstatus⟩
    rw [RskToTapDb.setBatch, Table.get?_set] at hb
    by_contra hj
    rw [if_neg hj] at hb
    exact hstatus (hfinalized j b hb)
  refine ⟨fun j k hj hk => (honly j hj).trans (honly k hk).symm, ?_, fun j hj => ?_, ?_, ?_⟩
  · have hnobody : ∀ k : ℕ, False → outbox.submissions s k = 1 := fun _ h => h.elim
    refine hs.safe.advances ⟨fun _ => rfl, fun j => .inl ?_⟩ hnobody
    show (s.db.stage j).Advances ((s.db.setBatch i ⟨.created, none⟩).stage j)
    rw [RskToTapDb.stage_setBatch]
    by_cases hj : j = i
    · rw [if_pos hj, hj, RskToTapDb.stage, hnone]
      exact Stage.new_advances_ready
    · rw [if_neg hj]
      exact .refl _
  · show j ∈ (s.db.batches.set i _).keys
    rw [Table.keys_set, if_neg hnew]
    by_cases hji : j = i
    · simp [hji]
    · exact List.mem_append_left _ (hs.assigned j (hmembers j hji ▸ hj))
  · rw [RskToTapDb.counters_assign]
    exact hs.counters
  · intro call hcall
    obtain ⟨hmem, hrecipients⟩ := hs.recipients call hcall
    have hne : call.batchId ≠ i := fun heq => hnew (heq ▸ hmem)
    refine ⟨RskToTapDb.mem_keys_setBatch hmem, ?_⟩
    rw [RskToTapDb.batchTransfers, hmembers _ hne]
    exact hrecipients

/-- **Sending** for a batch that was taken and not sent. -/
lemma sound_sendAssets (hs : Sound s) (hfresh : outbox.Fresh i s) {recipients : List String}
    (hrecipients : recipients =
      (s.db.batchTransfers i).map RskToTapTransfer.recipientTapAddress) :
    Sound { s with sent := s.sent ++ [⟨i, recipients⟩] } ∧
      outbox.submissions { s with sent := s.sent ++ [⟨i, recipients⟩] } i = 1 := by
  have hsubmits : outbox.Submits i s { s with sent := s.sent ++ [⟨i, recipients⟩] } := by
    refine ⟨fun _ => rfl, ?_, fun k hk => ?_⟩
    · show (s.sent ++ [_]).countP _ = s.sent.countP _ + 1
      simp
    · show (s.sent ++ [_]).countP _ = s.sent.countP _
      simp [Ne.symm hk]
  obtain ⟨hsafe, hone⟩ := hs.safe.submits hfresh hsubmits
  refine ⟨⟨hs.current, hsafe, hs.assigned, hs.counters, fun call hcall => ?_⟩, hone⟩
  rcases List.mem_append.1 hcall with hcall | hcall
  · exact hs.recipients call hcall
  · rw [List.mem_singleton.1 hcall]
    refine ⟨Table.mem_keys.2 ?_, hrecipients⟩
    have hstage : s.db.stage i = .taken := hfresh.stage
    rw [RskToTapDb.stage] at hstage
    cases hb : s.db.batches.get? i with
    | none =>
        rw [hb] at hstage
        cases hstage
    | some b => exact ⟨b, rfl⟩

/-! ## The program -/

/-- What the program keeps, and what is true if it returns. -/
abbrev Keeps {α : Type} (p : RskToTapProg Result α) (Q : α → RskToTapLeader Result → Prop)
    (s : RskToTapLeader Result) : Prop :=
  Ensures (world Result) Sound p Q s

lemma keeps_transaction {α : Type}
    {body : ℕ → RskToTapDb Result → PyResult (α × RskToTapDb Result)}
    {Q : α → RskToTapLeader Result → Prop} (hs : Sound s)
    (h : ∀ s₁ newId a db, Sound s₁ → Kept s s₁ → body newId s₁.db = .ok (a, db) →
      Sound { s₁ with db := db } ∧ Q a { s₁ with db := db }) :
    Keeps (RskToTapProg.transaction body) (fun a s' => Sound s' ∧ Q a s') s := by
  apply ensures_perform
  intro s₁ hwait r s₂ hdoes
  obtain ⟨hs₁, hkept⟩ := waits_sound hs hwait
  cases hdoes with
  | committed hbody =>
      obtain ⟨hi, hq⟩ := h _ _ _ _ hs₁ hkept hbody
      refine ⟨hi, ?_⟩
      rintro a ⟨⟩
      exact ⟨hi, hq⟩
  | commitRaised hbody e =>
      obtain ⟨hi, -⟩ := h _ _ _ _ hs₁ hkept hbody
      refine ⟨hi, ?_⟩
      rintro a ⟨⟩
  | rolledBack _ e =>
      refine ⟨hs₁, ?_⟩
      rintro a ⟨⟩

/-- The batch is taken and not sent, and these are its recipients. -/
def ReadyToSend (i : ℕ) (recipients : List String) (s : RskToTapLeader Result) : Prop :=
  outbox.Fresh i s ∧
    recipients = (s.db.batchTransfers i).map RskToTapTransfer.recipientTapAddress

lemma Kept.readyToSend (h : Kept s s') {recipients : List String}
    (hready : ReadyToSend i recipients s) : ReadyToSend i recipients s' := by
  refine ⟨h.fresh hready.1, ?_⟩
  rw [h.batchTransfers]
  exact hready.2

lemma keeps_startSending (hs : Sound s) :
    Keeps (RskToTapProg.transaction fun _ db => RskToTapService.startSending i db)
      (fun recipients s' => Sound s' ∧ ReadyToSend i recipients s') s := by
  apply keeps_transaction hs
  intro s₁ newId recipients db hs₁ _ hstart
  obtain ⟨b, hb, hstatus, rfl, rfl⟩ := RskToTapService.startSending_ok hstart
  have hready : s₁.db.stage i = .ready := by
    rw [RskToTapDb.stage_of_get? hb, hstatus]
    rfl
  obtain ⟨hsound, hadvances⟩ := @sound_setBatch _ _ i hs₁ b { b with status := .sendingToTap } hb
    (by simp [hstatus]) (.inl (by
      rw [hstatus]
      exact Stage.ready_advances_taken))
  have htaken : (s₁.db.setBatch i { b with status := .sendingToTap }).stage i = .taken := by
    rw [RskToTapDb.stage_setBatch, if_pos rfl]
    rfl
  exact ⟨hsound, hs₁.safe.fresh hadvances hready htaken, rfl⟩

lemma keeps_sendAssets (hs : Sound s) {recipients : List String}
    (hready : ReadyToSend i recipients s) :
    Keeps (RskToTapProg.sendAssets i recipients)
      (fun _ s' => Sound s' ∧ outbox.submissions s' i = 1) s := by
  apply ensures_perform
  intro s₁ hwait r s₂ hdoes
  obtain ⟨hs₁, hkept⟩ := waits_sound hs hwait
  cases hdoes with
  | called =>
      obtain ⟨hfresh, hrecipients⟩ := hkept.readyToSend hready
      obtain ⟨hsound, hone⟩ := sound_sendAssets hs₁ hfresh hrecipients
      exact ⟨hsound, fun _ _ => ⟨hsound, hone⟩⟩

/-- **From a new batch to one that is sent.** -/
lemma keeps_send (hs : Sound s) :
    Keeps (RskToTapService.send i) (fun _ s' => Sound s') s := by
  rw [RskToTapService.send]
  apply Ensures.bind (keeps_startSending hs)
  rintro recipients s₁ ⟨hs₁, hready⟩
  apply Ensures.bind (R := fun _ s' => Sound s' ∧ ReadyToSend i recipients s')
  · apply keeps_transaction hs₁
    intro s₂ _ _ db hs₂ hkept hcheck
    obtain rfl := RskToTapService.checkSending_ok hcheck
    exact ⟨hs₂, hkept.readyToSend hready⟩
  rintro _ s₂ ⟨hs₂, hready₂⟩
  apply Ensures.bind (keeps_sendAssets hs₂ hready₂)
  rintro sendResult s₃ ⟨hs₃, hone⟩
  apply Ensures.bind (R := fun _ s' => Sound s' ∧ True)
  · apply keeps_transaction hs₃
    intro s₄ _ _ db hs₄ hkept hfinish
    obtain ⟨b, hb, hstatus, rfl⟩ := RskToTapService.finishSending_ok hfinish
    have hsubmitted : outbox.submissions s₄ i = 1 := by
      show s₄.sent.countP _ = 1
      rw [hkept.sent]
      exact hone
    have hsettled : (RskToTapTransferBatch.mk RskToTapTransferBatchStatus.sentToTap
      (some sendResult)).status.stage = .settled := rfl
    exact ⟨(sound_setBatch hs₄ hb (by simp [hstatus]) (.inr ⟨hsubmitted, hsettled⟩)).1, trivial⟩
  · rintro _ s₄ ⟨hs₄, _⟩
    exact ensures_pure.2 hs₄

lemma keeps_processBatch {status : RskToTapTransferBatchStatus} (hs : Sound s) :
    Keeps (RskToTapService.processBatch i status) (fun _ _ => True) s := by
  rw [RskToTapService.processBatch]
  apply Ensures.bind (R := fun _ s' => Sound s')
  · split_ifs
    · exact keeps_send hs
    · exact ensures_pure.2 hs
  intro status s₁ hs₁
  split_ifs
  · exact ensures_throw
  · refine (keeps_transaction (Q := fun _ _ => True) hs₁ ?_).mono fun _ _ _ => trivial
    intro s₂ _ _ db hs₂ _ hfinalize
    obtain ⟨b, hb, hstatus, rfl⟩ := RskToTapService.finalize_ok hfinalize
    refine ⟨(sound_setBatch hs₂ hb (by simp [hstatus]) (.inl ?_)).1, trivial⟩
    rw [hstatus]
    exact .inl rfl
  · exact ensures_pure.2 trivial

lemma keeps_processCurrentTransferBatch {service : RskToTapService} (hs : Sound s) :
    Keeps service.processCurrentTransferBatch (fun _ _ => True) s := by
  rw [RskToTapService.processCurrentTransferBatch]
  apply Ensures.bind (R := fun _ s' => Sound s' ∧ True)
  · apply keeps_transaction hs
    intro s₁ newId current db hs₁ _ hcurrent
    rcases RskToTapService.getOrCreateCurrentBatch_ok hcurrent with
      ⟨rfl, -⟩ | ⟨chosen, hchosen, hnew, hfinalized, -, rfl⟩
    · exact ⟨hs₁, trivial⟩
    · exact ⟨sound_newBatch hs₁ hchosen hnew hfinalized, trivial⟩
  rintro current s₁ ⟨hs₁, _⟩
  cases current with
  | none => exact ensures_pure.2 trivial
  | some current => exact keeps_processBatch hs₁

/-! ## Runs -/

variable {service : RskToTapService} {c c' : Process (RskToTapOp Result) RskToTapOp.Resp PyError
  (RskToTapLeader Result)}

lemma sound_of_running (h : Running (world Result) service.processCurrentTransferBatch Started c) :
    Sound c.world := by
  refine h.invariant (I := Sound) (fun s hstarted => ?_)
    (fun s s' hs hmove => Moves.sound hmove hs) fun s hs => ?_
  · obtain ⟨hdb, hsent⟩ := hstarted
    refine ⟨?_, fun i => ?_, fun i hi => ?_, ?_, ?_⟩
    · rintro i j ⟨b, hb, -⟩
      rw [hdb] at hb
      cases hb
    · show (s.db.stage i).Allows (s.sent.countP _)
      rw [hdb, hsent]
      rfl
    · rw [hdb] at hi
      exact absurd rfl hi
    · rw [hdb]
      exact List.nodup_nil
    · rw [hsent]
      exact fun call hcall => absurd hcall List.not_mem_nil
  · exact Holds.mono (keeps_processCurrentTransferBatch hs) fun _ _ _ => trivial

/-- Every step of a run is orderly. -/
lemma orderly_step (h : Running (world Result) service.processCurrentTransferBatch Started c)
    (hs : c.Step (world Result) service.processCurrentTransferBatch c') :
    c.world.db.Orderly c'.world.db := by
  have hcalls := Running.calls (RskToTapService.calls_orderly service) h
  cases hs with
  | @call s s' o next r does =>
      have ho := (hcalls _ rfl).1
      cases does with
      | committed hbody => exact ho _ _ _ _ hbody
      | commitRaised hbody e => exact ho _ _ _ _ hbody
      | rolledBack _ e => exact .refl _
      | called => exact .refl _
  | move moves =>
      obtain ⟨hnew, -, -⟩ := moves
      exact RskToTapDb.orderly_setTransfer hnew
  | _ => exact .refl _

/-- What later states look like. -/
lemma orderly_steps (h : Running (world Result) service.processCurrentTransferBatch Started c)
    (hs : Relation.ReflTransGen
      (Process.Step (world Result) service.processCurrentTransferBatch) c c') :
    c.world.db.Orderly c'.world.db := by
  have hboth : Running (world Result) service.processCurrentTransferBatch Started c' ∧
      c.world.db.Orderly c'.world.db := by
    induction hs with
    | refl => exact ⟨h, .refl _⟩
    | tail _ hstep ih => exact ⟨.step ih.1 hstep, ih.2.trans (orderly_step ih.1 hstep)⟩
  exact hboth.2

/-- Assets are sent for a batch of which it is committed that it is sent. -/
lemma sendingToTap_of_step
    (h : Running (world Result) service.processCurrentTransferBatch Started c)
    (hs : c.Step (world Result) service.processCurrentTransferBatch c') {call : SentAssets}
    (hsent : c'.world.sent = c.world.sent ++ [call]) :
    ∃ b, c.world.db.batches.get? call.batchId = some b ∧ b.status = .sendingToTap := by
  have hbefore := sound_of_running h
  have hafter := sound_of_running (h.step hs)
  have hgrows : ∀ calls : List SentAssets, calls ≠ calls ++ [call] := by
    intro calls heq
    simpa using congrArg List.length heq
  have hstage : c.world.db.stage call.batchId = .taken := by
    cases hs with
    | @call s s' o next r does =>
        cases does with
        | called i recipients r =>
            obtain rfl := List.singleton_inj.1 (List.append_cancel_left hsent)
            refine hbefore.safe.stage_of_submits hafter.safe ⟨fun _ => rfl, ?_, fun k hk => ?_⟩
            · show (s.sent ++ [_]).countP _ = s.sent.countP _ + 1
              simp
            · show (s.sent ++ [_]).countP _ = s.sent.countP _
              simp [Ne.symm hk]
        | _ => exact absurd hsent (hgrows _)
    | move moves =>
        obtain ⟨-, -, -⟩ := moves
        exact absurd hsent (hgrows _)
    | _ => exact absurd hsent (hgrows _)
  cases hb : c.world.db.batches.get? call.batchId with
  | none =>
      rw [RskToTapDb.stage, hb] at hstage
      cases hstage
  | some b =>
      rw [RskToTapDb.stage_of_get? hb] at hstage
      exact ⟨b, rfl, RskToTapTransferBatchStatus.stage_eq_taken.1 hstage⟩

end RskToTapLeader

/-- What is sent to tap: one batch at a time, each once, to its recipients in the order of their
counters. -/
structure SentToTapOnce (s : RskToTapLeader Result) : Prop where
  current : ∀ i j, s.db.IsCurrent i → s.db.IsCurrent j → i = j
  once : ∀ i, (s.sent.countP fun call => call.batchId = i) ≤ 1
  recipients : ∀ call ∈ s.sent, ∃ transfers : List RskToTapTransfer,
    transfers.Perm ((s.db.members call.batchId).map Prod.snd) ∧
      transfers.Pairwise (fun t t' => t.counter < t'.counter) ∧
      call.recipients = transfers.map RskToTapTransfer.recipientTapAddress

namespace RskToTapLeader

variable {s : RskToTapLeader Result}

/-- The transfers of a batch come in the order of their counters. -/
lemma Sound.batchTransfers_sorted (hs : Sound s) (i : ℕ) :
    (s.db.batchTransfers i).Pairwise fun t t' => t.counter < t'.counter := by
  have hcounters : ((s.db.batchTransfers i).map RskToTapTransfer.counter).Nodup := by
    rw [RskToTapDb.batchTransfers, List.map_map]
    refine ((RskToTapDb.byCounter_perm _).map _).nodup_iff.2 ?_
    exact hs.counters.sublist (List.filter_sublist.map _)
  have hsorted : (s.db.batchTransfers i).Pairwise fun t t' => t.counter ≤ t'.counter :=
    List.pairwise_map.2 (RskToTapDb.byCounter_sorted _)
  refine (hsorted.and (List.pairwise_map.1 hcounters)).imp ?_
  rintro t t' ⟨hle, hne⟩
  exact Nat.lt_of_le_of_ne hle hne

lemma Sound.sentToTapOnce (hs : Sound s) : SentToTapOnce s where
  current := hs.current
  once i := (hs.safe i).le_one
  recipients call hcall := ⟨s.db.batchTransfers call.batchId,
    (RskToTapDb.byCounter_perm _).map _, hs.batchTransfers_sorted _,
    (hs.recipients call hcall).2⟩

end RskToTapLeader

/-- **Transfers to tap are sent at most once, and in order**, in every run with crashes.  A transfer
stays in its batch, and of two transfers that are there the one with the larger counter is not put
into a batch before the other; assets are sent for a batch once, to exactly its transfers in the
order of their counters, after it was committed that they are. -/
theorem rskToTap_sent_once_in_order {service : RskToTapService}
    {c : Process (RskToTapOp Result) RskToTapOp.Resp PyError (RskToTapLeader Result)}
    (h : Running (RskToTapLeader.world Result) service.processCurrentTransferBatch
      RskToTapLeader.Started c) :
    SentToTapOnce c.world ∧
    (∀ c', Relation.ReflTransGen (Process.Step (RskToTapLeader.world Result)
      service.processCurrentTransferBatch) c c' → c.world.db.Orderly c'.world.db) ∧
    ∀ c', c.Step (RskToTapLeader.world Result) service.processCurrentTransferBatch c' →
      ∀ call, c'.world.sent = c.world.sent ++ [call] →
        ∃ b, c.world.db.batches.get? call.batchId = some b ∧ b.status = .sendingToTap :=
  ⟨(RskToTapLeader.sound_of_running h).sentToTapOnce,
    fun _ hs => RskToTapLeader.orderly_steps h hs,
    fun _ hs _ hsent => RskToTapLeader.sendingToTap_of_step h hs hsent⟩

/-! ## Examples -/

namespace ExampleRskToTap

/-- Every call succeeds, and the first row added gets the number one. -/
def respond (_ : Unit) (s : RskToTapLeader Unit) :
    (o : RskToTapOp Unit) → PyResult o.Resp × RskToTapLeader Unit
  | .transaction body =>
      match body 1 s.db with
      | .ok (b, db) => (.ok b, { s with db := db })
      | .error e => (.error e, s)
  | .sendAssets batchId recipients =>
      (.ok (), { s with sent := s.sent ++ [⟨batchId, recipients⟩] })

lemma does_respond (m : Unit) (s : RskToTapLeader Unit) (o : RskToTapOp Unit) :
    RskToTapLeader.Does s o (respond m s o).1 (respond m s o).2 := by
  cases o with
  | transaction body =>
      rw [respond]
      cases hbody : body 1 s.db with
      | ok result => exact .committed hbody
      | error e => exact .rolledBack s body e
  | sendAssets batchId recipients => exact .called s batchId recipients _

def service : RskToTapService := ⟨10⟩

def start : RskToTapLeader Unit := ⟨.empty, []⟩

/-- The scan sees the later of two transfers. -/
def seen : RskToTapLeader Unit := { start with db := start.db.setTransfer 1 ⟨1, "tap1", none⟩ }

/-- And the earlier one. -/
def seenBoth : RskToTapLeader Unit := { seen with db := seen.db.setTransfer 2 ⟨0, "tap0", none⟩ }

/-- After one iteration. -/
def processed : RskToTapLeader Unit :=
  (service.processCurrentTransferBatch.eval respond (fun _ => ()) seenBoth).2

lemma running_processed : Running (RskToTapLeader.world Unit) service.processCurrentTransferBatch
    RskToTapLeader.Started ⟨processed, none⟩ := by
  have hstart : Running (RskToTapLeader.world Unit) service.processCurrentTransferBatch
      RskToTapLeader.Started ⟨start, none⟩ := .init ⟨rfl, rfl⟩
  have hseen : RskToTapLeader.Moves start seen := .seen rfl rfl (by decide +kernel)
  have hboth : RskToTapLeader.Moves seen seenBoth := .seen rfl rfl (by decide +kernel)
  have hrunning := ((hstart.step (.move hseen none)).step (.move hboth none)).step (.start _)
  exact hrunning.evalOf does_respond

end ExampleRskToTap

theorem rskToTap_sent_once_in_order_example :
    SentToTapOnce ExampleRskToTap.processed ∧
      ExampleRskToTap.processed.sent = [⟨1, ["tap0", "tap1"]⟩] :=
  ⟨(rskToTap_sent_once_in_order ExampleRskToTap.running_processed).1, by decide +kernel⟩

end NbteBridge
