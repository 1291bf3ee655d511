import NbteBridge.Foundations.Lists
import NbteBridge.TapRsk.RskToTapOrder

/-!
# Transfers to tap are a queue

Where the scan adds transfers in the order of their counters, the rows are a queue: first those of
the batches, batch after batch, then those of none (`Queued`).  A batch is formed at the front of
what is in none, when all earlier batches are finalized, so the batches are sent in the order they
were formed (`sent_isPrefix_step`).  What has been sent is then the beginning of the rows, and all
of them once every batch is finalized and no row is left over (`recipients_isPrefix`).
-/

namespace NbteBridge

open Checked Effects Outboxes Tables

variable {Result : Type}

/-! ## The queue -/

namespace RskToTapDb

variable {db db' : RskToTapDb Result} {i : ℕ}

/-- What is sent for a row. -/
def content (p : ℕ × RskToTapTransfer) : ℕ × String := (p.2.counter, p.2.recipientTapAddress)

/-- The rows come in the order of their counters, and of their batches, those of none last; all
batches but the last are finalized. -/
structure Queued (db : RskToTapDb Result) : Prop where
  sorted : db.transfers.rows.Pairwise fun p q => p.2.counter < q.2.counter
  rows : db.transfers.rows = db.batches.keys.flatMap db.members ++ db.unbatched
  finalized : ∀ i ∈ db.batches.keys.dropLast,
    ∃ b, db.batches.get? i = some b ∧ b.status = .finalized

lemma queued_empty : (empty : RskToTapDb Result).Queued where
  sorted := .nil
  rows := rfl
  finalized _ hi := absurd hi List.not_mem_nil

/-- A row without a batch that there is. -/
lemma Queued.members_eq_nil (h : db.Queued) (hi : i ∉ db.batches.keys) : db.members i = [] := by
  refine List.eq_nil_iff_forall_not_mem.2 fun p hp => ?_
  obtain ⟨hrow, hbatch⟩ := List.mem_filter.1 hp
  rw [decide_eq_true_eq] at hbatch
  rw [h.rows, List.mem_append, List.mem_flatMap] at hrow
  rcases hrow with ⟨j, hj, hmem⟩ | hmem
  · have hother := of_decide_eq_true (List.mem_filter.1 hmem).2
    rw [hbatch, Option.some.injEq] at hother
    exact hi (hother ▸ hj)
  · have hnone := of_decide_eq_true (List.mem_filter.1 hmem).2
    rw [hbatch] at hnone
    cases hnone

/-! ### Transactions -/

/-- What a transaction of the service does. -/
inductive BatchChange : RskToTapDb Result → RskToTapDb Result → Prop
  | kept (db : RskToTapDb Result) : BatchChange db db
  /-- The current batch gets another status. -/
  | updated {db : RskToTapDb Result} {i : ℕ} {b b' : RskToTapTransferBatch Result}
      (hb : db.batches.get? i = some b) (hcurrent : b.status ≠ .finalized) :
      BatchChange db (db.setBatch i b')
  | formed {db : RskToTapDb Result} {i : ℕ} {b : RskToTapTransferBatch Result}
      {chosen : List (ℕ × RskToTapTransfer)} (hchosen : Chosen db chosen)
      (hnew : i ∉ db.batches.keys)
      (hfinalized : ∀ j b, db.batches.get? j = some b → b.status = .finalized) :
      BatchChange db ((db.setBatch i b).assign (chosen.map Prod.fst) i)

/-- The rows and the batches stay, and new ones come last. -/
structure Extends (db db' : RskToTapDb Result) : Prop where
  keys : db.batches.keys.IsPrefix db'.batches.keys
  members : ∀ i ∈ db.batches.keys, db'.members i = db.members i
  contents : db'.transfers.rows.map content = db.transfers.rows.map content

lemma Extends.refl (db : RskToTapDb Result) : Extends db db :=
  ⟨List.prefix_rfl, fun _ _ => rfl, rfl⟩

lemma keys_setBatch_of_get? {b b' : RskToTapTransferBatch Result}
    (hb : db.batches.get? i = some b) : (db.setBatch i b').batches.keys = db.batches.keys := by
  rw [setBatch, Table.keys_set, if_pos (Table.mem_keys.2 ⟨b, hb⟩)]

lemma Queued.updated {b b' : RskToTapTransferBatch Result} (h : db.Queued)
    (hb : db.batches.get? i = some b) (hcurrent : b.status ≠ .finalized) :
    (db.setBatch i b').Queued ∧ db.Extends (db.setBatch i b') := by
  have hkeys := @keys_setBatch_of_get? _ db i b b' hb
  refine ⟨⟨h.sorted, ?_, fun j hj => ?_⟩, ⟨?_, fun _ _ => rfl, rfl⟩⟩
  · rw [hkeys]
    exact h.rows
  · rw [hkeys] at hj
    obtain ⟨b₀, hb₀, hstatus⟩ := h.finalized j hj
    have hne : j ≠ i := by
      rintro rfl
      rw [hb, Option.some.injEq] at hb₀
      exact hcurrent (hb₀ ▸ hstatus)
    refine ⟨b₀, ?_, hstatus⟩
    rw [setBatch, Table.get?_set, if_neg hne, hb₀]
  · rw [hkeys]

/-! ### Forming a batch -/

/-- What becomes of a row when these rows are put into a batch. -/
def assigned (dbIds : List ℕ) (i : ℕ) (p : ℕ × RskToTapTransfer) : ℕ × RskToTapTransfer :=
  (p.1, if p.1 ∈ dbIds then { p.2 with transferBatchId := some i } else p.2)

lemma content_assigned (dbIds : List ℕ) (i : ℕ) (p : ℕ × RskToTapTransfer) :
    content (assigned dbIds i p) = content p := by
  rw [content, content, assigned]
  split_ifs <;> rfl

lemma assigned_of_notMem {dbIds : List ℕ} {p : ℕ × RskToTapTransfer} (h : p.1 ∉ dbIds) :
    assigned dbIds i p = p := by
  rw [assigned, if_neg h]

lemma rows_assign (dbIds : List ℕ) :
    (db.assign dbIds i).transfers.rows = db.transfers.rows.map (assigned dbIds i) := rfl

variable {chosen : List (ℕ × RskToTapTransfer)}

/-- A batch is formed at the front of what is in none. -/
lemma Queued.unbatched_eq (h : db.Queued) (hchosen : Chosen db chosen) :
    db.unbatched.filter (fun p => p.1 ∈ chosen.map Prod.fst) ++
      (db.unbatched.filter fun p => !decide (p.1 ∈ chosen.map Prod.fst)) = db.unbatched := by
  apply Lists.filter_append_filter_not
  have hsorted : db.unbatched.Pairwise fun p q => p.2.counter < q.2.counter :=
    h.sorted.filter _
  refine hsorted.imp_of_mem fun {p q} hp hq hlt hmem => ?_
  rw [decide_eq_true_eq] at hmem ⊢
  have hq' := hchosen.mem (List.mem_filter.1 hq).1 hmem
  exact List.mem_map_of_mem (hchosen.smallest p hp q hq' hlt)

/-- The members of a new batch. -/
lemma members_formed {b : RskToTapTransferBatch Result} (hchosen : Chosen db chosen)
    (hnone : db.members i = []) :
    ((db.setBatch i b).assign (chosen.map Prod.fst) i).members i =
      (db.unbatched.filter fun p => p.1 ∈ chosen.map Prod.fst).map
        (assigned (chosen.map Prod.fst) i) := by
  rw [members, rows_assign, List.filter_map, unbatched, List.filter_filter]
  refine congrArg _ (List.filter_congr fun p hp => ?_)
  have hother : p.2.transferBatchId ≠ some i := by
    intro hbatch
    have hmem : p ∈ db.members i := List.mem_filter.2 ⟨hp, by simpa using hbatch⟩
    rw [hnone] at hmem
    exact absurd hmem List.not_mem_nil
  by_cases hmem : p.1 ∈ chosen.map Prod.fst
  · have hbatch := (List.mem_filter.1 (hchosen.unbatched p (hchosen.mem hp hmem))).2
    rw [Function.comp_apply, assigned, if_pos hmem, hbatch]
    simp [hmem]
  · rw [Function.comp_apply, assigned, if_neg hmem]
    simp [hmem, hother]

/-- What is left over. -/
lemma unbatched_formed {b : RskToTapTransferBatch Result} {dbIds : List ℕ} :
    ((db.setBatch i b).assign dbIds i).unbatched =
      (db.unbatched.filter fun p => !decide (p.1 ∈ dbIds)).map (assigned dbIds i) := by
  rw [unbatched, rows_assign, List.filter_map, unbatched, List.filter_filter]
  refine congrArg _ (List.filter_congr fun p _ => ?_)
  by_cases hmem : p.1 ∈ dbIds
  · rw [Function.comp_apply, assigned, if_pos hmem]
    simp [hmem]
  · rw [Function.comp_apply, assigned, if_neg hmem]
    simp [hmem]

lemma Queued.formed (h : db.Queued) (hchosen : Chosen db chosen) (hnew : i ∉ db.batches.keys)
    (hfinalized : ∀ j b, db.batches.get? j = some b → b.status = .finalized)
    (b : RskToTapTransferBatch Result) :
    ((db.setBatch i b).assign (chosen.map Prod.fst) i).Queued ∧
      db.Extends ((db.setBatch i b).assign (chosen.map Prod.fst) i) := by
  set dbIds := chosen.map Prod.fst with hdbIds
  set db' := (db.setBatch i b).assign dbIds i with hdb'
  have hkeys : db'.batches.keys = db.batches.keys ++ [i] := by
    rw [hdb', assign, setBatch, Table.keys_set, if_neg hnew]
  have hrows : db'.transfers.rows = db.transfers.rows.map (assigned dbIds i) := rfl
  have hmembers : ∀ j ∈ db.batches.keys, db'.members j = db.members j := by
    intro j hj
    exact @members_assign _ (db.setBatch i b) i j chosen
      ⟨hchosen.unbatched, hchosen.smallest⟩ fun heq => hnew (heq ▸ hj)
  -- rows that are in a batch are not among those chosen
  have hkept : ∀ j ∈ db.batches.keys, (db.members j).map (assigned dbIds i) = db.members j := by
    intro j _
    refine (List.map_congr_left fun p hp => ?_).trans (List.map_id _)
    refine assigned_of_notMem fun hmem => ?_
    obtain ⟨hrow, hbatch⟩ := List.mem_filter.1 hp
    have hnone := (List.mem_filter.1 (hchosen.unbatched p (hchosen.mem hrow hmem))).2
    rw [decide_eq_true_eq] at hbatch hnone
    rw [hbatch] at hnone
    cases hnone
  have hformed : db'.members i =
      (db.unbatched.filter fun p => p.1 ∈ dbIds).map (assigned dbIds i) :=
    members_formed hchosen (h.members_eq_nil hnew)
  have hrest : db'.unbatched = (db.unbatched.filter fun p => !decide (p.1 ∈ dbIds)).map
      (assigned dbIds i) := unbatched_formed
  refine ⟨⟨?_, ?_, fun j hj => ?_⟩, ⟨?_, hmembers, ?_⟩⟩
  · rw [hrows, List.pairwise_map]
    refine h.sorted.imp fun {p q} hlt => ?_
    have hp := congrArg Prod.fst (content_assigned dbIds i p)
    have hq := congrArg Prod.fst (content_assigned dbIds i q)
    exact (hp.trans_lt hlt).trans_eq hq.symm
  · rw [hrows, hkeys, List.flatMap_append, List.flatMap_singleton, hformed, hrest,
      List.append_assoc, ← List.map_append, h.unbatched_eq hchosen, h.rows]
    rw [List.map_append, List.map_flatMap]
    congr 1
    exact List.flatMap_congr fun j hj => (hkept j hj).trans (hmembers j hj).symm
  · rw [hkeys, List.dropLast_concat] at hj
    obtain ⟨b₀, hb₀⟩ := Table.mem_keys.1 hj
    have hne : j ≠ i := by
      rintro rfl
      exact hnew hj
    refine ⟨b₀, ?_, hfinalized j b₀ hb₀⟩
    rw [hdb', assign, setBatch, Table.get?_set, if_neg hne, hb₀]
  · rw [hkeys]
    exact List.prefix_append _ _
  · rw [hrows, List.map_map]
    exact List.map_congr_left fun p _ => content_assigned dbIds i p

/-- **A transaction** takes from the front of the queue. -/
lemma Queued.change (h : db.Queued) (hchange : BatchChange db db') :
    db'.Queued ∧ db.Extends db' := by
  cases hchange with
  | kept => exact ⟨h, .refl _⟩
  | updated hb hcurrent => exact h.updated hb hcurrent
  | formed hchosen hnew hfinalized => exact h.formed hchosen hnew hfinalized _

/-- **New rows** come last. -/
lemma Queued.append (h : db.Queued) (hbatches : db'.batches = db.batches)
    {new : List (ℕ × RskToTapTransfer)} (hrows : db'.transfers.rows = db.transfers.rows ++ new)
    (hunbatched : ∀ p ∈ new, p.2.transferBatchId = none)
    (hsorted : db'.transfers.rows.Pairwise fun p q => p.2.counter < q.2.counter) :
    db'.Queued where
  sorted := hsorted
  rows := by
    have hmembers : ∀ i, db'.members i = db.members i := by
      intro i
      have hnone : new.filter (fun p => p.2.transferBatchId = some i) = [] := by
        refine List.filter_eq_nil_iff.2 fun p hp => ?_
        simp [hunbatched p hp]
      rw [members, hrows, List.filter_append, hnone, List.append_nil, members]
    have hrest : db'.unbatched = db.unbatched ++ new := by
      have hall : new.filter (fun p => p.2.transferBatchId = none) = new := by
        refine List.filter_eq_self.2 fun p hp => ?_
        simp [hunbatched p hp]
      rw [unbatched, hrows, List.filter_append, hall, unbatched]
    rw [hrows, hbatches, hrest, ← List.append_assoc, h.rows]
    congr 2
    exact List.flatMap_congr fun i _ => (hmembers i).symm
  finalized i hi := by
    rw [hbatches] at hi ⊢
    exact h.finalized i hi

/-- In a queue the transfers of a batch are its rows, in their order. -/
lemma Queued.batchTransfers_eq (h : db.Queued) (i : ℕ) :
    db.batchTransfers i = (db.members i).map Prod.snd := by
  have hsorted : (db.members i).Pairwise fun p q => p.2.counter ≤ q.2.counter :=
    (h.sorted.filter _).imp fun hlt => hlt.le
  rw [batchTransfers, byCounter, hsorted.insertionSort_eq]

end RskToTapDb

/-! ### The transactions of the service -/

/-- What a transaction does to a queue. -/
def RskToTapOp.Changes : RskToTapOp Result → Prop
  | .transaction body =>
      ∀ newId db b db', body newId db = .ok (b, db') → RskToTapDb.BatchChange db db'
  | .sendAssets .. => True

namespace RskToTapService

open RskToTapDb

variable {service : RskToTapService} {i : ℕ}

lemma calls_transaction {β : Type} {body : ℕ → RskToTapDb Result → PyResult (β × RskToTapDb Result)}
    (h : ∀ newId db b db', body newId db = .ok (b, db') → BatchChange db db') :
    (RskToTapProg.transaction body).Calls RskToTapOp.Changes := Prog.calls_perform h

lemma send_changes (i : ℕ) : (send i : RskToTapProg Result _).Calls RskToTapOp.Changes := by
  unfold send
  refine Prog.calls_bind (calls_transaction ?_) fun recipients => ?_
  · intro _ db _ db' h
    obtain ⟨b, hb, hstatus, -, rfl⟩ := startSending_ok h
    exact .updated hb (by simp [hstatus])
  refine Prog.calls_bind (calls_transaction ?_) fun _ => ?_
  · intro _ db _ db' h
    obtain rfl := checkSending_ok h
    exact .kept _
  refine Prog.calls_bind (Prog.calls_perform trivial) fun sendResult => ?_
  refine Prog.calls_bind (calls_transaction ?_) fun _ => trivial
  intro _ db _ db' h
  obtain ⟨b, hb, hstatus, rfl⟩ := finishSending_ok h
  exact .updated hb (by simp [hstatus])

lemma processBatch_changes (i : ℕ) (status : RskToTapTransferBatchStatus) :
    (processBatch i status : RskToTapProg Result Unit).Calls RskToTapOp.Changes := by
  unfold processBatch
  refine Prog.calls_bind ?_ fun status => ?_
  · split_ifs
    · exact send_changes i
    · trivial
  · split_ifs
    · trivial
    · refine calls_transaction ?_
      intro _ db _ db' h
      obtain ⟨b, hb, hstatus, rfl⟩ := finalize_ok h
      exact .updated hb (by simp [hstatus])
    · trivial

variable (service) in
lemma processCurrentTransferBatch_changes :
    (service.processCurrentTransferBatch : RskToTapProg Result Unit).Calls
      RskToTapOp.Changes := by
  unfold processCurrentTransferBatch
  refine Prog.calls_bind (calls_transaction ?_) fun current => ?_
  · intro newId db current db' h
    rcases getOrCreateCurrentBatch_ok h with
      ⟨rfl, -⟩ | ⟨chosen, hchosen, hnew, hfinalized, -, rfl⟩
    · exact .kept _
    · exact .formed hchosen hnew hfinalized
  · cases current with
    | none => trivial
    | some current => exact processBatch_changes _ _

end RskToTapService

/-! ## What is sent -/

namespace RskToTapLeader

variable {service : RskToTapService} {s s' : RskToTapLeader Result}
  {c c' : Process (RskToTapOp Result) RskToTapOp.Resp PyError (RskToTapLeader Result)}

/-- Everyone assets were sent to, in the order they were. -/
def recipients (s : RskToTapLeader Result) : List String :=
  s.sent.flatMap SentAssets.recipients

/-- The batches that were sent are the first ones. -/
structure InTurn (s : RskToTapLeader Result) : Prop where
  queued : s.db.Queued
  sent : (s.sent.map SentAssets.batchId).IsPrefix s.db.batches.keys

lemma inTurn_of_started (h : Started s) : InTurn s := by
  obtain ⟨hdb, hsent⟩ := h
  refine ⟨hdb ▸ RskToTapDb.queued_empty, ?_⟩
  rw [hsent]
  exact List.nil_prefix

/-- A batch that was sent is one of those that were. -/
lemma submissions_eq_zero {i : ℕ} :
    outbox.submissions s i = 0 ↔ i ∉ s.sent.map SentAssets.batchId := by
  show s.sent.countP (fun call => call.batchId = i) = 0 ↔ _
  rw [List.countP_eq_zero, List.mem_map]
  constructor
  · rintro hnone ⟨call, hcall, rfl⟩
    exact hnone call hcall (by simp)
  · intro hnone call hcall hbatch
    exact hnone ⟨call, hcall, of_decide_eq_true hbatch⟩

lemma Sound.mem_sent_of_finalized (hs : Sound s) {i : ℕ} {b : RskToTapTransferBatch Result}
    (hb : s.db.batches.get? i = some b) (hstatus : b.status = .finalized) :
    i ∈ s.sent.map SentAssets.batchId := by
  by_contra hnot
  have hallows := hs.safe i
  rw [submissions_eq_zero.2 hnot] at hallows
  have hsettled : outbox.stage s i = .settled := by
    show s.db.stage i = _
    rw [RskToTapDb.stage_of_get? hb, hstatus]
    rfl
  rw [hsettled] at hallows
  exact absurd hallows Nat.zero_ne_one

/-- **The batch that is sent is the next one.** -/
lemma InTurn.next (h : InTurn s) (hs : Sound s) {i : ℕ} {b : RskToTapTransferBatch Result}
    (hb : s.db.batches.get? i = some b) (hcurrent : b.status ≠ .finalized)
    (hfresh : outbox.submissions s i = 0) :
    s.sent.map SentAssets.batchId ++ [i] = s.db.batches.keys := by
  have hkey : i ∈ s.db.batches.keys := Table.mem_keys.2 ⟨b, hb⟩
  have hsplit := List.dropLast_concat_getLast (List.ne_nil_of_mem hkey)
  -- the batch is not finalized, so it is the last one
  have hlast : s.db.batches.keys.dropLast ++ [i] = s.db.batches.keys := by
    rw [← hsplit, List.mem_append, List.mem_singleton] at hkey
    rcases hkey with hmem | heq
    · obtain ⟨b₀, hb₀, hstatus⟩ := h.queued.finalized i hmem
      rw [hb, Option.some.injEq] at hb₀
      exact absurd (hb₀ ▸ hstatus) hcurrent
    · rw [heq]
      exact hsplit
  have hearlier : (s.sent.map SentAssets.batchId).IsPrefix s.db.batches.keys.dropLast := by
    have hsent := h.sent
    rw [← hlast, List.prefix_concat_iff] at hsent
    rcases hsent with heq | hsent
    · have hmem : i ∈ s.sent.map SentAssets.batchId := by rw [heq]; simp
      exact absurd hmem (submissions_eq_zero.1 hfresh)
    · exact hsent
  -- the earlier ones are finalized, so they were sent
  have hall : s.sent.map SentAssets.batchId = s.db.batches.keys.dropLast := by
    refine Lists.eq_of_isPrefix_of_subset hearlier
      (s.db.batches.nodup.sublist (List.dropLast_sublist _)) fun k hk => ?_
    obtain ⟨b₀, hb₀, hstatus⟩ := h.queued.finalized k hk
    exact hs.mem_sent_of_finalized hb₀ hstatus
  rw [hall, hlast]

/-- **Every step of the process** takes the queue on. -/
lemma inTurn_of_step
    (h : Running (world Result) service.processCurrentTransferBatch Started c)
    (hs : c.Step (world Result).still service.processCurrentTransferBatch c')
    (hturn : InTurn c.world) : InTurn c'.world ∧ c.world.db.Extends c'.world.db := by
  have hcalls := Running.calls (RskToTapService.processCurrentTransferBatch_changes service) h
  have hbefore := sound_of_running h
  have hafter := sound_of_running (h.step hs.of_still)
  have hbody {β : Type} {body : ℕ → RskToTapDb Result → PyResult (β × RskToTapDb Result)}
      {s : RskToTapLeader Result} {newId : ℕ} {b : β} {db : RskToTapDb Result}
      (hturn : InTurn s) (ho : (RskToTapOp.transaction body).Changes)
      (hok : body newId s.db = .ok (b, db)) :
      InTurn { s with db := db } ∧ s.db.Extends db := by
    obtain ⟨hqueued, hextends⟩ := hturn.queued.change (ho _ _ _ _ hok)
    exact ⟨⟨hqueued, hturn.sent.trans hextends.keys⟩, hextends⟩
  have hstep := hs.of_still
  cases hs with
  | @call s s' o next r does =>
      have ho := (hcalls _ rfl).1
      cases does with
      | committed hok => exact hbody hturn ho hok
      | commitRaised hok e => exact hbody hturn ho hok
      | rolledBack _ e => exact ⟨hturn, .refl _⟩
      | called i recipients r =>
          obtain ⟨b, hb, hstatus⟩ := sendingToTap_of_step h hstep rfl
          have hfresh : outbox.submissions s i = 0 := by
            have hone := (hafter.safe i).le_one
            have hcount : outbox.submissions { s with sent := s.sent ++ [⟨i, recipients⟩] } i =
                outbox.submissions s i + 1 := by
              show (s.sent ++ [_]).countP _ = s.sent.countP _ + 1
              simp
            rw [hcount] at hone
            omega
          refine ⟨⟨hturn.queued, ?_⟩, .refl _⟩
          show ((s.sent ++ [_]).map SentAssets.batchId).IsPrefix s.db.batches.keys
          rw [List.map_append, List.map_singleton,
            hturn.next hbefore hb (by simp [hstatus]) hfresh]
  | move moves => exact absurd moves id
  | _ => exact ⟨hturn, .refl _⟩

/-- **New rows** are sent after all others. -/
lemma InTurn.waits (h : InTurn s) (hwait : (world Result).Waits s s')
    (hs : Sound s) {new : List (ℕ × RskToTapTransfer)}
    (hrows : s'.db.transfers.rows = s.db.transfers.rows ++ new)
    (hunbatched : ∀ p ∈ new, p.2.transferBatchId = none)
    (hsorted : s'.db.transfers.rows.Pairwise fun p q => p.2.counter < q.2.counter) :
    InTurn s' := by
  obtain ⟨-, hkept⟩ := waits_sound hs hwait
  refine ⟨h.queued.append hkept.batches hrows hunbatched hsorted, ?_⟩
  rw [hkept.sent, hkept.batches]
  exact h.sent

/-! ## Recipients -/

/-- The recipients are those of the first batches. -/
lemma InTurn.recipients_eq (h : InTurn s) (hs : Sound s) :
    s.recipients = ((s.sent.map SentAssets.batchId).flatMap s.db.members).map
      fun p => p.2.recipientTapAddress := by
  rw [recipients, List.map_flatMap, List.flatMap_map]
  refine List.flatMap_congr fun call hcall => ?_
  rw [(hs.recipients call hcall).2, h.queued.batchTransfers_eq, List.map_map]
  rfl

/-- **What was sent is the beginning of the rows.** -/
lemma InTurn.recipients_isPrefix (h : InTurn s) (hs : Sound s) :
    s.recipients.IsPrefix (s.db.transfers.rows.map fun p => p.2.recipientTapAddress) := by
  rw [h.recipients_eq hs, h.queued.rows]
  obtain ⟨rest, hkeys⟩ := h.sent
  rw [← hkeys, List.flatMap_append, List.append_assoc, List.map_append]
  exact List.prefix_append _ _

/-- **It is all of them** once every batch is finalized and no row is in none. -/
lemma InTurn.recipients_eq_rows (h : InTurn s) (hs : Sound s)
    (hfinalized : ∀ i b, s.db.batches.get? i = some b → b.status = .finalized)
    (hunbatched : s.db.unbatched = []) :
    s.recipients = s.db.transfers.rows.map fun p => p.2.recipientTapAddress := by
  have hall : s.sent.map SentAssets.batchId = s.db.batches.keys := by
    refine Lists.eq_of_isPrefix_of_subset h.sent s.db.batches.nodup fun k hk => ?_
    obtain ⟨b, hb⟩ := Table.mem_keys.1 hk
    exact hs.mem_sent_of_finalized hb (hfinalized k b hb)
  rw [h.recipients_eq hs, h.queued.rows, hall, hunbatched, List.append_nil]

end RskToTapLeader

end NbteBridge
