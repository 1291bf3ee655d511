import NbteBridge.Node.EventScan
import NbteBridge.TapRsk.RskToTapOrder

/-!
# RskEventScanner

How a node learns of transfers to tap.  It asks for the contract's `TransferToTap` events from the
block after the last one it has scanned up to a margin below the head, and adds a row for each, in
the order of the chain, all in one transaction with the number of the last block.

The chain has its events in an order, and grows at its head.  After any number of scans the rows are
the events up to the last block scanned, in that order (`scanNewEvents_recorded`).
-/

namespace NbteBridge

open Checked Effects Feeds Tables

/-! ## Events -/

/-- A `TransferToTap` event. -/
structure TransferToTapEvent where
  blockNumber : ℕ
  transactionIndex : ℕ
  logIndex : ℕ
  transactionHash : String
  counter : ℕ
  sender : String
  tapAddress : String
  deriving DecidableEq

namespace TransferToTapEvent

/-- The columns that are unique together. -/
def key (event : TransferToTapEvent) : String × ℕ × ℕ :=
  (event.transactionHash, event.transactionIndex, event.logIndex)

/-- The order of `(blockNumber, transactionIndex, logIndex)`. -/
def le (event event' : TransferToTapEvent) : Bool :=
  event.blockNumber < event'.blockNumber ∨
    (event.blockNumber = event'.blockNumber ∧
      (event.transactionIndex < event'.transactionIndex ∨
        (event.transactionIndex = event'.transactionIndex ∧ event.logIndex ≤ event'.logIndex)))

/-- What is sent to whom. -/
def content (event : TransferToTapEvent) : ℕ × String := (event.counter, event.tapAddress)

end TransferToTapEvent

/-- The Rootstock node as the scanner asks it. -/
structure RskRpc where
  blockNumber : PyResult ℤ
  /-- The events of a range of blocks. -/
  getLogs : ℤ → ℤ → PyResult (List TransferToTapEvent)

/-- `get_events`, with fuel for the number of batches. -/
def RskRpc.getEvents (rsk : RskRpc) (batchSize toBlock : ℤ) :
    ℕ → ℤ → PyResult (List TransferToTapEvent)
  | 0, _ => pure []
  | fuel + 1, batchFromBlock =>
      if batchFromBlock ≤ toBlock then do
        let batchToBlock := min (batchFromBlock + batchSize) toBlock
        let events ← rsk.getLogs batchFromBlock batchToBlock
        let ret ← rsk.getEvents batchSize toBlock fuel (batchToBlock + 1)
        pure (events ++ ret)
      else pure []

/-! ## The scan -/

/-- What a scan reads and writes: the transfers, the columns of each that hold its event, and the
last block scanned. -/
structure RskScanDb (Result : Type) where
  db : RskToTapDb Result
  events : Table ℕ TransferToTapEvent
  lastScannedBlock : Option ℤ

structure RskEventScanner where
  blockSafetyMargin : ℕ
  defaultStartBlock : ℤ

namespace RskEventScanner

variable {Result : Type} (scanner : RskEventScanner)

/-- Add the row of an event, with the number it is given. -/
def addTransfer (dbId : ℕ) (event : TransferToTapEvent) (s : RskScanDb Result) :
    PyResult (RskScanDb Result) := do
  require (s.db.transfers.get? dbId = none ∧ s.events.get? dbId = none) (.other "IntegrityError")
  require (∀ p ∈ s.db.transfers.rows, p.2.counter ≠ event.counter) (.other "IntegrityError")
  require (∀ p ∈ s.events.rows, p.2.key ≠ event.key) (.other "IntegrityError")
  pure { s with
    db := s.db.setTransfer dbId ⟨event.counter, event.tapAddress, none⟩
    events := s.events.set dbId event }

/-- `_scan_events_callback`. -/
def scanEventsCallback :
    List (ℕ × TransferToTapEvent) → RskScanDb Result → PyResult (RskScanDb Result)
  | [], s => pure s
  | (dbId, event) :: events, s => do
      let s ← addTransfer dbId event s
      scanEventsCallback events s

/-- The block events were scanned up to. -/
def cursor (s : RskScanDb Result) : ℤ := s.lastScannedBlock.getD scanner.defaultStartBlock

/-- `scan_new_events`; the `k`-th row that it adds gets the number `dbIds k`. -/
def scanNewEvents (rsk : RskRpc) (dbIds : ℕ → ℕ) (s : RskScanDb Result) :
    PyResult (RskScanDb Result) := do
  let currentBlock ← rsk.blockNumber
  let fromBlock := scanner.cursor s + 1
  let toBlock := currentBlock - scanner.blockSafetyMargin
  if toBlock < fromBlock then pure s
  else do
    let events ← rsk.getEvents 100 toBlock (toBlock + 1 - fromBlock).toNat fromBlock
    let events := events.mergeSort TransferToTapEvent.le
    let s ← scanEventsCallback (events.zipIdx.map fun e => (dbIds e.2, e.1)) s
    pure { s with lastScannedBlock := some toBlock }

end RskEventScanner

/-! ## The chain -/

namespace TransferToTapEvent

variable {e e' e'' : TransferToTapEvent}

lemma le_iff : e.le e' = true ↔ e.blockNumber < e'.blockNumber ∨
    (e.blockNumber = e'.blockNumber ∧ (e.transactionIndex < e'.transactionIndex ∨
      (e.transactionIndex = e'.transactionIndex ∧ e.logIndex ≤ e'.logIndex))) := by
  rw [TransferToTapEvent.le, decide_eq_true_iff]

lemma le_trans (h : e.le e' = true) (h' : e'.le e'' = true) : e.le e'' = true := by
  rw [le_iff] at h h' ⊢
  omega

lemma le_total (e e' : TransferToTapEvent) : (e.le e' || e'.le e) = true := by
  rw [Bool.or_eq_true, le_iff, le_iff]
  omega

/-- One event stands before the other. -/
def Before (e e' : TransferToTapEvent) : Prop := e.le e' = true ∧ e'.le e = false

lemma Before.block_le (h : Before e e') : e.blockNumber ≤ e'.blockNumber := by
  have hle := le_iff.1 h.1
  omega

end TransferToTapEvent

/-- The events of the blocks above one number, up to another. -/
def eventsBetween (chain : List TransferToTapEvent) (first last : ℤ) : List TransferToTapEvent :=
  chain.filter fun e => first < e.blockNumber ∧ (e.blockNumber : ℤ) ≤ last

lemma eventsBetween_of_le {chain : List TransferToTapEvent} {first last : ℤ} (h : last ≤ first) :
    eventsBetween chain first last = [] := by
  refine List.filter_eq_nil_iff.2 fun e _ => ?_
  simp only [decide_eq_true_eq]
  omega

/-- The chain has its events in order. -/
abbrev ChainInOrder (chain : List TransferToTapEvent) : Prop :=
  chain.Pairwise TransferToTapEvent.Before

/-- One part after the other. -/
lemma ChainInOrder.eventsBetween_append {chain : List TransferToTapEvent} (h : ChainInOrder chain)
    {a b c : ℤ} (hab : a ≤ b) (hbc : b ≤ c) :
    eventsBetween chain a c = eventsBetween chain a b ++ eventsBetween chain b c := by
  unfold eventsBetween
  induction chain with
  | nil => rfl
  | cons e chain ih =>
      obtain ⟨hbefore, hchain⟩ := List.pairwise_cons.1 h
      simp only [List.filter_cons]
      by_cases hb : (e.blockNumber : ℤ) ≤ b
      · -- the first event is in the first part, or in none
        rw [ih hchain]
        by_cases ha : a < e.blockNumber
        · simp [ha, hb, hb.trans hbc, not_lt.2 hb]
        · simp [ha, not_lt.2 hb]
      · -- nothing after it is in the first part
        have hnone : (e :: chain).filter (fun e => a < e.blockNumber ∧ (e.blockNumber : ℤ) ≤ b) =
            [] := by
          refine List.filter_eq_nil_iff.2 fun e' he' => ?_
          have hle : e.blockNumber ≤ e'.blockNumber := by
            rcases List.mem_cons.1 he' with rfl | he'
            · exact le_rfl
            · exact (hbefore e' he').block_le
          simp only [decide_eq_true_eq]
          omega
        rw [List.filter_cons] at hnone
        have hnone' : chain.filter (fun e => a < e.blockNumber ∧ (e.blockNumber : ℤ) ≤ b) = [] := by
          split_ifs at hnone
          exact hnone
        have hrest := ih hchain
        rw [hnone', List.nil_append] at hrest
        rw [hrest, hnone']
        have ha : a < e.blockNumber := by omega
        simp [ha, hb, not_le.1 hb]

/-- The chain as a feed. -/
lemma eventsBetween_eq_ofList (chain : List TransferToTapEvent) (a b : ℤ) :
    (between (ofList (fun e : TransferToTapEvent => (e.blockNumber : ℤ)) chain) a b).Perm
      (eventsBetween chain a b) :=
  between_ofList _ chain a b

/-- Up to `margin` blocks below its head, which is not beyond the last final block, the node answers
with the events there are, in whatever order. -/
def RskRpc.Shows (rsk : RskRpc) (chain : List TransferToTapEvent) (final : ℤ) (margin : ℕ) : Prop :=
  ∀ head, rsk.blockNumber = .ok head → head - margin ≤ final ∧
    ∀ first last events, last ≤ head - margin → rsk.getLogs first last = .ok events →
      events.Perm (eventsBetween chain (first - 1) last)

namespace RskRpc

variable {rsk : RskRpc} {chain : List TransferToTapEvent} {final : ℤ} {margin : ℕ}

lemma getEvents_eq (rsk : RskRpc) (batchSize toBlock : ℤ) (fuel : ℕ) (fromBlock : ℤ) :
    rsk.getEvents batchSize toBlock fuel fromBlock = (do
      let parts ← (EvmRpc.eventBatches batchSize toBlock fuel fromBlock).mapM
        fun batch => rsk.getLogs batch.1 batch.2
      pure parts.flatten) := by
  induction fuel generalizing fromBlock with
  | zero => rfl
  | succ fuel ih =>
      rw [RskRpc.getEvents, EvmRpc.eventBatches]
      by_cases h : fromBlock ≤ toBlock
      · rw [if_pos h, if_pos h, List.mapM_cons]
        simp only [ih, bind_assoc, pure_bind, List.flatten_cons]
      · rw [if_neg h, if_neg h]
        rfl

/-- What `get_events` reads is what the chain has there. -/
lemma getEvents_perm (h : rsk.Shows chain final margin) {head first last : ℤ}
    (hhead : rsk.blockNumber = .ok head) (hfirst : first ≤ last + 1) (hlast : last ≤ head - margin)
    {events : List TransferToTapEvent}
    (hevents : rsk.getEvents 100 last (last + 1 - first).toNat first = .ok events) :
    events.Perm (eventsBetween chain (first - 1) last) := by
  rw [getEvents_eq] at hevents
  simp only [bind_eq_ok, pure_eq_ok] at hevents
  obtain ⟨parts, hparts, rfl⟩ := hevents
  have htiles := EvmRpc.tiles_eventBatches 100 (by norm_num) hfirst le_rfl
  refine (htiles.perm (List.forall₂_iff_get.2 ?_)).trans (eventsBetween_eq_ofList chain _ _)
  obtain ⟨hlen, hget⟩ := List.forall₂_iff_get.1 (forall₂_of_mapM_ok hparts)
  refine ⟨hlen, fun i hi hi' => ?_⟩
  obtain ⟨-, -, hend⟩ := htiles.le_of_mem (List.get_mem _ ⟨i, hi⟩)
  exact ((h head hhead).2 _ _ _ (hend.trans hlast) (hget i hi hi')).trans
    (eventsBetween_eq_ofList chain _ _).symm

end RskRpc

/-- Of two events one stands before the other. -/
lemma ChainInOrder.before_or {chain : List TransferToTapEvent} (h : ChainInOrder chain)
    {e e' : TransferToTapEvent} (he : e ∈ chain) (he' : e' ∈ chain) (hne : e ≠ e') :
    e.Before e' ∨ e'.Before e := by
  have : Std.Symm fun e e' : TransferToTapEvent => e.Before e' ∨ e'.Before e :=
    ⟨fun _ _ => Or.symm⟩
  have hor : chain.Pairwise fun e e' => e.Before e' ∨ e'.Before e :=
    h.imp fun hbefore => .inl hbefore
  exact hor.forall he he' hne

/-- Sorting what was read gives back the chain's own order. -/
lemma ChainInOrder.mergeSort_eq {chain events : List TransferToTapEvent} (h : ChainInOrder chain)
    (hperm : events.Perm chain) : events.mergeSort TransferToTapEvent.le = chain := by
  have hsorted := @List.pairwise_mergeSort _ TransferToTapEvent.le
    (fun _ _ _ => TransferToTapEvent.le_trans) TransferToTapEvent.le_total events
  refine ((List.mergeSort_perm events _).trans hperm).eq_of_pairwise ?_ hsorted
    (h.imp fun hbefore => hbefore.1)
  intro e e' he he' hle hle'
  by_contra hne
  rcases h.before_or (hperm.mem_iff.1 (List.mem_mergeSort.1 he)) he' hne with hbefore | hbefore
  · rw [hbefore.2] at hle'
    cases hle'
  · rw [hbefore.2] at hle
    cases hle

/-! ## One scan -/

/-- The row of an event. -/
def TransferToTapEvent.transfer (event : TransferToTapEvent) : RskToTapTransfer :=
  ⟨event.counter, event.tapAddress, none⟩

namespace RskEventScanner

variable {Result : Type} {scanner : RskEventScanner} {s s' : RskScanDb Result}

lemma addTransfer_ok {dbId : ℕ} {event : TransferToTapEvent}
    (h : addTransfer dbId event s = .ok s') :
    s'.db.transfers.rows = s.db.transfers.rows ++ [(dbId, event.transfer)] ∧
      s'.lastScannedBlock = s.lastScannedBlock ∧
      ∀ sent, RskToTapLeader.Moves ⟨s.db, sent⟩ ⟨s'.db, sent⟩ := by
  simp only [addTransfer, bind_eq_ok, exists_unit, require_eq_ok, pure_eq_ok] at h
  obtain ⟨⟨hnew, -⟩, hcounter, -, rfl⟩ := h
  exact ⟨Table.rows_set_of_get?_eq_none _ hnew, rfl, fun sent => .seen hnew rfl hcounter⟩

lemma scanEventsCallback_ok {events : List (ℕ × TransferToTapEvent)}
    (h : scanEventsCallback events s = .ok s') :
    s'.db.transfers.rows =
        s.db.transfers.rows ++ events.map (fun e => (e.1, e.2.transfer)) ∧
      s'.lastScannedBlock = s.lastScannedBlock ∧
      ∀ sent, (RskToTapLeader.world Result).Waits ⟨s.db, sent⟩ ⟨s'.db, sent⟩ := by
  induction events generalizing s with
  | nil =>
      simp only [scanEventsCallback, pure_eq_ok] at h
      obtain rfl := h
      exact ⟨(List.append_nil _).symm, rfl, fun _ => .refl⟩
  | cons e events ih =>
      simp only [scanEventsCallback, bind_eq_ok] at h
      obtain ⟨s₁, hadd, hrest⟩ := h
      obtain ⟨hrow, hlast, hmove⟩ := addTransfer_ok hadd
      obtain ⟨hrows, hlast', hmoves⟩ := ih hrest
      refine ⟨?_, hlast'.trans hlast, fun sent => .head (hmove sent) (hmoves sent)⟩
      rw [hrows, hrow, List.append_assoc, List.map_cons, List.singleton_append]

/-- What a scan does. -/
structure Scanned (scanner : RskEventScanner) (chain : List TransferToTapEvent) (final : ℤ)
    (s s' : RskScanDb Result) : Prop where
  cursor_le : scanner.cursor s ≤ scanner.cursor s'
  cursor_final : scanner.cursor s' ≤ max (scanner.cursor s) final
  rows : ∃ new, s'.db.transfers.rows = s.db.transfers.rows ++ new ∧
    new.map Prod.snd = (eventsBetween chain (scanner.cursor s) (scanner.cursor s')).map
      TransferToTapEvent.transfer
  moves : ∀ sent, (RskToTapLeader.world Result).Waits ⟨s.db, sent⟩ ⟨s'.db, sent⟩

/-- **One scan.**  The events between the cursor and the new one get their rows, in order. -/
lemma scanNewEvents_ok {rsk : RskRpc} {chain : List TransferToTapEvent} {final : ℤ}
    {dbIds : ℕ → ℕ} (hchain : ChainInOrder chain)
    (hshows : rsk.Shows chain final scanner.blockSafetyMargin)
    (h : scanner.scanNewEvents rsk dbIds s = .ok s') : Scanned scanner chain final s s' := by
  simp only [scanNewEvents, bind_eq_ok] at h
  obtain ⟨head, hhead, h⟩ := h
  have hfinal := (hshows head hhead).1
  split at h
  · obtain rfl := pure_eq_ok.1 h
    refine ⟨le_rfl, le_max_left _ _, ⟨[], (List.append_nil _).symm, ?_⟩, fun _ => .refl⟩
    rw [eventsBetween_of_le le_rfl]
    rfl
  · rename_i hle
    rw [not_lt] at hle
    simp only [bind_eq_ok, pure_eq_ok] at h
    obtain ⟨events, hevents, s₁, hscan, rfl⟩ := h
    have hperm := RskRpc.getEvents_perm hshows hhead (by omega) le_rfl hevents
    rw [add_sub_cancel_right] at hperm
    have hsub : ChainInOrder (eventsBetween chain (scanner.cursor s)
      (head - scanner.blockSafetyMargin)) := hchain.filter _
    rw [hsub.mergeSort_eq hperm] at hscan
    obtain ⟨hrows, -, hmoves⟩ := scanEventsCallback_ok hscan
    have hcursor : scanner.cursor { s₁ with lastScannedBlock := some (head -
        scanner.blockSafetyMargin) } = head - scanner.blockSafetyMargin := rfl
    refine ⟨?_, ?_, ?_, hmoves⟩
    · rw [hcursor]
      omega
    · rw [hcursor]
      exact hfinal.trans (le_max_right _ _)
    · refine ⟨_, hrows, ?_⟩
      rw [hcursor, List.map_map, List.map_map]
      conv_rhs => rw [← List.zipIdx_map_fst 0 (eventsBetween chain _ _), List.map_map]
      rfl

end RskEventScanner

end NbteBridge
