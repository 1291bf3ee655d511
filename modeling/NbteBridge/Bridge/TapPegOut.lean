import NbteBridge.Contracts.TapEvents
import NbteBridge.TapRsk.RskScan
import NbteBridge.TapRsk.SendingOrder

/-!
# Transfers to tap, from the contract to the assets sent

The tap Bridge on Rootstock, the chain of its events, and the leader that scans it and sends Taproot
Assets.  Anyone calls the contract, blocks become final, the leader scans at any time and up to any
block that is final, and its process runs, fails and crashes as it likes.

Everything is in one order: the contract numbers its transfers, the chain has their events in that
order, the scan adds the rows in it, and the rows are a queue.  So whoever was sent assets is, in
every state, the beginning of the list of those the contract was told to send to
(`tap_transfers_paid_in_order`): nobody is left out, sent to twice or sent to before their turn.
-/

namespace NbteBridge

open Checked Effects Runs Tables

/-! ## Events of the contract -/

/-- The counter and the receiver of a transfer to tap. -/
def TapLog.toTap : TapLog → Option (Uint256 × Bytes)
  | .transferToTap counter _ receiverTapAddress => some (counter, receiverTapAddress)
  | _ => none

def toTapLogs (logs : List TapLog) : List (Uint256 × Bytes) := logs.filterMap TapLog.toTap

/-- An event, as it is read from the chain, is that of a transfer. -/
structure TransferToTapEvent.Shows (event : TransferToTapEvent) (log : Uint256 × Bytes) : Prop where
  counter : event.counter = log.1.toNat
  tapAddress : Packed.ascii event.tapAddress = log.2

lemma toTapLogs_sublist (logs : List TapLog) :
    ((toTapLogs logs).map fun log => some log.1.toNat).Sublist
      ((tapTransferLogs logs).map fun log => log.counter.map BitVec.toNat) := by
  induction logs with
  | nil => exact .slnil
  | cons log logs ih =>
      cases log with
      | transferToTap counter sender receiverTapAddress => exact ih.cons_cons _
      | transferFromTap => exact ih.cons _
      | _ => exact ih

/-- The contract numbers its transfers in order. -/
lemma TapWorld.TransfersLogged.toTap_sorted {Sig : Type} {w : TapWorld}
    {history : List (TapMoment Sig)} (h : w.TransfersLogged history) :
    (toTapLogs w.logs).Pairwise fun log log' => log.1.toNat < log'.1.toNat := by
  have hsub := toTapLogs_sublist w.logs
  rw [h.counters] at hsub
  have hsorted : ((List.range' 1 w.bridge.numTransfersTotal.toNat).map some).Pairwise
      fun m n : Option ℕ => m.getD 0 < n.getD 0 :=
    List.pairwise_map.2 List.pairwise_lt_range'
  have hmap := hsorted.sublist hsub
  rw [List.pairwise_map] at hmap
  exact hmap

lemma counters_of_shows {chain : List TransferToTapEvent} {logs : List (Uint256 × Bytes)}
    (h : List.Forall₂ TransferToTapEvent.Shows chain logs) :
    chain.map TransferToTapEvent.counter = logs.map fun log => log.1.toNat := by
  induction h with
  | nil => rfl
  | cons hshows _ ih => rw [List.map_cons, List.map_cons, hshows.counter, ih]

lemma tapAddresses_of_shows {chain : List TransferToTapEvent} {logs : List (Uint256 × Bytes)}
    (h : List.Forall₂ TransferToTapEvent.Shows chain logs) :
    chain.map (fun e => Packed.ascii e.tapAddress) = logs.map Prod.snd := by
  induction h with
  | nil => rfl
  | cons hshows _ ih => rw [List.map_cons, List.map_cons, hshows.tapAddress, ih]

/-- The tap address a call is to send to. -/
def TapCall.receiver {Sig : Type} : TapCall Sig → Option Bytes
  | .transferToTap receiverTapAddress => some receiverTapAddress
  | _ => none

lemma toTapLogs_filter (logs : List TapLog) :
    toTapLogs (tapTransferLogs logs) = toTapLogs logs := by
  rw [toTapLogs, tapTransferLogs, List.filterMap_filter]
  refine List.filterMap_congr fun log _ => ?_
  cases log <;> rfl

lemma receivers_of_records {Sig : Type} {history : List (TapMoment Sig)} {logs : List TapLog}
    (h : List.Forall₂ RecordsTapTransfer history logs) :
    (toTapLogs logs).map Prod.snd = history.filterMap fun p => p.2.2.receiver := by
  induction h with
  | nil => rfl
  | cons hrecords _ ih =>
      cases hrecords with
      | toTap => exact congrArg _ ih
      | fromTap => exact ih

/-- The contract's events to tap are of the calls to tap. -/
lemma TapWorld.TransfersLogged.receivers {Sig : Type} {w : TapWorld}
    {history : List (TapMoment Sig)} (h : w.TransfersLogged history) :
    (toTapLogs w.logs).map Prod.snd =
      (history.map Prod.snd).filterMap fun a => a.2.receiver := by
  have hcalls : (history.filter fun p => p.2.2.isTransfer).filterMap (fun p => p.2.2.receiver) =
      history.filterMap fun p => p.2.2.receiver := by
    rw [List.filterMap_filter]
    refine List.filterMap_congr fun p _ => ?_
    obtain ⟨-, -, call⟩ := p
    cases call <;> rfl
  rw [← toTapLogs_filter, receivers_of_records h.events, hcalls, List.filterMap_map]
  rfl

/-- In every run they are numbered in order, and of the calls. -/
lemma toTapLogs_of_run {Hash Sig : Type} {C : Crypto Hash Sig} {w : TapWorld}
    {tr : List (Address × TapCall Sig)} (h : TapRun C tr w) :
    ((toTapLogs w.logs).Pairwise fun log log' => log.1.toNat < log'.1.toNat) ∧
      (toTapLogs w.logs).map Prod.snd = tr.filterMap fun a => a.2.receiver := by
  obtain ⟨history, hhistory, rfl⟩ := h.traced
  have hlogged := TapWorld.transfersLogged_of_traced hhistory
  exact ⟨hlogged.toTap_sorted, hlogged.receivers⟩

/-! ## The system -/

structure TapPegOut (Result : Type) where
  world : TapWorld
  /-- The number of the last block that is final. -/
  final : ℤ
  /-- The contract's `TransferToTap` events, oldest first. -/
  chain : List TransferToTapEvent
  /-- The leader and its database. -/
  process : Process (RskToTapOp Result) RskToTapOp.Resp PyError (RskToTapLeader Result)
  /-- The columns of the transfers that hold their events. -/
  events : Table ℕ TransferToTapEvent
  lastScannedBlock : Option ℤ

inductive TapPegOutAction (Sig : Type)
  | call (sender : Address) (call : TapCall Sig)
  | block
  | scan
  | work

/-- The contract calls of a run. -/
def TapPegOutAction.callsOf {Sig : Type} (tr : List (TapPegOutAction Sig)) :
    List (Address × TapCall Sig) :=
  tr.filterMap fun
    | .call sender c => some (sender, c)
    | _ => none

namespace TapPegOut

variable {Result Hash Sig : Type}

/-- What the scan works on. -/
def scanDb (s : TapPegOut Result) : RskScanDb Result :=
  ⟨s.process.world.db, s.events, s.lastScannedBlock⟩

/-- After the scan's transaction. -/
def withScanDb (s : TapPegOut Result) (scanned : RskScanDb Result) : TapPegOut Result :=
  { s with
    process := { s.process with world := { s.process.world with db := scanned.db } }
    events := scanned.events
    lastScannedBlock := scanned.lastScannedBlock }

inductive Step (C : Crypto Hash Sig) (service : RskToTapService) (scanner : RskEventScanner) :
    TapPegOut Result → TapPegOutAction Sig → TapPegOut Result → Prop
  /-- Someone calls the contract; what it logs stands in the block after the last final one. -/
  | call {s : TapPegOut Result} {sender : Address} {call : TapCall Sig} {world : TapWorld}
      {new : List TapLog} {events : List TransferToTapEvent}
      (h : TapWorld.Step C s.world (sender, call) world) (hlogs : world.logs = s.world.logs ++ new)
      (hevents : List.Forall₂ TransferToTapEvent.Shows events (toTapLogs new))
      (hblock : ∀ e ∈ events, (e.blockNumber : ℤ) = s.final + 1)
      (horder : ChainInOrder (s.chain ++ events)) :
      Step C service scanner s (.call sender call) { s with world, chain := s.chain ++ events }
  | block (s : TapPegOut Result) :
      Step C service scanner s .block { s with final := s.final + 1 }
  | scan {s : TapPegOut Result} {rsk : RskRpc} {dbIds : ℕ → ℕ} {scanned : RskScanDb Result}
      (hshows : rsk.Shows s.chain s.final scanner.blockSafetyMargin)
      (h : scanner.scanNewEvents rsk dbIds s.scanDb = .ok scanned) :
      Step C service scanner s .scan (s.withScanDb scanned)
  /-- The process goes one step on, or crashes. -/
  | work {s : TapPegOut Result}
      {process : Process (RskToTapOp Result) RskToTapOp.Resp PyError (RskToTapLeader Result)}
      (h : s.process.Step (RskToTapLeader.world Result).still service.processCurrentTransferBatch
        process) :
      Step C service scanner s .work { s with process }

/-- A contract just deployed, and a leader that has done nothing. -/
structure Start (s : TapPegOut Result) : Prop where
  deployed : s.world.Deployed
  chain : s.chain = []
  started : RskToTapLeader.Started s.process.world
  idle : s.process.running = none
  unscanned : s.lastScannedBlock = none

/-- The tap addresses of the transfers in the blocks that were scanned. -/
def due (scanner : RskEventScanner) (s : TapPegOut Result) : List TransferToTapEvent :=
  eventsBetween s.chain scanner.defaultStartBlock (scanner.cursor s.scanDb)

/-- Transfers to tap are paid in the order of these calls. -/
structure PaidInOrder (scanner : RskEventScanner) (calls : List (Address × TapCall Sig))
    (s : TapPegOut Result) : Prop where
  chain : s.chain.map (fun e => Packed.ascii e.tapAddress) =
    calls.filterMap fun c => c.2.receiver
  sent : s.process.world.recipients.IsPrefix ((s.due scanner).map TransferToTapEvent.tapAddress)
  all : (∀ i b, s.process.world.db.batches.get? i = some b → b.status = .finalized) →
    s.process.world.db.unbatched = [] →
    s.process.world.recipients = (s.due scanner).map TransferToTapEvent.tapAddress

/-! ## The invariant -/

variable {C : Crypto Hash Sig} {service : RskToTapService} {scanner : RskEventScanner}
  {s s' : TapPegOut Result}

structure Consistent (C : Crypto Hash Sig) (service : RskToTapService) (scanner : RskEventScanner)
    (s : TapPegOut Result) : Prop where
  contract : ∃ tr : List (Address × TapCall Sig), TapRun C tr s.world
  chain : List.Forall₂ TransferToTapEvent.Shows s.chain (toTapLogs s.world.logs)
  order : ChainInOrder s.chain
  blocks : ∀ e ∈ s.chain, (e.blockNumber : ℤ) ≤ s.final + 1
  start_le : scanner.defaultStartBlock ≤ scanner.cursor s.scanDb
  cursor_le : scanner.cursor s.scanDb ≤ max scanner.defaultStartBlock s.final
  running : Running (RskToTapLeader.world Result) service.processCurrentTransferBatch
    RskToTapLeader.Started s.process
  inTurn : s.process.world.InTurn
  /-- The rows are the events scanned. -/
  rows : s.process.world.db.transfers.rows.map RskToTapDb.content =
    (s.due scanner).map TransferToTapEvent.content

lemma consistent_of_start (h : s.Start) : Consistent C service scanner s := by
  obtain ⟨hdeployed, hchain, hstarted, hidle, hunscanned⟩ := h
  have hcursor : scanner.cursor s.scanDb = scanner.defaultStartBlock := by
    rw [RskEventScanner.cursor, scanDb, hunscanned]
    rfl
  have hnone : toTapLogs s.world.logs = [] := by
    have hevents := (@TapWorld.transfersLogged_of_deployed Sig _ hdeployed).events
    have hsub := toTapLogs_sublist s.world.logs
    rw [List.filter_nil, List.forall₂_nil_left_iff] at hevents
    rw [hevents, List.map_nil, List.sublist_nil, List.map_eq_nil_iff] at hsub
    exact hsub
  have hdb : s.process.world.db = .empty := hstarted.1
  refine ⟨⟨[], .init hdeployed⟩, ?_, ?_, ?_, hcursor.ge, ?_, ?_,
    RskToTapLeader.inTurn_of_started hstarted, ?_⟩
  · rw [hchain, hnone]
    exact .nil
  · rw [hchain]
    exact .nil
  · rw [hchain]
    exact fun _ he => absurd he List.not_mem_nil
  · rw [hcursor]
    exact le_max_left _ _
  · have hprocess : s.process = ⟨s.process.world, none⟩ := by rw [← hidle]
    rw [hprocess]
    exact .init hstarted
  · rw [due, hchain, hdb]
    rfl

/-- Later events lie above everything that was scanned. -/
lemma Consistent.due_append (h : Consistent C service scanner s) {events : List TransferToTapEvent}
    (hblock : ∀ e ∈ events, (e.blockNumber : ℤ) = s.final + 1) :
    eventsBetween (s.chain ++ events) scanner.defaultStartBlock (scanner.cursor s.scanDb) =
      s.due scanner := by
  have hnone : eventsBetween events scanner.defaultStartBlock (scanner.cursor s.scanDb) = [] := by
    refine List.filter_eq_nil_iff.2 fun e he => ?_
    have hcursor := h.cursor_le
    rw [decide_eq_true_eq, hblock e he]
    omega
  rw [eventsBetween, List.filter_append]
  exact (congrArg _ hnone).trans (List.append_nil _)

lemma Consistent.call (h : Consistent C service scanner s) {sender : Address}
    {call : TapCall Sig} {world : TapWorld} {new : List TapLog}
    {events : List TransferToTapEvent} (hstep : TapWorld.Step C s.world (sender, call) world)
    (hlogs : world.logs = s.world.logs ++ new)
    (hevents : List.Forall₂ TransferToTapEvent.Shows events (toTapLogs new))
    (hblock : ∀ e ∈ events, (e.blockNumber : ℤ) = s.final + 1)
    (horder : ChainInOrder (s.chain ++ events)) :
    Consistent C service scanner { s with world, chain := s.chain ++ events } where
  contract := by
    obtain ⟨tr, hrun⟩ := h.contract
    exact ⟨_, hrun.step hstep⟩
  chain := by
    show List.Forall₂ _ (s.chain ++ events) (toTapLogs world.logs)
    rw [hlogs, toTapLogs, List.filterMap_append]
    exact List.rel_append h.chain hevents
  order := horder
  blocks e he := by
    rcases List.mem_append.1 he with he | he
    · exact h.blocks e he
    · exact (hblock e he).le
  start_le := h.start_le
  cursor_le := h.cursor_le
  running := h.running
  inTurn := h.inTurn
  rows := h.rows.trans (congrArg _ (h.due_append hblock).symm)

/-- The counters of the chain's events grow. -/
lemma Consistent.counters_sorted (h : Consistent C service scanner s) :
    s.chain.Pairwise fun e e' => e.counter < e'.counter := by
  obtain ⟨tr, hrun⟩ := h.contract
  have hsorted := (toTapLogs_of_run hrun).1
  have hmap := List.pairwise_map.2 hsorted
  rw [← counters_of_shows h.chain] at hmap
  exact List.pairwise_map.1 hmap

/-- Rows of events that follow one another in the chain are in the order of their counters. -/
lemma Consistent.sorted_of_contents (h : Consistent C service scanner s)
    {rows : List (ℕ × RskToTapTransfer)} {events : List TransferToTapEvent}
    (hsub : events.Sublist s.chain)
    (hcontents : rows.map RskToTapDb.content = events.map TransferToTapEvent.content) :
    rows.Pairwise fun p q => p.2.counter < q.2.counter := by
  have hevents := h.counters_sorted.sublist hsub
  have hmap : (events.map TransferToTapEvent.content).Pairwise fun c c' => c.1 < c'.1 :=
    List.pairwise_map.2 hevents
  rw [← hcontents, List.pairwise_map] at hmap
  exact hmap

lemma Consistent.scan (h : Consistent C service scanner s) {rsk : RskRpc} {dbIds : ℕ → ℕ}
    {scanned : RskScanDb Result} (hshows : rsk.Shows s.chain s.final scanner.blockSafetyMargin)
    (hscan : scanner.scanNewEvents rsk dbIds s.scanDb = .ok scanned) :
    Consistent C service scanner (s.withScanDb scanned) := by
  obtain ⟨hle, hfinal, ⟨new, hrows, hnew⟩, hmoves⟩ :=
    RskEventScanner.scanNewEvents_ok h.order hshows hscan
  have hwaits := hmoves s.process.world.sent
  have hsound := RskToTapLeader.sound_of_running h.running
  have hdue : (s.withScanDb scanned).due scanner = s.due scanner ++
      eventsBetween s.chain (scanner.cursor s.scanDb) (scanner.cursor scanned) :=
    h.order.eventsBetween_append h.start_le hle
  have hcontents : (s.withScanDb scanned).process.world.db.transfers.rows.map
      RskToTapDb.content = ((s.withScanDb scanned).due scanner).map
        TransferToTapEvent.content := by
    have hnew' := congrArg (List.map fun t => (t.counter, t.recipientTapAddress)) hnew
    rw [List.map_map, List.map_map] at hnew'
    rw [hdue, List.map_append, ← h.rows]
    exact (congrArg _ hrows).trans ((List.map_append).trans (congrArg _ hnew'))
  refine ⟨h.contract, h.chain, h.order, h.blocks, h.start_le.trans hle, ?_, ?_, ?_, hcontents⟩
  · exact hfinal.trans (max_le h.cursor_le (le_max_right _ _))
  · exact Running.waits h.running hwaits
  · refine h.inTurn.waits hwaits hsound hrows (fun p hp => ?_) ?_
    · have hmem : p.2 ∈ new.map Prod.snd := List.mem_map_of_mem hp
      rw [hnew] at hmem
      obtain ⟨e, -, he⟩ := List.mem_map.1 hmem
      rw [← he, TransferToTapEvent.transfer]
    · exact h.sorted_of_contents (List.filter_sublist) hcontents

lemma Consistent.work (h : Consistent C service scanner s)
    {process : Process (RskToTapOp Result) RskToTapOp.Resp PyError (RskToTapLeader Result)}
    (hstep : s.process.Step (RskToTapLeader.world Result).still
      service.processCurrentTransferBatch process) :
    Consistent C service scanner { s with process } := by
  obtain ⟨hturn, hextends⟩ := RskToTapLeader.inTurn_of_step h.running hstep h.inTurn
  exact ⟨h.contract, h.chain, h.order, h.blocks, h.start_le, h.cursor_le,
    h.running.step hstep.of_still, hturn, hextends.contents.trans h.rows⟩

/-- **Every step** keeps the order. -/
lemma Consistent.step {a : TapPegOutAction Sig} (h : Consistent C service scanner s)
    (hs : Step C service scanner s a s') : Consistent C service scanner s' := by
  cases hs with
  | call hstep hlogs hevents hblock horder => exact h.call hstep hlogs hevents hblock horder
  | block =>
      refine ⟨h.contract, h.chain, h.order, fun e he => ?_, h.start_le, ?_, h.running, h.inTurn,
        h.rows⟩
      · exact (h.blocks e he).trans (by simp)
      · exact h.cursor_le.trans (max_le_max le_rfl (by simp))
  | scan hshows hscan => exact h.scan hshows hscan
  | work hstep => exact h.work hstep

lemma Consistent.paidInOrder (h : Consistent C service scanner s)
    {calls : List (Address × TapCall Sig)} (hrun : TapRun C calls s.world) :
    s.PaidInOrder scanner calls := by
  have hsound := RskToTapLeader.sound_of_running h.running
  have hdue : s.process.world.db.transfers.rows.map (fun p => p.2.recipientTapAddress) =
      (s.due scanner).map TransferToTapEvent.tapAddress := by
    have hcontents := congrArg (List.map Prod.snd) h.rows
    rw [List.map_map, List.map_map] at hcontents
    exact hcontents
  refine ⟨?_, ?_, fun hfinalized hunbatched => ?_⟩
  · rw [tapAddresses_of_shows h.chain, (toTapLogs_of_run hrun).2]
  · rw [← hdue]
    exact h.inTurn.recipients_isPrefix hsound
  · rw [← hdue]
    exact h.inTurn.recipients_eq_rows hsound hfinalized hunbatched

/-- The calls of a run are a run of the contract. -/
lemma contract_of_run {tr : List (TapPegOutAction Sig)}
    (h : Run Start (Step C service scanner) tr s) :
    TapRun C (TapPegOutAction.callsOf tr) s.world := by
  refine h.invariant (I := fun tr s => TapRun C (TapPegOutAction.callsOf tr) s.world)
    (fun s hs => .init hs.deployed) fun tr s a s' _ hw hs => ?_
  show TapRun C (TapPegOutAction.callsOf (tr ++ [a])) s'.world
  rw [TapPegOutAction.callsOf, List.filterMap_append]
  cases hs with
  | call hstep => exact hw.step hstep
  | block => exact (List.append_nil (TapPegOutAction.callsOf tr)).symm ▸ hw
  | scan => exact (List.append_nil (TapPegOutAction.callsOf tr)).symm ▸ hw
  | work => exact (List.append_nil (TapPegOutAction.callsOf tr)).symm ▸ hw

end TapPegOut

/-- **Transfers to tap are paid once each, in the order the contract took them**, in every run of
the contract, the chain, the scan and the leader, with calls that raise and crashes.  Whoever was
sent assets is the beginning of the list of receivers of the transfers scanned, which are those of
the contract's successful calls, and all of it once every batch is finalized and no row is left. -/
theorem tap_transfers_paid_in_order {Result Hash Sig : Type} {C : Crypto Hash Sig}
    {service : RskToTapService} {scanner : RskEventScanner} {s : TapPegOut Result}
    {tr : List (TapPegOutAction Sig)}
    (h : Run TapPegOut.Start (TapPegOut.Step C service scanner) tr s) :
    s.PaidInOrder scanner (TapPegOutAction.callsOf tr) := by
  have hconsistent : TapPegOut.Consistent C service scanner s :=
    h.stateInvariant (fun _ => TapPegOut.consistent_of_start) fun _ _ _ hc hs => hc.step hs
  exact hconsistent.paidInOrder (TapPegOut.contract_of_run h)

/-! ## Example -/

namespace ExampleTapPegOut

def tapAddress : String :=
  "taprt1qssqqqqqqqqqqqqqqqqqqqqqqqqqqqqqqqqqqqqqqqqqqqqqqqqqqpc2q07s86q398wrm"

/-- Two thousand units of the same asset. -/
def laterTapAddress : String :=
  "taprt1qssqqqqqqqqqqqqqqqqqqqqqqqqqqqqqqqqqqqqqqqqqqqqqqqqqqpc2q07s05qfh4ndf"

/-- The events of two transfers to tap in the first block. -/
def event : TransferToTapEvent := ⟨1, 0, 0, "0xaa", 1, "0x06", tapAddress⟩

def later : TransferToTapEvent := ⟨1, 1, 1, "0xbb", 2, "0x08", laterTapAddress⟩

lemma chainInOrder : ChainInOrder [event, later] :=
  .cons (fun e he => by rw [List.mem_singleton.1 he]; exact ⟨rfl, rfl⟩) (List.pairwise_singleton _ _)

/-- A node at the first block, which lists the later event first. -/
def rsk : RskRpc := ⟨.ok 1, fun first last => .ok (eventsBetween [later, event] (first - 1) last)⟩

def scanner : RskEventScanner := ⟨0, 0⟩

def scanned : RskScanDb Unit where
  db := (RskToTapDb.empty.setTransfer 1 event.transfer).setTransfer 2 later.transfer
  events := (Table.empty.set 1 event).set 2 later
  lastScannedBlock := some 1

lemma rsk_shows : rsk.Shows [event, later] 1 0 := by
  rintro head ⟨⟩
  refine ⟨le_rfl, fun first last events _ hevents => ?_⟩
  obtain rfl := Except.ok.inj hevents
  exact (List.Perm.swap event later []).filter _

lemma scan_eq : scanner.scanNewEvents rsk (· + 1) ⟨.empty, .empty, none⟩ = .ok scanned := by
  have hsort : [later, event].mergeSort TransferToTapEvent.le = [event, later] :=
    chainInOrder.mergeSort_eq (.swap event later [])
  show (do
    let s ← RskEventScanner.scanEventsCallback
      (([later, event].mergeSort TransferToTapEvent.le).zipIdx.map
        fun e : TransferToTapEvent × ℕ => (e.2 + 1, e.1))
      (⟨.empty, .empty, none⟩ : RskScanDb Unit)
    pure { s with lastScannedBlock := some 1 }) = _
  rw [hsort]
  rfl

/-- The process after the scan, and after an iteration. -/
def processed : RskToTapLeader Unit :=
  (ExampleRskToTap.service.processCurrentTransferBatch.eval ExampleRskToTap.respond (fun _ => ())
    ⟨scanned.db, []⟩).2

lemma steps_processed : Relation.ReflTransGen
    (Process.Step (RskToTapLeader.world Unit).still
      ExampleRskToTap.service.processCurrentTransferBatch)
    ⟨⟨scanned.db, []⟩, none⟩ ⟨processed, none⟩ :=
  .head (.start _) (Process.steps_evalOf (W := (RskToTapLeader.world Unit).still)
    ExampleRskToTap.does_respond)

variable {Hash Sig Result : Type} {C : Crypto Hash Sig} {service : RskToTapService}
  {scanner : RskEventScanner}

/-- The process can go on for as long as it likes. -/
lemma run_work {tr : List (TapPegOutAction Sig)} {s : TapPegOut Result}
    (h : Run TapPegOut.Start (TapPegOut.Step C service scanner) tr s)
    {process : Process (RskToTapOp Result) RskToTapOp.Resp PyError (RskToTapLeader Result)}
    (hsteps : Relation.ReflTransGen (Process.Step (RskToTapLeader.world Result).still
      service.processCurrentTransferBatch) s.process process) :
    ∃ tr', TapPegOutAction.callsOf tr' = TapPegOutAction.callsOf tr ∧
      Run TapPegOut.Start (TapPegOut.Step C service scanner) tr' { s with process } := by
  induction hsteps with
  | refl => exact ⟨tr, rfl, h⟩
  | tail _ hstep ih =>
      obtain ⟨tr', hcalls, hrun⟩ := ih
      refine ⟨tr' ++ [.work], ?_, hrun.step (.work hstep)⟩
      rw [← hcalls, TapPegOutAction.callsOf, List.filterMap_append]
      exact List.append_nil _

/-- A call that is no transfer has no event on the chain. -/
lemma step_call_other {s : TapPegOut Result} {sender : Address} {call : TapCall Sig}
    {world : TapWorld} (horder : ChainInOrder s.chain)
    (h : TapWorld.Step C s.world (sender, call) world) (hcall : call.isTransfer = false) :
    TapPegOut.Step C service scanner s (.call sender call) { s with world } := by
  rcases TapWorld.logged_of_step h with ⟨htransfer, -⟩ | ⟨-, ⟨new, hlogs, hnew⟩, -, -⟩
  · exact absurd htransfer (by simp [hcall])
  · have hnone : toTapLogs new = [] := by
      refine List.filterMap_eq_nil_iff.2 fun log hlog => ?_
      have hcounter := (hnew log hlog).1
      cases log with
      | transferToTap => cases hcounter
      | _ => rfl
    have hstep := @TapPegOut.Step.call _ _ _ C service scanner s sender call world new [] h hlogs
      (by rw [hnone]; exact .nil) (by simp) (by rw [List.append_nil]; exact horder)
    rw [List.append_nil] at hstep
    exact hstep

/-- A transfer to tap has its event in the next block. -/
lemma step_call_toTap {s : TapPegOut Result} {sender : Address} {world : TapWorld}
    {e : TransferToTapEvent}
    (h : TapWorld.Step C s.world (sender, .transferToTap (Packed.ascii e.tapAddress)) world)
    (htotal : world.bridge.numTransfersTotal.toNat = e.counter)
    (hblock : (e.blockNumber : ℤ) = s.final + 1) (horder : ChainInOrder (s.chain ++ [e])) :
    TapPegOut.Step C service scanner s (.call sender (.transferToTap (Packed.ascii e.tapAddress)))
      { s with world, chain := s.chain ++ [e] } := by
  rcases TapWorld.logged_of_step h with ⟨-, log, hlogs, hcounter, -, hrecords⟩ | ⟨hother, -⟩
  · cases hrecords with
    | @toTap _ _ _ counter =>
        obtain ⟨counter', hsome, heq, -⟩ := hcounter
        obtain rfl := Option.some.inj hsome
        refine .call h hlogs (.cons ⟨?_, rfl⟩ .nil) (by simpa using hblock) horder
        rw [← htotal, ← heq]
  · cases hother

end ExampleTapPegOut

open ExampleTapPegOut in
/-- Two transfers to tap that are taken, seen and sent in their order. -/
theorem tap_transfers_paid_in_order_example :
    ∃ (tr : List (TapPegOutAction (Address × Bytes))) (s : TapPegOut Unit),
      s.PaidInOrder scanner (TapPegOutAction.callsOf tr) ∧
      s.process.world.recipients = [tapAddress, laterTapAddress] := by
  have heval : (do
      let b ← TapBridge.construct 9 ⟨Packed.ascii "taprt"⟩ 2 [4, 5]
      let w ← (TapWorld.Example.world b).step symbolicCrypto 9
        (.addBridgeableAsset TapWorld.Example.asset)
      let w' ← w.step symbolicCrypto 6 (.transferToTap (Packed.ascii event.tapAddress))
      let w'' ← w'.step symbolicCrypto 8 (.transferToTap (Packed.ascii later.tapAddress))
      pure (w'.bridge.numTransfersTotal.toNat, w''.bridge.numTransfersTotal.toNat)) =
        .ok (1, 2) := by
    decide +kernel
  have hrecipients : processed.recipients = [tapAddress, laterTapAddress] := by decide +kernel
  simp only [bind_eq_ok, pure_eq_ok, Prod.mk.injEq] at heval
  obtain ⟨b, hb, w, hw, w', hw', w'', hw'', htotal, htotal'⟩ := heval
  let start : TapPegOut Unit :=
    ⟨TapWorld.Example.world b, 0, [], ⟨⟨.empty, []⟩, none⟩, .empty, none⟩
  have hstart : Run TapPegOut.Start
      (TapPegOut.Step symbolicCrypto ExampleRskToTap.service scanner) [] start :=
    .init ⟨⟨9, _, 2, [4, 5], hb, rfl, rfl⟩, rfl, ⟨rfl, rfl⟩, rfl, rfl⟩
  have hadded := hstart.step (step_call_other .nil hw rfl)
  have htaken := hadded.step
    (step_call_toTap hw' htotal rfl (List.pairwise_singleton _ event))
  have htaken' := htaken.step (step_call_toTap hw'' htotal' rfl chainInOrder)
  have hscanned := (htaken'.step (.block _)).step (.scan rsk_shows scan_eq)
  obtain ⟨tr, -, hrun⟩ := run_work hscanned steps_processed
  exact ⟨tr, _, tap_transfers_paid_in_order hrun, hrecipients⟩

end NbteBridge
