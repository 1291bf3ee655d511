import NbteBridge.Foundations.Feeds
import NbteBridge.Foundations.Runs
import NbteBridge.Node.Reference
import NbteBridge.Node.TransactionEffects

/-!
# Every event is recorded once

Runs of a node that scans the EVM chain for the bridge's transfers to Bitcoin, with scans that
succeed or fail and the node's other transactions between them.  Blocks that are deep enough never
change: their events are a feed, and a scan at head `H` reads what lies above the cursor up to
`H - margin`, in ranges that tile it.  The rows recorded are then the feed's events, once each and
in order, up to the deepest block any scan asked for, and the cursor stands there.
-/

namespace NbteBridge

open Checked Tables Runs Feeds

/-! ## Ranges of blocks -/

/-- The ranges of blocks `get_events` asks for. -/
def EvmRpc.eventBatches (batchSize toBlock : ℤ) : ℕ → ℤ → List (ℤ × ℤ)
  | 0, _ => []
  | fuel + 1, batchFromBlock =>
      if batchFromBlock ≤ toBlock then
        (batchFromBlock, min (batchFromBlock + batchSize) toBlock) ::
          eventBatches batchSize toBlock fuel (min (batchFromBlock + batchSize) toBlock + 1)
      else []

lemma EvmRpc.getEvents_eq (evm : EvmRpc) (batchSize toBlock : ℤ) (fuel : ℕ) (fromBlock : ℤ) :
    evm.getEvents batchSize toBlock fuel fromBlock = (do
      let parts ← (EvmRpc.eventBatches batchSize toBlock fuel fromBlock).mapM
        fun batch => evm.getLogs batch.1 batch.2
      pure parts.flatten) := by
  induction fuel generalizing fromBlock with
  | zero => rfl
  | succ fuel ih =>
      rw [EvmRpc.getEvents, EvmRpc.eventBatches]
      by_cases h : fromBlock ≤ toBlock
      · rw [if_pos h, if_pos h, List.mapM_cons]
        simp only [ih, bind_assoc, pure_bind, List.flatten_cons]
      · rw [if_neg h, if_neg h]
        rfl

/-- Enough fuel for one block a batch is enough. -/
lemma EvmRpc.tiles_eventBatches (batchSize : ℤ) (hsize : 0 ≤ batchSize) {toBlock : ℤ}
    {fuel : ℕ} {fromBlock : ℤ} (hfrom : fromBlock ≤ toBlock + 1)
    (hfuel : (toBlock + 1 - fromBlock).toNat ≤ fuel) :
    Tiles (EvmRpc.eventBatches batchSize toBlock fuel fromBlock) fromBlock toBlock := by
  induction fuel generalizing fromBlock with
  | zero =>
      show fromBlock = toBlock + 1
      omega
  | succ fuel ih =>
      rw [EvmRpc.eventBatches]
      by_cases h : fromBlock ≤ toBlock
      · rw [if_pos h]
        exact ⟨rfl, le_min (by omega) h, min_le_right _ _, ih (by omega) (by omega)⟩
      · rw [if_neg h]
        show fromBlock = toBlock + 1
        omega

lemma EvmRpc.eventBatches_le {batchSize toBlock : ℤ} {fuel : ℕ} {fromBlock : ℤ} {batch : ℤ × ℤ}
    (h : batch ∈ EvmRpc.eventBatches batchSize toBlock fuel fromBlock) :
    batch.2 ≤ batch.1 + batchSize := by
  induction fuel generalizing fromBlock with
  | zero => exact absurd h (by simp [EvmRpc.eventBatches])
  | succ fuel ih =>
      rw [EvmRpc.eventBatches] at h
      by_cases hle : fromBlock ≤ toBlock
      · rw [if_pos hle] at h
        rcases List.mem_cons.1 h with rfl | h
        · exact min_le_left _ _
        · exact ih h
      · rw [if_neg hle] at h
        exact absurd h (by simp)

/-! ## The order of events -/

namespace RuneTransferToBtcEvent

variable {e e' e'' : RuneTransferToBtcEvent}

lemma le_iff : e.le e' = true ↔ e.blockNumber < e'.blockNumber ∨
    (e.blockNumber = e'.blockNumber ∧ (e.transactionIndex < e'.transactionIndex ∨
      (e.transactionIndex = e'.transactionIndex ∧ e.logIndex ≤ e'.logIndex))) := by
  rw [RuneTransferToBtcEvent.le, decide_eq_true_iff]

lemma le_trans (h : e.le e' = true) (h' : e'.le e'' = true) : e.le e'' = true := by
  rw [le_iff] at h h' ⊢
  omega

lemma le_total (e e' : RuneTransferToBtcEvent) : (e.le e' || e'.le e) = true := by
  rw [Bool.or_eq_true, le_iff, le_iff]
  omega

end RuneTransferToBtcEvent

/-! ## The chain -/

/-- The bridge's events in the blocks that never change any more. -/
structure FinalEvents where
  feed : ℤ → List RuneTransferToBtcEvent
  blockNumber : ∀ height, ∀ event ∈ feed height, (event.blockNumber : ℤ) = height

/-- What a scan can count on: up to `margin` blocks below the head, the node answers with the
events there are, in whatever order. -/
def FinalEvents.SeenBy (history : FinalEvents) (margin : ℕ) (evm : EvmRpc) : Prop :=
  ∀ head, evm.blockNumber = .ok head → ∀ first last events, last ≤ head - margin →
    evm.getLogs first last = .ok events → events.Perm (between history.feed (first - 1) last)

/-! ## What is recorded of an event -/

/-- The columns of a row that hold its event. -/
structure RecordedEvent where
  key : RuneTokenDepositKey
  evmBlockNumber : ℕ
  receiverBtcAddress : String
  transferredTokenAmount : ℕ
  netRuneAmountRaw : ℤ
  tokenAddress : String
  runeNumber : ℕ
  deriving DecidableEq

def RuneTransferToBtcEvent.recorded (event : RuneTransferToBtcEvent) : RecordedEvent :=
  ⟨event.key, event.blockNumber, event.receiverBtcAddress, event.transferredTokenAmount,
    event.netRuneAmount, event.token, event.rune⟩

def RuneTokenDeposit.recorded (row : RuneTokenDepositKey × RuneTokenDeposit) : RecordedEvent :=
  ⟨row.1, row.2.evmBlockNumber, row.2.receiverBtcAddress, row.2.transferredTokenAmount,
    row.2.netRuneAmountRaw, row.2.tokenAddress, row.2.rune.n⟩

/-- The events a database has rows of, in the order the rows were added. -/
def Db.recordedEvents {Hash : Type} (db : Db Hash) : List RecordedEvent :=
  db.runeTokenDeposits.rows.map RuneTokenDeposit.recorded

/-! ## Runs -/

section Runs

variable {Hash : Type} (service : RuneBridgeService Hash) (history : FinalEvents)

/-- One try at a scan: what the chain and `ord` answer, whether a statement of it raises in the
database, and whether the commit does. -/
structure EventScanAttempt (Hash : Type) where
  views : Views Hash
  statements : PyResult Unit
  commit : PyResult Unit

/-- `scan_rune_token_deposits` in its transaction. -/
def RuneBridgeService.attemptEventScan (attempt : EventScanAttempt Hash) (db : Db Hash) :
    PyResult ℕ × Db Hash :=
  inTransaction attempt.commit (fun db => do
    attempt.statements
    service.scanRuneTokenDeposits attempt.views db) db

/-- The block events were scanned up to. -/
def RuneBridgeService.eventCursor (db : Db Hash) : ℤ :=
  db.lastScannedEvmBlock.getD service.config.evmDefaultStartBlock

inductive EventScanAction (Hash : Type)
  /-- A scan that succeeded with this head. -/
  | scanned (head : ℤ)
  | failed
  /-- What else the node does to its database. -/
  | other (t : NodeTransaction Hash)

inductive EventScanStep : Db Hash → EventScanAction Hash → Db Hash → Prop
  | scanned {db db' : Db Hash} {attempt : EventScanAttempt Hash} {head : ℤ} {n : ℕ}
      (hhead : attempt.views.evm.blockNumber = .ok head)
      (hsees : history.SeenBy service.config.evmBlockSafetyMargin attempt.views.evm)
      (h : service.attemptEventScan attempt db = (.ok n, db')) :
      EventScanStep db (.scanned head) db'
  | failed {db db' : Db Hash} {attempt : EventScanAttempt Hash} {e : PyError}
      (h : service.attemptEventScan attempt db = (.error e, db')) :
      EventScanStep db .failed db'
  | other {db db' : Db Hash} {views : Views Hash} {t : NodeTransaction Hash}
      (hscan : t ≠ .scanRuneTokenDeposits) (h : t.run service views db = .ok db') :
      EventScanStep db (.other t) db'

/-- Runs from a database, in which runes stand under their numbers. -/
abbrev EventScanRun (db₀ : Db Hash) :=
  Run (fun db => db = db₀ ∧ db.Numbered) (EventScanStep service history)

/-- The deepest block the scans asked for: `H - margin` for the greatest head. -/
def scannedTo (margin : ℕ) (start : ℤ) (tr : List (EventScanAction Hash)) : ℤ :=
  tr.foldl (fun deepest a => match a with
    | .scanned head => max deepest (head - margin)
    | _ => deepest) start

lemma scannedTo_append (margin : ℕ) (start : ℤ) (tr : List (EventScanAction Hash))
    (a : EventScanAction Hash) : scannedTo margin start (tr ++ [a]) =
      match a with
      | .scanned head => max (scannedTo margin start tr) (head - margin)
      | _ => scannedTo margin start tr := by
  rw [scannedTo, List.foldl_append]
  rfl

end Runs

/-! ## A scan -/

namespace RuneBridgeService

variable {Hash : Type} {service : RuneBridgeService Hash} {views : Views Hash}
  {history : FinalEvents} {db db' : Db Hash}

/-- The row of a rune has its number. -/
lemma getOrAddRune_n (hdb : db.Numbered) {n : ℕ} {rune : RuneRow}
    (h : getOrAddRune views n db = .ok (rune, db')) : rune.n = n := by
  unfold getOrAddRune at h
  split at h
  · rename_i row hrow
    obtain ⟨rfl, -⟩ := Prod.mk.inj (pure_eq_ok.1 h)
    exact hdb.runes n row hrow
  · simp only [bind_eq_ok, pure_eq_ok] at h
    obtain ⟨rune', hrune', response, -, entry, -, heq⟩ := h
    obtain ⟨rfl, -⟩ := Prod.mk.inj heq
    exact Rune.n_ofNumber hrune'

/-- One event: its row is added last. -/
lemma indexEvent_recorded (hdb : db.Numbered) {event : RuneTransferToBtcEvent}
    (h : indexEvent views event db = .ok db') :
    db'.Numbered ∧ db'.recordedEvents = db.recordedEvents ++ [event.recorded] ∧
      db'.lastScannedEvmBlock = db.lastScannedEvmBlock := by
  have hrecorded := indexEvent_ok h
  simp only [indexEvent, bind_eq_ok, exists_unit, require_eq_ok, pure_eq_ok] at h
  obtain ⟨⟨rune, db₁⟩, hrune, hnew, rfl⟩ := h
  have hn := getOrAddRune_n hdb hrune
  obtain ⟨runes, rfl, -⟩ := getOrAddRune_ok hrune
  refine ⟨⟨hrecorded.runes hdb.runes, hrecorded.runeDeposits ▸ hdb.deposits⟩, ?_, rfl⟩
  simp only [Db.recordedEvents, Db.setRuneTokenDeposit,
    Table.rows_set_of_get?_eq_none _ hnew, List.map_append, List.map_cons, List.map_nil]
  rw [RuneTokenDeposit.recorded, RuneTransferToBtcEvent.recorded, newRuneTokenDeposit, hn]

lemma indexEvents_recorded (hdb : db.Numbered) {events : List RuneTransferToBtcEvent}
    (h : indexEvents views events db = .ok db') :
    db'.recordedEvents = db.recordedEvents ++ events.map RuneTransferToBtcEvent.recorded ∧
      db'.lastScannedEvmBlock = db.lastScannedEvmBlock := by
  induction events generalizing db with
  | nil =>
      obtain rfl := pure_eq_ok.1 h
      exact ⟨(List.append_nil _).symm, rfl⟩
  | cons event events ih =>
      simp only [indexEvents, bind_eq_ok] at h
      obtain ⟨db₁, hevent, hrest⟩ := h
      obtain ⟨hdb₁, hrow, hcursor⟩ := indexEvent_recorded hdb hevent
      obtain ⟨hrows, hcursor'⟩ := ih hdb₁ hrest
      refine ⟨?_, hcursor'.trans hcursor⟩
      rw [hrows, hrow, List.append_assoc, List.map_cons, List.singleton_append]

/-- What `get_events` reads is what the chain has there. -/
lemma getEvents_perm {margin : ℕ} {head : ℤ} (hhead : views.evm.blockNumber = .ok head)
    (hsees : history.SeenBy margin views.evm) {first last : ℤ} (hfirst : first ≤ last + 1)
    (hlast : last ≤ head - margin) {events : List RuneTransferToBtcEvent}
    (h : views.evm.getEvents 100 last (last + 1 - first).toNat first = .ok events) :
    events.Perm (between history.feed (first - 1) last) := by
  rw [EvmRpc.getEvents_eq] at h
  simp only [bind_eq_ok, pure_eq_ok] at h
  obtain ⟨parts, hparts, rfl⟩ := h
  have htiles := EvmRpc.tiles_eventBatches 100 (by norm_num) hfirst le_rfl
  refine htiles.perm (List.forall₂_iff_get.2 ?_)
  obtain ⟨hlen, hget⟩ := List.forall₂_iff_get.1 (forall₂_of_mapM_ok hparts)
  refine ⟨hlen, fun i hi hi' => ?_⟩
  obtain ⟨-, -, hend⟩ := htiles.le_of_mem (List.get_mem _ ⟨i, hi⟩)
  exact hsees head hhead _ _ _ (hend.trans hlast) (hget i hi hi')

/-- **One scan.**  The events between the cursor and the new one are recorded, in order. -/
theorem scanRuneTokenDeposits_recorded (hdb : db.Numbered) {head : ℤ}
    (hhead : views.evm.blockNumber = .ok head)
    (hsees : history.SeenBy service.config.evmBlockSafetyMargin views.evm) {n : ℕ}
    (h : service.scanRuneTokenDeposits views db = .ok (n, db')) :
    service.eventCursor db' =
      max (service.eventCursor db) (head - service.config.evmBlockSafetyMargin) ∧
    ∃ events, InOrder history.feed (fun e e' => RuneTransferToBtcEvent.le e e' = true)
        (service.eventCursor db) (service.eventCursor db') events ∧
      db'.recordedEvents = db.recordedEvents ++ events.map RuneTransferToBtcEvent.recorded := by
  simp only [scanRuneTokenDeposits, bind_eq_ok, hhead, Except.ok.injEq, exists_eq_left'] at h
  split at h
  · rename_i hlt
    obtain ⟨-, rfl⟩ := Prod.mk.inj (pure_eq_ok.1 h)
    have hle : head - service.config.evmBlockSafetyMargin ≤ service.eventCursor db := by
      rw [eventCursor]
      omega
    exact ⟨(max_eq_left hle).symm, [], .nil le_rfl, (List.append_nil _).symm⟩
  · rename_i hle
    simp only [bind_eq_ok, pure_eq_ok] at h
    obtain ⟨events, hevents, db₁, hindex, heq⟩ := h
    obtain ⟨-, rfl⟩ := Prod.mk.inj heq
    rw [not_lt] at hle
    have hcursor (block : ℤ) :
        service.eventCursor { db₁ with lastScannedEvmBlock := some block } = block := rfl
    have hperm := getEvents_perm hhead hsees (by omega) le_rfl hevents
    rw [add_sub_cancel_right] at hperm
    obtain ⟨hrows, -⟩ := indexEvents_recorded hdb hindex
    refine ⟨?_, events.mergeSort RuneTransferToBtcEvent.le, ⟨?_, ?_⟩, hrows⟩
    · rw [hcursor, eventCursor, max_eq_right]
      omega
    · rw [hcursor]
      exact (List.mergeSort_perm events _).trans hperm
    · exact @List.pairwise_mergeSort _ RuneTransferToBtcEvent.le
        (fun _ _ _ => RuneTransferToBtcEvent.le_trans) RuneTransferToBtcEvent.le_total events

end RuneBridgeService

/-! ## The other transactions -/

section Others

open RuneBridgeService

variable {Hash : Type} {service : RuneBridgeService Hash} {views : Views Hash} {db db' : Db Hash}

/-- A row changed in its later columns. -/
lemma Db.recordedEvents_setRuneTokenDeposit {key : RuneTokenDepositKey}
    {row row' : RuneTokenDeposit} (h : db.runeTokenDeposits.get? key = some row)
    (hrow : RuneTokenDeposit.recorded (key, row') = RuneTokenDeposit.recorded (key, row)) :
    (db.setRuneTokenDeposit key row').recordedEvents = db.recordedEvents :=
  Table.map_rows_set h hrow

/-- No other transaction touches what is recorded of events, or the cursor. -/
lemma NodeTransaction.run_recordedEvents {t : NodeTransaction Hash}
    (hscan : t ≠ .scanRuneTokenDeposits) (h : t.run service views db = .ok db') :
    db'.recordedEvents = db.recordedEvents ∧ db'.lastScannedEvmBlock = db.lastScannedEvmBlock := by
  cases NodeTransaction.run_effect h with
  | unchanged => exact ⟨rfl, rfl⟩
  | addresses => exact ⟨rfl, rfl⟩
  | deposits hrun =>
      have hkept := scanRuneDeposits_kept hrun
      exact ⟨by rw [Db.recordedEvents, hkept.runeTokenDeposits, Db.recordedEvents],
        hkept.lastScannedEvmBlock⟩
  | tokenDeposits => exact absurd rfl hscan
  | signatures => exact ⟨rfl, rfl⟩
  | deposit => exact ⟨rfl, rfl⟩
  | tokenDeposit hrow => exact ⟨Db.recordedEvents_setRuneTokenDeposit hrow rfl, rfl⟩

end Others

/-! ## Runs -/

section Invariant

variable {Hash : Type} {service : RuneBridgeService Hash} {history : FinalEvents}
  {db₀ db db' : Db Hash} {a : EventScanAction Hash} {tr : List (EventScanAction Hash)}

/-- A scan that raises leaves rows and cursor as they were. -/
lemma eq_of_failed (h : EventScanStep service history db .failed db') : db' = db := by
  cases h with
  | failed h => exact inTransaction_error h

/-- **One step.**  The cursor moves as far as a scan asked for, and what lies below it is recorded
after what was there. -/
lemma EventScanStep.records (hdb : db.Numbered) (h : EventScanStep service history db a db') :
    db'.Numbered ∧
    service.eventCursor db' =
      scannedTo service.config.evmBlockSafetyMargin (service.eventCursor db) [a] ∧
    ∃ events, InOrder history.feed (fun e e' => RuneTransferToBtcEvent.le e e' = true)
        (service.eventCursor db) (service.eventCursor db') events ∧
      db'.recordedEvents = db.recordedEvents ++ events.map RuneTransferToBtcEvent.recorded := by
  have hidle {db' : Db Hash} (hrows : db'.recordedEvents = db.recordedEvents)
      (hcursor : service.eventCursor db' = service.eventCursor db) :
      ∃ events, InOrder history.feed (fun e e' => RuneTransferToBtcEvent.le e e' = true)
          (service.eventCursor db) (service.eventCursor db') events ∧
        db'.recordedEvents = db.recordedEvents ++ events.map RuneTransferToBtcEvent.recorded :=
    ⟨[], .nil hcursor.le, by rw [hrows, List.map_nil, List.append_nil]⟩
  cases h with
  | @scanned _ attempt head _ hhead hsees h =>
      have hok := inTransaction_ok h
      simp only [bind_eq_ok, exists_unit] at hok
      obtain ⟨-, hscan⟩ := hok
      have hnumbered : db'.Numbered := by
        have hrun : NodeTransaction.scanRuneTokenDeposits.run service attempt.views db =
            .ok db' := by
          rw [NodeTransaction.run, hscan]
          rfl
        exact hdb.run hrun
      exact ⟨hnumbered, RuneBridgeService.scanRuneTokenDeposits_recorded hdb hhead hsees hscan⟩
  | failed h =>
      obtain rfl := inTransaction_error h
      exact ⟨hdb, rfl, hidle rfl rfl⟩
  | other hscan h =>
      obtain ⟨hrows, hcursor⟩ := NodeTransaction.run_recordedEvents hscan h
      have hcursor' : service.eventCursor db' = service.eventCursor db := by
        rw [RuneBridgeService.eventCursor, hcursor, RuneBridgeService.eventCursor]
      exact ⟨hdb.run h, hcursor', hidle hrows hcursor'⟩

/-- Up to the deepest block asked for, everything is recorded. -/
structure EventsUpTo (service : RuneBridgeService Hash) (history : FinalEvents) (db₀ : Db Hash)
    (tr : List (EventScanAction Hash)) (db : Db Hash) : Prop where
  cursor : service.eventCursor db =
    scannedTo service.config.evmBlockSafetyMargin (service.eventCursor db₀) tr
  /-- The new rows hold the events in between, one each, in order. -/
  recorded : ∃ events,
    InOrder history.feed (fun e e' => RuneTransferToBtcEvent.le e e' = true)
      (service.eventCursor db₀) (service.eventCursor db) events ∧
    db.recordedEvents = db₀.recordedEvents ++ events.map RuneTransferToBtcEvent.recorded

lemma le_scannedTo (margin : ℕ) (start : ℤ) (tr : List (EventScanAction Hash)) :
    start ≤ scannedTo margin start tr := by
  induction tr using List.reverseRecOn with
  | nil => exact le_rfl
  | append_singleton tr a ih =>
      rw [scannedTo_append]
      cases a with
      | scanned head => exact le_max_of_le_left ih
      | failed => exact ih
      | other t => exact ih

lemma EventsUpTo.step (hdb : db.Numbered) (hup : EventsUpTo service history db₀ tr db)
    (h : EventScanStep service history db a db') :
    EventsUpTo service history db₀ (tr ++ [a]) db' := by
  obtain ⟨-, hcursor, events', horder', hrows'⟩ := h.records hdb
  obtain ⟨events, horder, hrows⟩ := hup.recorded
  have hfrom : service.eventCursor db₀ ≤ service.eventCursor db := by
    rw [hup.cursor]
    exact le_scannedTo _ _ _
  have hmono : service.eventCursor db ≤ service.eventCursor db' := by
    rw [hcursor]
    exact le_scannedTo _ _ _
  refine ⟨?_, events ++ events', ?_, ?_⟩
  · rw [hcursor, hup.cursor, scannedTo_append]
    cases a with
    | scanned head => rfl
    | failed => rfl
    | other t => rfl
  · refine horder.append (fun e => (e.blockNumber : ℤ)) history.blockNumber
      (fun e e' hlt => ?_) hfrom hmono horder'
    rw [RuneTransferToBtcEvent.le_iff]
    exact .inl (by exact_mod_cast hlt)
  · rw [hrows', hrows, List.append_assoc, List.map_append]

end Invariant

/-- **Every event is recorded exactly once.**  In every run, after any number of scans that
succeeded or failed, the rows added are the events above the initial cursor, up to the deepest
block asked for: one row each, in order, with the event's rune, receiver and amounts.  The cursor
never decreases, a failed scan changes nothing, and the ranges asked for tile what a scan reads. -/
theorem scan_rune_token_deposits_exactly_once {Hash : Type} {service : RuneBridgeService Hash}
    {history : FinalEvents} {db₀ db : Db Hash} {tr : List (EventScanAction Hash)}
    (hrun : EventScanRun service history db₀ tr db) :
    EventsUpTo service history db₀ tr db ∧
    (∀ a db', EventScanStep service history db a db' →
      service.eventCursor db ≤ service.eventCursor db') ∧
    (∀ db', EventScanStep service history db .failed db' → db' = db) ∧
    ∀ fromBlock toBlock : ℤ, fromBlock ≤ toBlock → ∃ batches : List (ℤ × ℤ),
      (∀ evm : EvmRpc, evm.getEvents 100 toBlock (toBlock + 1 - fromBlock).toNat fromBlock = (do
        let parts ← batches.mapM fun batch => evm.getLogs batch.1 batch.2
        pure parts.flatten)) ∧
      (∀ batch ∈ batches, batch.1 ≤ batch.2 ∧ batch.2 ≤ batch.1 + 100) ∧
      batches.Pairwise (fun batch batch' => batch.2 < batch'.1) ∧
      ∀ block, (fromBlock ≤ block ∧ block ≤ toBlock) ↔
        ∃ batch ∈ batches, batch.1 ≤ block ∧ block ≤ batch.2 := by
  have hinv : db.Numbered ∧ EventsUpTo service history db₀ tr db := by
    refine hrun.invariant (I := fun tr db => db.Numbered ∧ EventsUpTo service history db₀ tr db)
      ?_ ?_
    · rintro _ ⟨rfl, hdb⟩
      exact ⟨hdb, rfl, [], .nil le_rfl, (List.append_nil _).symm⟩
    · intro tr db a db' _ hi hs
      exact ⟨(hs.records hi.1).1, hi.2.step hi.1 hs⟩
  refine ⟨hinv.2, fun a db' hs => ?_, fun db' hs => eq_of_failed hs, fun first last hle => ?_⟩
  · rw [(hs.records hinv.1).2.1]
    exact le_scannedTo _ _ _
  · have htiles := EvmRpc.tiles_eventBatches 100 (by norm_num)
      (by omega : first ≤ last + 1) le_rfl
    refine ⟨_, fun evm => evm.getEvents_eq 100 last _ first, fun batch hbatch => ?_,
      htiles.pairwise, htiles.cover⟩
    exact ⟨(htiles.le_of_mem hbatch).2.1, EvmRpc.eventBatches_le hbatch⟩

/-! ## An example -/

namespace ExampleNode

/-- The events of the example chain. -/
def finalEvents : FinalEvents where
  feed height := if height = 3 then [event] else []
  blockNumber height e he := by
    split at he
    · rename_i h
      rw [List.mem_singleton.1 he, h]
      rfl
    · exact absurd he (by simp)

lemma finalEvents_feed_of_ne {height : ℤ} (h : height ≠ 3) : finalEvents.feed height = [] :=
  if_neg h

lemma finalEvents_seenBy (margin : ℕ) : finalEvents.SeenBy margin evm := by
  intro head _ first last events _ h
  obtain rfl := Except.ok.inj h
  by_cases hin : first ≤ 3 ∧ 3 ≤ last
  · have hbefore : between finalEvents.feed (first - 1) 2 = [] :=
      between_eq_nil fun k _ hle => finalEvents_feed_of_ne (by omega)
    have hafter : between finalEvents.feed 3 last = [] :=
      between_eq_nil fun k hlt _ => finalEvents_feed_of_ne (by omega)
    have hat : between finalEvents.feed 2 3 = [event] := rfl
    rw [if_pos hin, between_append (b := 2) (by omega) (by omega),
      between_append (a := 2) (b := 3) (by omega) (by omega), hbefore, hat, hafter]
    rfl
  · have hnone : between finalEvents.feed (first - 1) last = [] :=
      between_eq_nil fun k hlt hle => finalEvents_feed_of_ne (by omega)
    rw [if_neg hin, hnone]

end ExampleNode

theorem scan_rune_token_deposits_exactly_once_example :
    ∃ db : Db Bytes, EventsUpTo (ExampleNode.service '4' []) ExampleNode.finalEvents Db.empty
      [.scanned 10] db := by
  obtain ⟨⟨n, db⟩, hscan⟩ : ∃ r, (ExampleNode.service '4' []).scanRuneTokenDeposits
      (ExampleNode.views []) Db.empty = .ok r := exists_ok_of_isOk (by decide +kernel)
  have hattempt : (ExampleNode.service '4' []).attemptEventScan
      ⟨ExampleNode.views [], .ok (), .ok ()⟩ Db.empty = (.ok n, db) := by
    rw [RuneBridgeService.attemptEventScan, inTransaction]
    simp only [ok_bind, hscan]
  have hstart : EventScanRun (ExampleNode.service '4' []) ExampleNode.finalEvents Db.empty []
      Db.empty := .init ⟨rfl, .empty⟩
  exact ⟨db, (scan_rune_token_deposits_exactly_once (hstart.step
    (.scanned rfl (ExampleNode.finalEvents_seenBy _) hattempt))).1⟩

end NbteBridge
