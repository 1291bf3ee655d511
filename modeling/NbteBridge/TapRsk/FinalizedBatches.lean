import NbteBridge.TapRsk.Batches
import NbteBridge.TapRsk.Reference

/-!
# Finalized batches

A finalized batch is paid when the leader finds the batch's last transaction successful only after
the others are settled.  The leader looks at no other transaction than the last, so without this a
batch is finalized although the bridge has refused some of its transfers.
-/

namespace NbteBridge

open Checked Effects Tables

namespace TapLeader

variable {Hash Sig : Type} {C : Crypto Hash Sig} {rskAccount : Address} {s : TapLeader Hash Sig}

lemma sound_of_started (h : s.Started) : Sound s := by
  obtain ⟨hdb, hsent⟩ := h
  constructor
  · intro i b hb
    rw [hdb] at hb
    cases hb
  · intro i hi
    rw [hdb] at hi
    exact absurd rfl hi
  · intro tx htx
    rw [hsent] at htx
    cases htx

/-- **Finalized batches are paid.**  When the last transaction sent for a batch is found to have
succeeded only after the others are settled, then in every state of every run each transfer of a
finalized batch has been accepted by the bridge. -/
theorem finalized_batches_paid [DecidableEq Hash] {service : TapToRskService Hash Sig}
    {c : Process (TapOp Hash Sig) TapOp.Resp PyError (TapLeader Hash Sig)}
    (h : Running (foundSettledWorld C rskAccount) service.processCurrentTransferBatch Started c)
    {batchId : ℕ} {batch : TapToRskTransferBatch Hash Sig}
    (hbatch : c.world.db.batches.get? batchId = some batch)
    (hfinalized : batch.status = .finalized) :
    ∀ p ∈ c.world.db.members batchId,
      c.world.chain.bridge.isProcessed p.2.depositBtcTxId p.2.depositBtcTxVout = true := by
  have hs : Sound c.world := by
    apply h.invariant
    · exact fun s hs => sound_of_started hs
    · exact fun s s' hs hmove => Moves.sound hmove hs
    · intro s hs
      apply Holds.mono (keeps_processCurrentTransferBatch hs)
      exact fun _ _ _ => trivial
  exact (hs.batch _ _ hbatch).finalized hfinalized

/-! ## An example -/

namespace Example

/-- The leader, a federator at address 4. -/
def service : TapToRskService Bytes (Address × Bytes) where
  keccak := ⟨id, id⟩
  recoverMessage h s := orError (symbolicCrypto.recover (symbolicCrypto.toEthSignedMessageHash h) s)
    (.other "invalid signature")
  batchLimit := 10

/-- Two thousand units of the asset 7, for the receiver at address 12. -/
def large : TapToRskTransfer where
  counter := none
  depositAddress := ⟨12, Packed.ascii
    "taprt1qssqqqqqqqqqqqqqqqqqqqqqqqqqqqqqqqqqqqqqqqqqqqqqqqqqqpc2q07s05qfh4ndf"⟩
  depositBtcTxId := 66
  depositBtcTxVout := 0
  transferBatchId := none

/-- A thousand units, for the receiver at address 11. -/
def small : TapToRskTransfer where
  counter := none
  depositAddress := ⟨11, TapWorld.Example.transfer.transferTapAddress⟩
  depositBtcTxId := 77
  depositBtcTxVout := 0
  transferBatchId := none

/-- The signature of the federator 5. -/
def sign (t : TapToRskTransfer) : Address × Bytes :=
  (5, symbolicCrypto.toEthSignedMessageHash
    (TapBridge.getTransferFromTapMessageHash symbolicCrypto 1 t.toTransferFromTap))

/-- The contract, where the bridge holds this many tokens. -/
def chain (balance : ℕ) : PyResult TapWorld :=
  match (do
    let b ← TapBridge.construct 9 ⟨Packed.ascii "taprt"⟩ 2 [4, 5]
    let w ← (TapWorld.Example.world b).step symbolicCrypto 9
      (.addBridgeableAsset TapWorld.Example.asset)
    pure { w with externals := ⟨fun _ _ amount => decide (amount.toNat ≤ balance),
      fun _ _ _ => true⟩ } : Result TapWorld) with
  | .ok w => .ok w
  | .error e => .error (.other e)

/-- The database after the scan of the first deposit, and of both. -/
def scannedOnce : TapDb Bytes (Address × Bytes) := TapDb.empty.setTransfer 1 large

def scanned (w : TapWorld) : TapLeader Bytes (Address × Bytes) where
  db := scannedOnce.setTransfer 2 small
  chain := w
  sent := []

/-- The answer of the federator 5. -/
def answer : SignTransferBatchAnswer (Address × Bytes) := ⟨[sign large, sign small], 5⟩

/-- Whether the batch is finalized, and which of its transfers are paid. -/
def outcome (s : TapLeader Bytes (Address × Bytes)) : Option Bool × List Bool :=
  ((s.db.batches.get? 1).map fun b => decide (b.status = .finalized),
    (s.db.members 1).map fun p =>
      s.chain.bridge.isProcessed p.2.depositBtcTxId p.2.depositBtcTxVout)

/-- Transactions are found to have succeeded when all have. -/
def allSucceeded (s : TapLeader Bytes (Address × Bytes)) :
    (o : TapOp Bytes (Address × Bytes)) → o.Resp → Bool
  | .waitForTransactionReceipt _, _ => s.sent.all fun tx => decide (tx.receipt = some true)
  | _, _ => true

section Scans

variable {W : Effects.World (TapOp Bytes (Address × Bytes)) TapOp.Resp PyError
    (TapLeader Bytes (Address × Bytes))} {main : TapProg Bytes (Address × Bytes) Unit}
  {Init : TapLeader Bytes (Address × Bytes) → Prop} {w : TapWorld}

lemma running_scannedOnce (hinit : Init ⟨.empty, w, []⟩)
    (hmoves : ∀ s s', s'.chain = w → Moves symbolicCrypto 4 s s' → W.Moves s s') :
    Running W main Init ⟨⟨scannedOnce, w, []⟩, none⟩ := by
  have hlarge : Moves symbolicCrypto 4 ⟨.empty, w, []⟩ ⟨scannedOnce, w, []⟩ := by
    refine .deposited rfl rfl ?_
    intro p hp
    cases hp
  exact .step (.init hinit) (.move (hmoves _ _ rfl hlarge) none)

lemma running_scanned (hinit : Init ⟨.empty, w, []⟩)
    (hmoves : ∀ s s', s'.chain = w → Moves symbolicCrypto 4 s s' → W.Moves s s') :
    Running W main Init ⟨scanned w, some main⟩ := by
  have hnew : scannedOnce.transfers.get? 2 = none := by decide
  have hunseen : ∀ p ∈ scannedOnce.transfers.rows, p.2.outpoint ≠ small.outpoint := by decide
  have hsmall : Moves symbolicCrypto 4 ⟨scannedOnce, w, []⟩ (scanned w) :=
    .deposited hnew rfl hunseen
  exact .step (.step (running_scannedOnce hinit hmoves) (.move (hmoves _ _ rfl hsmall) none))
    (.start _)

end Scans

lemma outcome_eq {s : TapLeader Bytes (Address × Bytes)} {paid : List Bool}
    (h : outcome s = (some true, paid)) :
    (∃ batch, s.db.batches.get? 1 = some batch ∧ batch.status = .finalized) ∧
      (s.db.members 1).map (fun p =>
        s.chain.bridge.isProcessed p.2.depositBtcTxId p.2.depositBtcTxVout) = paid := by
  obtain ⟨hfinalized, hpaid⟩ := Prod.mk.inj h
  obtain ⟨batch, hbatch, hstatus⟩ := Option.map_eq_some_iff.1 hfinalized
  exact ⟨⟨batch, hbatch, by simpa using hstatus⟩, hpaid⟩

end Example

/-- The bridge holds enough for both deposits, and the batch of both is finalized. -/
theorem finalized_batches_paid_example :
    ∃ s : TapLeader Bytes (Address × Bytes), (s.db.members 1).length = 2 ∧
      (∃ batch, s.db.batches.get? 1 = some batch ∧ batch.status = .finalized) ∧
      ∀ p ∈ s.db.members 1,
        s.chain.bridge.isProcessed p.2.depositBtcTxId p.2.depositBtcTxVout = true := by
  have heval : (do
      let w ← Example.chain 9000
      let s ← execute symbolicCrypto 4 [Example.answer] Example.allSucceeded
        Example.service.processCurrentTransferBatch (Example.scanned w)
      pure (Example.outcome s)) = .ok (some true, [true, true]) := by
    decide +kernel
  simp only [bind_eq_ok, pure_eq_ok] at heval
  obtain ⟨w, -, s, hs, houtcome⟩ := heval
  obtain ⟨⟨batch, hbatch, hfinalized⟩, hmembers⟩ := Example.outcome_eq houtcome
  have hsettled : ∀ (s : TapLeader Bytes (Address × Bytes)) o r,
      Example.allSucceeded s o r = true → FoundSettled s o (.ok r) := by
    intro s o r hall
    cases o with
    | waitForTransactionReceipt txHash =>
        intro _ _ _ _ _ tx htx _
        exact .inl (by simpa using List.all_eq_true.1 hall tx htx)
    | _ => trivial
  have hscanned : Running (foundSettledWorld symbolicCrypto 4)
      Example.service.processCurrentTransferBatch Started ⟨Example.scanned w, some _⟩ :=
    Example.running_scanned ⟨rfl, rfl⟩ fun _ _ _ h => h
  have hrun := running_execute hsettled hs hscanned
  refine ⟨s, ?_, ⟨batch, hbatch, hfinalized⟩, finalized_batches_paid hrun hbatch hfinalized⟩
  rw [← List.length_map, hmembers]
  rfl

/-- The bridge holds enough for the second deposit only.  The transaction for the first is reverted,
and the batch is finalized all the same. -/
theorem finalized_batch_unpaid :
    ∃ c : Process (TapOp Bytes (Address × Bytes)) TapOp.Resp PyError
        (TapLeader Bytes (Address × Bytes)),
      Running (world symbolicCrypto 4) Example.service.processCurrentTransferBatch Started c ∧
      (∃ batch, c.world.db.batches.get? 1 = some batch ∧ batch.status = .finalized) ∧
      ∃ p ∈ c.world.db.members 1,
        c.world.chain.bridge.isProcessed p.2.depositBtcTxId p.2.depositBtcTxVout = false := by
  have heval : (do
      let w ← Example.chain 5000
      let s ← execute symbolicCrypto 4 [Example.answer] (fun _ _ _ => true)
        Example.service.processCurrentTransferBatch (Example.scanned w)
      pure (Example.outcome s)) = .ok (some true, [false, true]) := by
    decide +kernel
  simp only [bind_eq_ok, pure_eq_ok] at heval
  obtain ⟨w, -, s, hs, houtcome⟩ := heval
  obtain ⟨hfinalized, hmembers⟩ := Example.outcome_eq houtcome
  have hrun : Running ((world symbolicCrypto 4).when fun _ _ _ => True)
      Example.service.processCurrentTransferBatch Started ⟨s, none⟩ :=
    running_execute (fun _ _ _ _ => trivial) hs (Example.running_scanned ⟨rfl, rfl⟩ fun _ _ _ h => h)
  refine ⟨_, hrun.of_when, hfinalized, ?_⟩
  have hmem : false ∈ (s.db.members 1).map (fun p =>
      s.chain.bridge.isProcessed p.2.depositBtcTxId p.2.depositBtcTxVout) := by
    rw [hmembers]
    exact List.mem_cons_self
  exact List.mem_map.1 hmem

end TapLeader

end NbteBridge
