import NbteBridge.Contracts.TapRelease
import NbteBridge.TapRsk.OwnSignatures

/-!
# What the contract makes of the leader's calls

Signatures are checked twice: by the leader as they come in, with `recover_message`, and by the
contract with each call.  The leader asks for one fewer than are required, as the contract counts
the caller.

The two do not take the same signatures: `eth_account` recovers from some that `ECDSA.recover`
refuses, those with an `s` in the upper half or a `v` of 0 or 1.  Where the stored signatures are not
of these (`Canonical`), and each transfer goes out with its own, none of them by the leader, the
contract takes them all.  So a call fails for what is wrong with the transfer alone
(`TapWorld.Payable`): its deposit is processed, its asset is not there, or the tokens are not.
-/

namespace NbteBridge

open Checked Effects Tables

namespace TapWorld

/-- What a release needs apart from its signatures. -/
structure Payable (w : TapWorld) (t : TransferFromTap) : Prop where
  unprocessed : w.bridge.isProcessed t.btcTxId t.btcTxVout = false
  paid : ∃ asset rskAmount, w.decodeTransfer t.transferTapAddress = .ok (asset, rskAmount) ∧
    w.externals.safeTransfer asset.rskToken t.to_ rskAmount = true
  counted : w.bridge.numTransfersTotal.toNat + 1 < 2 ^ 256

variable {Hash Sig : Type} {C : Crypto Hash Sig} {w : TapWorld}

/-- **When a release goes through.** -/
lemma acceptTransferFromTap_succeeds_iff {sender : Address} {t : TransferFromTap}
    {signatures : List Sig} :
    (∃ w', w.acceptTransferFromTap C sender t signatures = .ok w') ↔
      sender ∈ w.bridge.federators ∧ w.Payable t ∧
        w.bridge.validateTransferFromTapSignatures C w.self sender t signatures = .ok () := by
  have hone : (1 : Uint256).toNat = 1 := rfl
  simp only [acceptTransferFromTap, bind_eq_ok, exists_unit, require_eq_ok, pure_eq_ok,
    Prod.exists, TapBridge.isFederator_iff, Uint256.add_eq_ok, hone]
  constructor
  · rintro ⟨w', hsender, hunprocessed, asset, rskAmount, hdecoded, hsigned, hpaid, counter,
      hcounter, -⟩
    exact ⟨hsender, ⟨hunprocessed, ⟨asset, rskAmount, hdecoded, hpaid⟩,
      hcounter ▸ counter.isLt⟩, hsigned⟩
  · rintro ⟨hsender, ⟨hunprocessed, ⟨asset, rskAmount, hdecoded, hpaid⟩, hcounted⟩, hsigned⟩
    refine ⟨_, hsender, hunprocessed, asset, rskAmount, hdecoded, hsigned, hpaid,
      BitVec.ofNat 256 (w.bridge.numTransfersTotal.toNat + 1), ?_, rfl⟩
    rw [BitVec.toNat_ofNat, Nat.mod_eq_of_lt hcounted]

end TapWorld

namespace TapLeader

variable {Hash Sig : Type} {C : Crypto Hash Sig} {rskAccount : Address}
  {service : TapToRskService Hash Sig} {bridge : Address} {F : Set Address} {n : ℕ}
  {s : TapLeader Hash Sig} {i : ℕ}

/-- The contract has the federation `F`, and requires at most `n` signers of it. -/
structure Federated (F : Set Address) (n : ℕ) (b : TapBridge) : Prop where
  federators : ∀ a ∈ F, a ≠ 0 ∧ a ∈ b.federators
  required : b.numRequiredSigners.toNat ≤ n

/-- The contract recovers from a signature whom the leader recovers. -/
def Canonical (C : Crypto Hash Sig) (service : TapToRskService Hash Sig) (signature : Sig) : Prop :=
  ∀ hash signer, service.recoverMessage hash signature = .ok signer →
    C.recover (C.toEthSignedMessageHash hash) signature = some signer

/-- Signatures by enough others are taken. -/
lemma validates_of_signs {b : TapBridge} (hb : Federated F n b) {t : TransferFromTap}
    {signatures : List Sig} (hcanonical : ∀ signature ∈ signatures, Canonical C service signature)
    {signers : List Address} (hnodup : signers.Nodup)
    (hothers : ∀ a ∈ signers, a ∈ F \ {rskAccount}) (henough : n ≤ signers.length + 1)
    (hsigns : List.Forall₂ (Signs C service bridge t) signers signatures) :
    b.validateTransferFromTapSignatures C bridge rskAccount t signatures = .ok () := by
  have hleader : rskAccount ∉ signers := fun hmem => (hothers rskAccount hmem).2 rfl
  refine TapBridge.validateTransferFromTapSignatures_eq_ok.2 ⟨signers, ?_, hnodup, ?_⟩
  · obtain ⟨hlength, hpairs⟩ := List.forall₂_iff_zip.1 hsigns.flip
    refine List.forall₂_iff_zip.2 ⟨hlength, fun {signature signer} hpair => ?_⟩
    obtain ⟨hsignature, hsigner⟩ := List.of_mem_zip hpair
    obtain ⟨hnonzero, hfederator⟩ := hb.federators signer (hothers signer hsigner).1
    exact ⟨hcanonical signature hsignature _ _ (hpairs hpair), hnonzero, hfederator⟩
  · rw [List.length_insert_of_not_mem hleader]
    exact hb.required.trans henough

/-- **The leader's calls** go through exactly when their transfers are payable.  Take a batch that
has its signatures, in any run in which the federators are members of `F` and at least `n` signers
are required: some signature and distinct counters, so that each transfer goes out with its own,
all canonical and none by the leader.  Then whenever the contract gets a call, with the federation
still there, it takes the signatures. -/
theorem tap_calls_fail_unpayable_only [DecidableEq Hash]
    {c : Process (TapOp Hash Sig) TapOp.Resp PyError (TapLeader Hash Sig)}
    (h : Running (boundedWorld C rskAccount F n) service.processCurrentTransferBatch
      (fun s => s.Started ∧ Bounded F n s ∧ s.chain.self = bridge) c)
    {b : TapToRskTransferBatch Hash Sig} (hb : c.world.db.batches.get? i = some b)
    (hcollected : b.status = .signaturesCollected) (hsigned : b.signatures.rows ≠ [])
    (hcanonical : ∀ r ∈ b.signatures.rows, ∀ signature ∈ r.2, Canonical C service signature)
    (hleader : rskAccount ∉ b.signatures.keys)
    (hcounters : ((c.world.db.members i).map fun p => p.2.counter).Nodup) (env : ℕ → Ordering) :
    ((callsSent C (TapToRskService.send i b.signatures) env c.world).map Prod.fst).Perm
        ((c.world.db.members i).map fun p => p.2.toTransferFromTap) ∧
      ∀ call ∈ callsSent C (TapToRskService.send i b.signatures) env c.world,
        ∀ w : TapWorld, w.self = bridge → Federated F n w.bridge → rskAccount ∈ F →
          ((∃ w', w.acceptTransferFromTap C rskAccount call.1 call.2 = .ok w') ↔
            w.Payable call.1) := by
  have hothers : ∀ a ∈ b.signatures.keys, a ∈ F → a ∈ F \ {rskAccount} := by
    rintro a ha hmember
    exact ⟨hmember, fun hself => hleader (hself ▸ ha)⟩
  obtain ⟨htransfers, hcalls⟩ := (gathered_of_running h).sentWithOwn hb hcollected hothers
    (.inr ⟨hsigned, hcounters⟩) env
  refine ⟨htransfers, fun call hcall w hself hfederated haccount => ?_⟩
  obtain ⟨signers, hnodup, hsigners, henough, hsigns⟩ := hcalls call hcall
  have hstored : ∀ signature ∈ call.2, Canonical C service signature := by
    intro signature hsignature
    rw [callsSent_send hb] at hcall
    obtain ⟨r, hr, hmem⟩ := exists_of_mem_acceptTransferCalls hcall hsignature
    exact hcanonical r hr signature hmem
  have hvalid := validates_of_signs hfederated hstored hnodup hsigners henough hsigns
  rw [TapWorld.acceptTransferFromTap_succeeds_iff, hself]
  exact ⟨fun hdone => hdone.2.1,
    fun hpayable => ⟨(hfederated.federators rskAccount haccount).2, hpayable, hvalid⟩⟩

/-- The batch of one deposit, for which the bridge has the tokens. -/
theorem tap_calls_fail_unpayable_only_example :
    ∃ (s : TapLeader Bytes (Address × Bytes)) (b : TapToRskTransferBatch Bytes (Address × Bytes))
      (w : TapWorld), s.db.batches.get? 1 = some b ∧
      ∀ env, (callsSent symbolicCrypto (TapToRskService.send 1 b.signatures) env s).length = 1 ∧
        ∀ call ∈ callsSent symbolicCrypto (TapToRskService.send 1 b.signatures) env s,
          ∃ w', w.acceptTransferFromTap symbolicCrypto 4 call.1 call.2 = .ok w' := by
  have heval : (do
      let w ← Example.chain 9000
      let s := (Example.service.processCurrentTransferBatch.eval
        (handle symbolicCrypto [⟨[Example.sign Example.large], 5⟩]) (Example.untilCall 6)
        ⟨Example.scannedOnce, w, []⟩).2
      let released := w.acceptTransferFromTap symbolicCrypto 4 Example.large.toTransferFromTap
        [Example.sign Example.large]
      pure (decide (Example.configured w = true ∧ released.isOk = true ∧
        (s.db.members 1).map (fun p : ℕ × TapToRskTransfer => p.2.toTransferFromTap) =
          [Example.large.toTransferFromTap]), Example.gathered s)) =
        .ok (true, some (true, [5]), [none]) := by
    decide +kernel
  simp only [bind_eq_ok, pure_eq_ok, Prod.mk.injEq, decide_eq_true_eq] at heval
  obtain ⟨w, -, ⟨hconfigured, hreleased, hmembers⟩, hgathered⟩ := heval
  obtain ⟨hbatch, hcounters⟩ := Prod.mk.inj hgathered
  obtain ⟨b, hb, hcollected⟩ := Option.map_eq_some_iff.1 hbatch
  obtain ⟨hstatus, hkeys⟩ := Prod.mk.inj hcollected
  have hsigned : b.signatures.rows ≠ [] := by
    intro hnil
    rw [Table.keys, hnil] at hkeys
    cases hkeys
  have hleader : (4 : Address) ∉ b.signatures.keys := by
    rw [hkeys]
    decide
  obtain ⟨hfederators, hrequired, hself⟩ := of_decide_eq_true hconfigured
  have hfederated : Federated Example.federation 2 w.bridge := by
    refine ⟨?_, by rw [hrequired]; decide⟩
    rw [hfederators]
    rintro a (rfl | rfl) <;> exact ⟨by decide, by decide⟩
  have hpayable : w.Payable Example.large.toTransferFromTap :=
    (TapWorld.acceptTransferFromTap_succeeds_iff.1 (exists_ok_of_isOk hreleased)).2.1
  have hscanned : Example.Runs ⟨⟨Example.scannedOnce, w, []⟩, none⟩ :=
    Example.running_scannedOnce (Example.starts_of_configured hconfigured)
      (Example.moves_of_configured hconfigured)
  have hrun := Example.runs_until (hscanned.step (.start _))
    [⟨[Example.sign Example.large], 5⟩] 6
  refine ⟨_, b, w, hb, fun env => ?_⟩
  have hcanonical : ∀ r ∈ b.signatures.rows, ∀ signature ∈ r.2,
      Canonical symbolicCrypto Example.service signature :=
    fun _ _ _ _ _ _ hrecovered => orError_eq_ok.1 hrecovered
  obtain ⟨htransfers, hcalls⟩ := tap_calls_fail_unpayable_only hrun hb (of_decide_eq_true hstatus)
    hsigned hcanonical hleader (by rw [hcounters]; decide) env
  rw [hmembers] at htransfers
  refine ⟨?_, fun call hcall => (hcalls call hcall w hself hfederated (.inl rfl)).2 ?_⟩
  · rw [← List.length_map, htransfers.length_eq]
    rfl
  · have hmem := htransfers.subset (List.mem_map.2 ⟨call, hcall, rfl⟩)
    rw [List.mem_singleton.1 hmem]
    exact hpayable

end TapLeader

end NbteBridge
