import NbteBridge.Contracts.Reference
import NbteBridge.Contracts.TapBridge
import NbteBridge.Foundations.Lists

/-!
# Releases of the tap bridge

Who can make the tap bridge release tokens, how much, and how often.  The loop over the signatures
accepts exactly the arrays of distinct federators' signatures over the call's own message
(`collectConfirmations_eq_ok`); with the caller they are the approvers.  The message has one part of
variable width between parts of fixed width, so it determines the contract and all four arguments
(`transferFromTapMessage_inj`).  A step either releases, and uses up its outpoint, or moves no token
of the bridge (`step_cases`).
-/

namespace NbteBridge

open Checked Runs

/-! ## The message -/

namespace TapBridge

/-- The packed message determines the contract and the transfer. -/
lemma transferFromTapMessage_inj {self self' : Address} {t t' : TransferFromTap}
    (h : transferFromTapMessage self t = transferFromTapMessage self' t') :
    self = self' ∧ t = t' := by
  unfold transferFromTapMessage at h
  have hself := List.append_inj (List.append_cancel_left h) (by simp)
  have hto := List.append_inj (List.append_cancel_left hself.2) (by simp)
  -- the address is the one part of variable width: what follows it has the same width on both sides
  have haddress := List.append_inj' (List.append_cancel_left hto.2) (by simp)
  have htxid := List.append_inj (List.append_cancel_left haddress.2) (by simp)
  have hvout := List.append_cancel_left htxid.2
  refine ⟨Packed.ofBitVec_injective 20 hself.1, ?_⟩
  cases t
  cases t'
  simp only [TransferFromTap.mk.injEq]
  exact ⟨Packed.ofBitVec_injective 20 hto.1, haddress.1, Packed.ofBitVec_injective 32 htxid.1,
    Packed.ofBitVec_injective 32 hvout⟩

/-! ## The signatures -/

variable {Hash Sig : Type} {C : Crypto Hash Sig} {b : TapBridge}

lemma isFederator_iff {account : Address} :
    b.isFederator account = true ↔ account ∈ b.federators := by
  simp [isFederator]

/-- What one signature of an accepted array recovers to. -/
structure SignedBy (C : Crypto Hash Sig) (b : TapBridge) (hash : Hash) (signature : Sig)
    (signer : Address) : Prop where
  recovered : C.recover hash signature = some signer
  nonzero : signer ≠ 0
  federator : signer ∈ b.federators

lemma map_recover_of_signedBy {hash : Hash} {signatures : List Sig} {signers : List Address}
    (h : List.Forall₂ (SignedBy C b hash) signatures signers) :
    signatures.map (C.recover hash) = signers.map some := by
  induction h with
  | nil => simp
  | cons hby _ ih => rw [List.map_cons, List.map_cons, hby.recovered, ih]

/-- **What the loop accepts.**  One signer for each signature, each a federator it recovers to, with
no repetition among them or with an earlier one; it counts them, and notes the caller. -/
lemma collectConfirmations_eq_ok {hash : Hash} {sender : Address} {seen : List Address}
    {count count' : ℕ} {self self' : Bool} {signatures : List Sig} :
    b.collectConfirmations C hash sender seen count self signatures = .ok (count', self') ↔
      ∃ signers, List.Forall₂ (SignedBy C b hash) signatures signers ∧ signers.Nodup ∧
        (∀ a ∈ signers, a ∉ seen) ∧ count' = count + signers.length ∧
        self' = (self || decide (sender ∈ signers)) := by
  induction signatures generalizing seen count self with
  | nil =>
      simp only [collectConfirmations, pure_eq_ok, Prod.mk.injEq, List.forall₂_nil_left_iff]
      constructor
      · rintro ⟨rfl, rfl⟩
        exact ⟨[], rfl, List.nodup_nil, by simp, by simp, by simp⟩
      · rintro ⟨signers, rfl, -, -, rfl, rfl⟩
        simp
  | cons signature signatures ih =>
      simp only [collectConfirmations, bind_eq_ok, orError_eq_ok, exists_unit, require_eq_ok,
        NBTEBridgeAccessControl.checkNotSeen_eq_ok, isFederator_iff, ih]
      constructor
      · rintro ⟨a, hrec, hnz, hfed, hseen, signers, hall, hnodup, hdisj, rfl, rfl⟩
        refine ⟨a :: signers, .cons ⟨hrec, hnz, hfed⟩ hall, ?_, ?_, ?_, ?_⟩
        · refine List.nodup_cons.2 ⟨?_, hnodup⟩
          intro ha
          exact hdisj a ha (by simp)
        · intro c hc
          rcases List.mem_cons.1 hc with rfl | hc
          · exact hseen
          · exact fun hcs => hdisj c hc (by simp [hcs])
        · rw [List.length_cons]
          omega
        · simp [Bool.or_assoc, eq_comm]
      · rintro ⟨signers, hall, hnodup, hdisj, rfl, rfl⟩
        obtain ⟨a, rest, hs, hrest, rfl⟩ := List.forall₂_cons_left_iff.1 hall
        obtain ⟨hfresh, hnodup⟩ := List.nodup_cons.1 hnodup
        refine ⟨a, hs.recovered, hs.nonzero, hs.federator, hdisj a (by simp), rest, hrest, hnodup,
          ?_, ?_, ?_⟩
        · intro c hc hcs
          rcases List.mem_append.1 hcs with hcs | hcs
          · exact hdisj c (by simp [hc]) hcs
          · rw [List.mem_singleton] at hcs
            exact hfresh (hcs ▸ hc)
        · rw [List.length_cons]
          omega
        · simp [Bool.or_assoc, eq_comm]

/-- **What the check accepts**: the signers with the caller are enough. -/
lemma validateTransferFromTapSignatures_eq_ok {self sender : Address} {t : TransferFromTap}
    {signatures : List Sig} {u : Unit} :
    b.validateTransferFromTapSignatures C self sender t signatures = .ok u ↔
      ∃ signers, List.Forall₂
          (SignedBy C b (C.toEthSignedMessageHash (getTransferFromTapMessageHash C self t)))
          signatures signers ∧ signers.Nodup ∧
        b.numRequiredSigners.toNat ≤ (signers.insert sender).length := by
  have hcount : ∀ signers : List Address, (signers.insert sender).length =
      if decide (sender ∈ signers) = true then 0 + signers.length
      else 0 + signers.length + 1 := by
    intro signers
    by_cases hmem : sender ∈ signers
    · rw [List.length_insert_of_mem hmem, if_pos (by simpa using hmem), Nat.zero_add]
    · rw [List.length_insert_of_not_mem hmem, if_neg (by simpa using hmem), Nat.zero_add]
  simp only [validateTransferFromTapSignatures, bind_eq_ok, Prod.exists,
    collectConfirmations_eq_ok, require_eq_ok, hcount]
  constructor
  · rintro ⟨count, self', ⟨signers, hall, hnodup, -, rfl, rfl⟩, henough⟩
    exact ⟨signers, hall, hnodup, by simpa using henough⟩
  · rintro ⟨signers, hall, hnodup, henough⟩
    exact ⟨_, _, ⟨signers, hall, hnodup, by simp, rfl, rfl⟩, by simpa using henough⟩

end TapBridge

/-- The outpoint a call accepts a deposit for. -/
def TapCall.outpoint {Sig : Type} : TapCall Sig → Option (Bytes32 × Uint256)
  | .acceptTransferFromTap t _ => some (t.btcTxId, t.btcTxVout)
  | _ => none

/-- The outpoints accepted in a run, oldest first. -/
def acceptedOutpoints {Sig : Type} (tr : List (Address × TapCall Sig)) :
    List (Bytes32 × Uint256) :=
  tr.filterMap fun a => a.2.outpoint

namespace TapWorld

variable {Hash Sig : Type} {C : Crypto Hash Sig} {F : Set Address} {signed : Sig → Address × Hash}
  {w w' : TapWorld} {sender : Address}

/-! ## What a step can do -/

/-- The tokens a transfer is worth, by the assets registered now, and their release. -/
structure Released (w w' : TapWorld) (t : TransferFromTap) : Prop where
  released : ∃ decoded asset amount,
    w.bridge.tapUtils.decodeTapAddress t.transferTapAddress = .ok decoded ∧
    asset = w.bridge.assetsByTaprootAssetId decoded.assetId ∧ asset.rskToken ≠ 0 ∧
    amount.toNat = decoded.amount.toNat * asset.tapAmountDivisor.toNat ∧ 0 < amount.toNat ∧
    w'.released = w.released ++ [⟨asset.rskToken, t.to_, amount⟩]

/-- The bridge has released nothing and looked at no deposit. -/
structure Unreleased (w w' : TapWorld) : Prop where
  released : w'.released = w.released
  processed : w'.bridge.processedByBtcTxIdAndVout = w.bridge.processedByBtcTxIdAndVout

lemma decodeTransfer_eq_ok {tapAddress : Bytes} {asset : BridgeableAsset} {amount : Uint256} :
    w.decodeTransfer tapAddress = .ok (asset, amount) ↔
      ∃ decoded, w.bridge.tapUtils.decodeTapAddress tapAddress = .ok decoded ∧
        asset = w.bridge.assetsByTaprootAssetId decoded.assetId ∧ asset.rskToken ≠ 0 ∧
        amount.toNat = decoded.amount.toNat * asset.tapAmountDivisor.toNat ∧ 0 < amount.toNat := by
  have hwidth : ∀ n : Uint64, (n.setWidth 256).toNat = n.toNat := by
    intro n
    rw [BitVec.toNat_setWidth, Nat.mod_eq_of_lt (n.isLt.trans (by norm_num))]
  simp only [decodeTransfer, bind_eq_ok, exists_unit, require_eq_ok, Uint256.mul_eq_ok,
    pure_eq_ok, Prod.mk.injEq, hwidth]
  constructor
  · rintro ⟨decoded, hdecoded, hasset, amount', hamount, hpos, rfl, rfl⟩
    exact ⟨decoded, hdecoded, rfl, hasset, hamount, hpos⟩
  · rintro ⟨decoded, hdecoded, rfl, hasset, hamount, hpos⟩
    exact ⟨decoded, hdecoded, hasset, amount, hamount, hpos, rfl, rfl⟩

/-- What `acceptTransferFromTap` requires, and what it changes. -/
lemma acceptTransferFromTap_effect {t : TransferFromTap} {signatures : List Sig}
    (h : w.acceptTransferFromTap C sender t signatures = .ok w') :
    w.bridge.isFederator sender = true ∧
      w.bridge.isProcessed t.btcTxId t.btcTxVout = false ∧
      w.bridge.validateTransferFromTapSignatures C w.self sender t signatures = .ok () ∧
      Released w w' t ∧
      w'.bridge.processedByBtcTxIdAndVout = Function.update w.bridge.processedByBtcTxIdAndVout
        t.btcTxId
        (Function.update (w.bridge.processedByBtcTxIdAndVout t.btcTxId) t.btcTxVout true) := by
  simp only [acceptTransferFromTap, bind_eq_ok, exists_unit, require_eq_ok, pure_eq_ok,
    Prod.exists] at h
  obtain ⟨hfederator, hfree, asset, amount, hdecode, hsigned, -, counter, -, rfl⟩ := h
  obtain ⟨decoded, hdecoded, hasset, hne, hamount, hpos⟩ := decodeTransfer_eq_ok.1 hdecode
  exact ⟨hfederator, hfree, hsigned,
    ⟨decoded, asset, amount, hdecoded, hasset, hne, hamount, hpos, rfl⟩, rfl⟩

/-- **One step of the bridge.**  It is an accepted transfer, or moves no token of the bridge. -/
lemma step_cases {call : TapCall Sig} (h : Step C w (sender, call) w') :
    (∃ t signatures, call = .acceptTransferFromTap t signatures ∧
      w.acceptTransferFromTap C sender t signatures = .ok w') ∨
    (call.outpoint = none ∧ Unreleased w w') := by
  cases call with
  | acceptTransferFromTap t signatures => exact .inl ⟨t, signatures, rfl, h⟩
  | transferToTap receiverTapAddress =>
      simp only [Step, step, transferToTap, bind_eq_ok, exists_unit, Prod.exists,
        pure_eq_ok] at h
      obtain ⟨asset, amount, -, -, counter, -, rfl⟩ := h
      exact .inr ⟨rfl, rfl, rfl⟩
  | addBridgeableAsset asset =>
      simp only [Step, step, TapBridge.addBridgeableAsset, bind_eq_ok, exists_unit,
        pure_eq_ok] at h
      obtain ⟨-, b, ⟨-, -, -, -, -, rfl⟩, rfl⟩ := h
      exact .inr ⟨rfl, rfl, rfl⟩
  | removeBridgeableAsset rskTokenAddress =>
      simp only [Step, step, TapBridge.removeBridgeableAsset, bind_eq_ok, exists_unit,
        pure_eq_ok, Prod.exists, Prod.mk.injEq] at h
      obtain ⟨-, b, asset, ⟨-, rfl, -⟩, rfl⟩ := h
      exact .inr ⟨rfl, rfl, rfl⟩
  | addFederator account =>
      simp only [Step, step, TapBridge.addFederator, bind_eq_ok, exists_unit, pure_eq_ok] at h
      obtain ⟨-, b, ⟨-, rfl⟩, rfl⟩ := h
      exact .inr ⟨rfl, rfl, rfl⟩
  | removeFederator account =>
      simp only [Step, step, TapBridge.removeFederator, bind_eq_ok, exists_unit, pure_eq_ok] at h
      obtain ⟨-, b, ⟨-, rfl⟩, rfl⟩ := h
      exact .inr ⟨rfl, rfl, rfl⟩
  | setNumRequiredSigners numRequiredSigners =>
      simp only [Step, step, TapBridge.setNumRequiredSigners, bind_eq_ok, exists_unit,
        pure_eq_ok] at h
      obtain ⟨-, b, ⟨-, rfl⟩, rfl⟩ := h
      exact .inr ⟨rfl, rfl, rfl⟩
  | setTapUtils tapUtils =>
      simp only [Step, step, bind_eq_ok, exists_unit, pure_eq_ok] at h
      obtain ⟨-, rfl⟩ := h
      exact .inr ⟨rfl, rfl, rfl⟩
  | transferOwnership newOwner =>
      simp only [Step, step, bind_eq_ok, exists_unit, pure_eq_ok] at h
      obtain ⟨-, -, rfl⟩ := h
      exact .inr ⟨rfl, rfl, rfl⟩
  | renounceOwnership =>
      simp only [Step, step, bind_eq_ok, exists_unit, pure_eq_ok] at h
      obtain ⟨-, rfl⟩ := h
      exact .inr ⟨rfl, rfl, rfl⟩
  | externalsChange externals =>
      simp only [Step, step, pure_eq_ok] at h
      obtain rfl := h
      exact .inr ⟨rfl, rfl, rfl⟩

/-! ## Each outpoint once -/

/-- What was accepted is what is processed, each once and with a release of its own. -/
structure Accounted (tr : List (Address × TapCall Sig)) (w : TapWorld) : Prop where
  nodup : (acceptedOutpoints tr).Nodup
  processed : ∀ txId vout, w.bridge.isProcessed txId vout = true ↔
    (txId, vout) ∈ acceptedOutpoints tr
  released : w.released.length = (acceptedOutpoints tr).length

lemma accounted_of_run {tr : List (Address × TapCall Sig)} (h : TapRun C tr w) :
    Accounted tr w := by
  refine h.invariant (I := fun tr w => Accounted tr w) ?_ ?_
  · rintro w ⟨sender, tapUtils, numRequiredSigners, federators, hconstruct, hreleased, -⟩
    simp only [TapBridge.construct, bind_eq_ok, exists_unit, pure_eq_ok] at hconstruct
    obtain ⟨-, -, -, hbridge⟩ := hconstruct
    refine ⟨List.nodup_nil, ?_, by rw [hreleased]; rfl⟩
    intro txId vout
    simp [TapBridge.isProcessed, ← hbridge, acceptedOutpoints]
  · rintro tr w ⟨sender, call⟩ w' - hw hs
    have happend : acceptedOutpoints (tr ++ [(sender, call)]) =
        acceptedOutpoints tr ++ call.outpoint.toList := by
      cases hcall : call.outpoint <;> simp [acceptedOutpoints, hcall]
    rcases step_cases hs with ⟨t, signatures, rfl, haccept⟩ | ⟨hnone, hkept⟩
    · obtain ⟨-, hfree, -, ⟨decoded, asset, amount, -, -, -, -, -, hreleased⟩, hprocessed⟩ :=
        acceptTransferFromTap_effect haccept
      have hnew : (t.btcTxId, t.btcTxVout) ∉ acceptedOutpoints tr := by
        intro hold
        rw [(hw.processed _ _).2 hold] at hfree
        exact absurd hfree (by simp)
      constructor
      · rw [happend]
        exact List.Nodup.append hw.nodup (List.nodup_singleton _)
          (by simpa [TapCall.outpoint] using hnew)
      · intro txId vout
        rw [happend, List.mem_append, ← hw.processed, TapBridge.isProcessed, hprocessed]
        simp only [TapCall.outpoint, Option.toList_some, List.mem_singleton, Prod.mk.injEq]
        by_cases htxId : txId = t.btcTxId
        · subst htxId
          by_cases hvout : vout = t.btcTxVout
          · simp [hvout]
          · simp [hvout, TapBridge.isProcessed]
        · simp [htxId, TapBridge.isProcessed]
      · rw [hreleased, happend, List.length_append, List.length_append, hw.released]
        simp [TapCall.outpoint]
    · rw [hnone, Option.toList_none, List.append_nil] at happend
      refine ⟨by rw [happend]; exact hw.nodup, ?_,
        by rw [happend, hkept.released]; exact hw.released⟩
      intro txId vout
      rw [happend, ← hw.processed, TapBridge.isProcessed, TapBridge.isProcessed, hkept.processed]

/-! ## Who approves -/

/-- The approvals a transfer was released with: distinct federators, the caller among them, each
other by a signature over the transfer's own message, which is no other transfer's. -/
structure Approved (signed : Sig → Address × Hash) (C : Crypto Hash Sig) (w : TapWorld)
    (sender : Address) (t : TransferFromTap) (signatures : List Sig) : Prop where
  caller : sender ∈ w.bridge.federators
  approvers : ∃ approvers : List Address, approvers.Nodup ∧ sender ∈ approvers ∧
    max 1 w.bridge.numRequiredSigners.toNat ≤ approvers.length ∧
    ∀ a ∈ approvers, a ∈ w.bridge.federators ∧ (a = sender ∨ ∃ s ∈ signatures,
      signed s = (a, C.toEthSignedMessageHash
        (TapBridge.getTransferFromTapMessageHash C w.self t)))
  exact_ : ∀ self' t', C.toEthSignedMessageHash
      (TapBridge.getTransferFromTapMessageHash C self' t') =
    C.toEthSignedMessageHash (TapBridge.getTransferFromTapMessageHash C w.self t) →
    self' = w.self ∧ t' = t

/-- An array with a signature that recovers to no federator, or with two that recover alike. -/
def IllSigned (C : Crypto Hash Sig) (w : TapWorld) (t : TransferFromTap)
    (signatures : List Sig) : Prop :=
  let recover := C.recover
    (C.toEthSignedMessageHash (TapBridge.getTransferFromTapMessageHash C w.self t))
  (∃ s ∈ signatures, ∀ a, recover s = some a → a ∉ w.bridge.federators) ∨
    ¬ (signatures.map recover).Nodup

lemma approved_of_accept (hC : C.Ideal F signed) (hF : ∀ a ∈ w.bridge.federators, a ∈ F)
    {t : TransferFromTap} {signatures : List Sig}
    (h : w.acceptTransferFromTap C sender t signatures = .ok w') :
    Approved signed C w sender t signatures := by
  obtain ⟨hfederator, -, hchecked, -, -⟩ := acceptTransferFromTap_effect h
  have hcaller := TapBridge.isFederator_iff.1 hfederator
  obtain ⟨signers, hall, hnodup, henough⟩ :=
    TapBridge.validateTransferFromTapSignatures_eq_ok.1 hchecked
  refine ⟨hcaller, ⟨signers.insert sender, hnodup.insert, List.mem_insert_self, ?_, ?_⟩, ?_⟩
  · apply max_le
    · exact List.length_pos_iff.2 (List.ne_nil_of_mem List.mem_insert_self)
    · exact henough
  · intro a ha
    rcases List.mem_insert_iff.1 ha with rfl | ha
    · exact ⟨hcaller, .inl rfl⟩
    · obtain ⟨s, hs, hby⟩ := Lists.exists_left_of_forall₂ hall ha
      exact ⟨hby.federator, .inr ⟨s, hs, hC.recover_signed _ _ _ (hF a hby.federator)
        hby.recovered⟩⟩
  · intro self' t' hsame
    exact TapBridge.transferFromTapMessage_inj
      (hC.keccak256_injective (hC.toEthSignedMessageHash_injective hsame))

lemma not_accept_of_illSigned {t : TransferFromTap} {signatures : List Sig}
    (hill : IllSigned C w t signatures) :
    w.acceptTransferFromTap C sender t signatures ≠ .ok w' := by
  intro h
  obtain ⟨-, -, hchecked, -, -⟩ := acceptTransferFromTap_effect h
  obtain ⟨signers, hall, hnodup, -⟩ :=
    TapBridge.validateTransferFromTapSignatures_eq_ok.1 hchecked
  rcases hill with ⟨s, hs, hforeign⟩ | hrepeated
  · obtain ⟨a, -, hby⟩ := Lists.exists_right_of_forall₂ hall hs
    exact hforeign a hby.recovered hby.federator
  · apply hrepeated
    rw [TapBridge.map_recover_of_signedBy hall]
    exact hnodup.map (Option.some_injective _)

/-- **Tap release authorisation.**  After any run the outpoints accepted so far are distinct, one for
each release; and a further step releases nothing, or is one accepted transfer of a new outpoint,
approved by the caller and enough further federators, that releases exactly its value.  An array with
an ill signature releases nothing.  The federators are among the addresses `F`, whose signatures
nobody else can make. -/
theorem tap_release_authorised (hC : C.Ideal F signed) {tr : List (Address × TapCall Sig)}
    (h : TapRun C tr w) (hF : ∀ a ∈ w.bridge.federators, a ∈ F) :
    ((acceptedOutpoints tr).Nodup ∧ w.released.length = (acceptedOutpoints tr).length) ∧
    (∀ sender call w', Step C w (sender, call) w' →
      w'.released = w.released ∧ call.outpoint = none ∨
      ∃ t signatures, call = .acceptTransferFromTap t signatures ∧
        (t.btcTxId, t.btcTxVout) ∉ acceptedOutpoints tr ∧
        Approved signed C w sender t signatures ∧ Released w w' t) ∧
    ∀ sender t signatures, IllSigned C w t signatures →
      ∀ w', ¬ Step C w (sender, .acceptTransferFromTap t signatures) w' := by
  have hw := accounted_of_run h
  refine ⟨⟨hw.nodup, hw.released⟩, ?_, ?_⟩
  · intro sender call w' hs
    rcases step_cases hs with ⟨t, signatures, rfl, haccept⟩ | ⟨hnone, hkept⟩
    · right
      obtain ⟨-, hfree, -, hreleased, -⟩ := acceptTransferFromTap_effect haccept
      refine ⟨t, signatures, rfl, ?_, approved_of_accept hC hF haccept, hreleased⟩
      intro hold
      rw [(hw.processed _ _).2 hold] at hfree
      exact absurd hfree (by simp)
    · exact .inl ⟨hkept.released, hnone⟩
  · intro sender t signatures hill w' hs
    exact not_accept_of_illSigned hill hs

/-! ## An example -/

namespace Example

/-- The contract at address 1 of the federators 4 and 5, around a bridge. -/
def world (b : TapBridge) : TapWorld where
  self := 1
  bridge := b
  externals := ⟨fun _ _ _ => true, fun _ _ _ => true⟩
  released := []
  logs := [.federatorAdded 4, .federatorAdded 5]

/-- The asset 7 as the token at address 20, three units of it for one. -/
def asset : BridgeableAsset := ⟨20, 7, 3, false, []⟩

/-- A deposit of a thousand units of the asset 7, for the receiver at address 11. -/
def transfer : TransferFromTap where
  to_ := 11
  transferTapAddress := Packed.ascii
    "taprt1qssqqqqqqqqqqqqqqqqqqqqqqqqqqqqqqqqqqqqqqqqqqqqqqqqqqpc2q07s86q398wrm"
  btcTxId := 77
  btcTxVout := 0

/-- The signature of the federator 5. -/
def signature : Address × Bytes :=
  (5, symbolicCrypto.toEthSignedMessageHash
    (TapBridge.getTransferFromTapMessageHash symbolicCrypto 1 transfer))

end Example

/-- The federator 4 releases the tokens of the deposit with the signature of the federator 5. -/
theorem tap_release_authorised_example :
    ∃ w w' : TapWorld,
      Step symbolicCrypto w (4, .acceptTransferFromTap Example.transfer [Example.signature]) w' ∧
      w'.released = [⟨20, 11, 3000⟩] ∧
      Approved id symbolicCrypto w 4 Example.transfer [Example.signature] := by
  have heval : (do
      let b ← TapBridge.construct 9 ⟨Packed.ascii "taprt"⟩ 2 [4, 5]
      let w ← (Example.world b).step symbolicCrypto 9 (.addBridgeableAsset Example.asset)
      let w' ← w.step symbolicCrypto 4 (.acceptTransferFromTap Example.transfer [Example.signature])
      pure w'.released) = .ok [⟨20, 11, 3000⟩] := by
    decide +kernel
  simp only [bind_eq_ok, pure_eq_ok] at heval
  obtain ⟨b, hb, w, hw, w', hw', hreleased⟩ := heval
  have hrun : TapRun symbolicCrypto ([] ++ [(9, .addBridgeableAsset Example.asset)]) w :=
    .step (.init ⟨9, _, 2, [4, 5], hb, rfl, rfl⟩) hw
  obtain ⟨-, hsteps, -⟩ := tap_release_authorised symbolicCrypto_ideal hrun fun a _ =>
    Set.mem_univ a
  refine ⟨w, w', hw', hreleased, ?_⟩
  rcases hsteps _ _ _ hw' with ⟨-, hnone⟩ | ⟨t, signatures, hcall, -, happroved, -⟩
  · exact absurd hnone (by simp [TapCall.outpoint])
  · obtain ⟨rfl, rfl⟩ := TapCall.acceptTransferFromTap.inj hcall
    exact happroved

end TapWorld

end NbteBridge
