import NbteBridge.Contracts.TapLists

/-!
# Quotes

What an address is worth while its asset stays listed.  A step that neither removes the asset nor
sets other utilities keeps a quote (`TapQuote.step`), and an accepted transfer for the address
releases exactly what was quoted (`TapQuote.released`).
-/

namespace NbteBridge

open Checked

/-- What a transfer of tokens is worth. -/
def TokenTransfer.value (r : TokenTransfer) : Address × Address × ℤ :=
  (r.token, r.to_, r.amount.toNat)

/-- An address of a listed asset, whose amount of assets is worth this amount of this token. -/
structure TapQuote (b : TapBridge) (tapAddress : Bytes) (token : Address) (amount : ℤ) : Prop where
  worth : ∃ asset ∈ b.assets, ∃ decoded, b.tapUtils.decodeTapAddress tapAddress = .ok decoded ∧
    decoded.assetId = asset.tapAssetId ∧ asset.rskToken = token ∧
    amount = decoded.amount.toNat * asset.tapAmountDivisor.toNat

/-- A call that leaves what is quoted in a token as it is. -/
def TapCall.KeepsQuotes {Sig : Type} (token : Address) : TapCall Sig → Prop
  | .removeBridgeableAsset rskTokenAddress => rskTokenAddress ≠ token
  | .setTapUtils _ => False
  | _ => True

namespace TapWorld

variable {Hash Sig : Type} {C : Crypto Hash Sig} {w w' : TapWorld} {sender : Address}
  {call : TapCall Sig}

/-- **A listed asset stays listed** unless it is removed. -/
lemma mem_assets_of_step (hw : w.bridge.AssetsAgree) (h : Step C w (sender, call) w')
    {asset : BridgeableAsset} (hasset : asset ∈ w.bridge.assets)
    (hkeeps : call.KeepsQuotes asset.rskToken) : asset ∈ w'.bridge.assets := by
  cases listChange_of_step h with
  | addBridgeableAsset hb =>
      obtain ⟨-, -, -, heq⟩ := (TapBridge.addBridgeableAsset_eq_ok hw).1 hb
      rw [← heq]
      exact List.mem_append_left _ hasset
  | @removeBridgeableAsset token removed hb =>
      obtain ⟨htoken, hperm, -, -⟩ := TapBridge.removeBridgeableAsset_effect hw hb
      have hmem := hperm.mem_iff.2 hasset
      rcases List.mem_cons.1 hmem with rfl | hmem
      · exact absurd htoken.symm hkeeps
      · exact hmem
  | addFederator hb =>
      simp only [TapBridge.addFederator, bind_eq_ok, exists_unit, pure_eq_ok] at hb
      rw [← hb.2]
      exact hasset
  | removeFederator hb =>
      simp only [TapBridge.removeFederator, bind_eq_ok, exists_unit, pure_eq_ok] at hb
      rw [← hb.2]
      exact hasset
  | setNumRequiredSigners hb =>
      simp only [TapBridge.setNumRequiredSigners, bind_eq_ok, exists_unit, pure_eq_ok] at hb
      rw [← hb.2]
      exact hasset
  | other _ _ _ hassets _ _ => rwa [hassets]

/-- What is released stays so. -/
lemma released_of_step (h : Step C w (sender, call) w') :
    ∃ new, w'.released = w.released ++ new := by
  rcases step_cases h with ⟨t, signatures, -, haccept⟩ | ⟨-, hkept⟩
  · obtain ⟨-, -, -, hreleased, -⟩ := acceptTransferFromTap_effect haccept
    obtain ⟨_, _, _, -, -, -, -, -, hreleased⟩ := hreleased.released
    exact ⟨_, hreleased⟩
  · exact ⟨[], hkept.released.trans (List.append_nil _).symm⟩

/-- The utilities stay unless they are set. -/
lemma tapUtils_of_step (h : Step C w (sender, call) w') {token : Address}
    (hkeeps : call.KeepsQuotes token) : w'.bridge.tapUtils = w.bridge.tapUtils := by
  cases call with
  | setTapUtils tapUtils => exact hkeeps.elim
  | transferToTap receiverTapAddress =>
      simp only [Step, step, transferToTap, bind_eq_ok, exists_unit, Prod.exists, pure_eq_ok] at h
      obtain ⟨asset, amount, -, -, counter, -, rfl⟩ := h
      rfl
  | acceptTransferFromTap t signatures =>
      simp only [Step, step, acceptTransferFromTap, bind_eq_ok, exists_unit, Prod.exists,
        pure_eq_ok] at h
      obtain ⟨-, -, asset, amount, -, -, -, counter, -, rfl⟩ := h
      rfl
  | addBridgeableAsset asset =>
      simp only [Step, step, TapBridge.addBridgeableAsset, bind_eq_ok, exists_unit,
        pure_eq_ok] at h
      obtain ⟨-, b, ⟨-, -, -, -, -, rfl⟩, rfl⟩ := h
      rfl
  | removeBridgeableAsset rskTokenAddress =>
      simp only [Step, step, TapBridge.removeBridgeableAsset, bind_eq_ok, exists_unit,
        pure_eq_ok, Prod.exists, Prod.mk.injEq] at h
      obtain ⟨-, b, asset, ⟨-, rfl, -⟩, rfl⟩ := h
      rfl
  | addFederator account =>
      simp only [Step, step, TapBridge.addFederator, bind_eq_ok, exists_unit, pure_eq_ok] at h
      obtain ⟨-, b, ⟨-, rfl⟩, rfl⟩ := h
      rfl
  | removeFederator account =>
      simp only [Step, step, TapBridge.removeFederator, bind_eq_ok, exists_unit, pure_eq_ok] at h
      obtain ⟨-, b, ⟨-, rfl⟩, rfl⟩ := h
      rfl
  | setNumRequiredSigners numRequiredSigners =>
      simp only [Step, step, TapBridge.setNumRequiredSigners, bind_eq_ok, exists_unit,
        pure_eq_ok] at h
      obtain ⟨-, b, ⟨-, rfl⟩, rfl⟩ := h
      rfl
  | transferOwnership newOwner =>
      simp only [Step, step, bind_eq_ok, exists_unit, pure_eq_ok] at h
      obtain ⟨-, -, rfl⟩ := h
      rfl
  | renounceOwnership =>
      simp only [Step, step, bind_eq_ok, exists_unit, pure_eq_ok] at h
      obtain ⟨-, rfl⟩ := h
      rfl
  | externalsChange externals =>
      simp only [Step, step, pure_eq_ok] at h
      obtain rfl := h
      rfl

end TapWorld

namespace TapQuote

variable {Hash Sig : Type} {C : Crypto Hash Sig} {w w' : TapWorld} {sender : Address}
  {call : TapCall Sig} {tapAddress : Bytes} {token : Address} {amount : ℤ}

/-- **A quote stands** while its asset is listed and read in the same way. -/
lemma step (hq : TapQuote w.bridge tapAddress token amount) (hw : w.bridge.AssetsAgree)
    (h : TapWorld.Step C w (sender, call) w') (hkeeps : call.KeepsQuotes token) :
    TapQuote w'.bridge tapAddress token amount := by
  obtain ⟨asset, hasset, decoded, hdecoded, hid, rfl, hamount⟩ := hq.worth
  have hmem := TapWorld.mem_assets_of_step hw h hasset hkeeps
  refine ⟨asset, hmem, decoded, ?_, hid, rfl, hamount⟩
  rw [TapWorld.tapUtils_of_step h hkeeps, hdecoded]

/-- **What is released is what was quoted.** -/
lemma released {t : TransferFromTap} {signatures : List Sig}
    (hq : TapQuote w.bridge t.transferTapAddress token amount) (hw : w.bridge.AssetsAgree)
    (h : w.acceptTransferFromTap C sender t signatures = .ok w') :
    ∃ r, w'.released = w.released ++ [r] ∧ r.value = (token, t.to_, amount) := by
  obtain ⟨-, -, -, ⟨decoded, asset, value, hdecoded, hasset, -, hvalue, -, hreleased⟩, -⟩ :=
    TapWorld.acceptTransferFromTap_effect h
  obtain ⟨asset', hasset', decoded', hdecoded', hid, rfl, rfl⟩ := hq.worth
  rw [hdecoded, Except.ok.injEq] at hdecoded'
  subst hdecoded'
  rw [hid, hw.byId asset' hasset'] at hasset
  subst hasset
  refine ⟨_, hreleased, ?_⟩
  rw [TokenTransfer.value, hvalue]
  push_cast
  rfl

end TapQuote

end NbteBridge
