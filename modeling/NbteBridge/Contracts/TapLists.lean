import NbteBridge.Contracts.TapRelease

/-!
# The lists of the tap bridge

The federators with the threshold, and the assets, which the contract keeps three times: in an array
and under their tokens and ids.  Both arrays are shortened by moving the last element into the gap,
which leaves a permutation of the others (`cons_swapRemove_perm`).

The three registries of assets agree in every run (`registries_agree`).  The threshold need not stay
satisfiable: the constructor checks it against both bounds, `setNumRequiredSigners` against one, and
`removeFederator` does not look at it (`satisfiable_runs`).
-/

namespace NbteBridge

open Checked Runs

namespace TapBridge

/-! ## Arrays -/

/-- Removal takes out one element and keeps the others. -/
lemma cons_swapRemove_perm {α : Type} {values : List α} {i : ℕ} (h : i < values.length) :
    (values[i] :: swapRemove values i).Perm values := by
  obtain ⟨init, last, rfl⟩ : ∃ init last, values = init ++ [last] :=
    ⟨_, _, (List.dropLast_append_getLast (List.length_pos_iff.1 (by omega))).symm⟩
  rw [List.length_append, List.length_singleton] at h
  by_cases hi : i < init.length
  · have hset : swapRemove (init ++ [last]) i = init.set i last := by
      simp [swapRemove, List.set_append_left _ _ hi]
    rw [hset, List.getElem_append_left hi, List.set_eq_take_append_cons_drop, if_pos hi]
    calc (init[i] :: (init.take i ++ last :: init.drop (i + 1))).Perm
          (init[i] :: last :: (init.take i ++ init.drop (i + 1))) :=
            List.Perm.cons _ List.perm_middle
      _ |>.Perm (last :: init[i] :: (init.take i ++ init.drop (i + 1))) := List.Perm.swap _ _ _
      _ |>.Perm (last :: (init.take i ++ init[i] :: init.drop (i + 1))) :=
            List.Perm.cons _ List.perm_middle.symm
      _ |>.Perm (last :: init) := by rw [List.getElem_cons_drop, List.take_append_drop]
      _ |>.Perm (init ++ [last]) := (List.perm_append_singleton _ _).symm
  · obtain rfl : i = init.length := by omega
    have hset : swapRemove (init ++ [last]) init.length = init := by
      simp [swapRemove]
    rw [hset]
    simpa using (List.perm_append_singleton last init).symm

/-! ## What is kept -/

/-- The federators are listed once each, and some of them are enough for a release. -/
structure Satisfiable (b : TapBridge) : Prop where
  nodup : b.federators.Nodup
  positive : 1 ≤ b.numRequiredSigners.toNat
  enough : b.numRequiredSigners.toNat ≤ b.federators.length

/-- The calls that leave a threshold out of its bounds. -/
def Undercuts {Sig : Type} (b : TapBridge) : TapCall Sig → Prop
  | .removeFederator _ => b.federators.length ≤ b.numRequiredSigners.toNat
  | .setNumRequiredSigners numRequiredSigners => numRequiredSigners.toNat = 0
  | _ => False

/-- The array has each token and each id once, and what is set under them is its elements. -/
structure AssetsAgree (b : TapBridge) : Prop where
  tokens : (b.assets.map BridgeableAsset.rskToken).Nodup
  ids : (b.assets.map BridgeableAsset.tapAssetId).Nodup
  nonzero : ∀ asset ∈ b.assets, asset.rskToken ≠ 0
  byToken : ∀ asset ∈ b.assets, b.assetsByRskTokenAddress asset.rskToken = asset
  byId : ∀ asset ∈ b.assets, b.assetsByTaprootAssetId asset.tapAssetId = asset
  tokenUnset : ∀ token, (∀ asset ∈ b.assets, asset.rskToken ≠ token) →
    b.assetsByRskTokenAddress token = .unset
  idUnset : ∀ id, (∀ asset ∈ b.assets, asset.tapAssetId ≠ id) →
    b.assetsByTaprootAssetId id = .unset

lemma AssetsAgree.congr {b b' : TapBridge} (h : b.AssetsAgree) (hassets : b'.assets = b.assets)
    (hbyToken : b'.assetsByRskTokenAddress = b.assetsByRskTokenAddress)
    (hbyId : b'.assetsByTaprootAssetId = b.assetsByTaprootAssetId) : b'.AssetsAgree := by
  cases b
  cases b'
  subst hassets hbyToken hbyId
  exact ⟨h.tokens, h.ids, h.nonzero, h.byToken, h.byId, h.tokenUnset, h.idUnset⟩

/-- Neither the token nor the id is that of a listed asset. -/
def Unused (b : TapBridge) (token : Address) (id : Bytes32) : Prop :=
  ∀ asset ∈ b.assets, asset.rskToken ≠ token ∧ asset.tapAssetId ≠ id

/-! ## Federators and threshold -/

variable {b b' : TapBridge}

lemma checkNoDuplicates_eq_ok {federators : List Address} {u : Unit} :
    checkNoDuplicates federators = .ok u ↔ federators.Nodup := by
  induction federators with
  | nil => simp [checkNoDuplicates]
  | cons federator federators ih =>
      simp only [checkNoDuplicates, bind_eq_ok, exists_unit, require_eq_ok, ih, List.nodup_cons]

lemma satisfiable_construct {sender : Address} {tapUtils : TapUtils}
    {numRequiredSigners : Uint256} {federators : List Address}
    (h : construct sender tapUtils numRequiredSigners federators = .ok b) : b.Satisfiable := by
  simp only [construct, bind_eq_ok, exists_unit, require_eq_ok, checkNoDuplicates_eq_ok,
    pure_eq_ok] at h
  obtain ⟨henough, hpositive, hnodup, rfl⟩ := h
  exact ⟨hnodup, hpositive, henough⟩

lemma satisfiable_addFederator {account : Address} (hb : b.Satisfiable)
    (h : b.addFederator account = .ok b') : b'.Satisfiable := by
  simp only [addFederator, bind_eq_ok, exists_unit, require_eq_ok, pure_eq_ok] at h
  obtain ⟨hnew, rfl⟩ := h
  have hnotMem : account ∉ b.federators := by
    intro hmem
    rw [isFederator_iff.2 hmem] at hnew
    exact absurd hnew (by simp)
  refine ⟨hb.nodup.append (List.nodup_singleton _) (by simpa using hnotMem), hb.positive, ?_⟩
  rw [List.length_append]
  exact hb.enough.trans (Nat.le_add_right _ _)

lemma satisfiable_removeFederator {account : Address} (hb : b.Satisfiable)
    (h : b.removeFederator account = .ok b') :
    b'.Satisfiable ↔ ¬ b.federators.length ≤ b.numRequiredSigners.toNat := by
  simp only [removeFederator, bind_eq_ok, exists_unit, require_eq_ok, isFederator_iff,
    pure_eq_ok] at h
  obtain ⟨hmem, rfl⟩ := h
  have hperm := cons_swapRemove_perm (List.idxOf_lt_length_iff.2 hmem)
  have hlen := hperm.length_eq
  rw [List.length_cons] at hlen
  constructor
  · intro hb' hle
    have henough : b.numRequiredSigners.toNat ≤
        (swapRemove b.federators (b.federators.idxOf account)).length := hb'.enough
    omega
  · intro hlt
    refine ⟨(List.nodup_cons.1 (hperm.nodup_iff.2 hb.nodup)).2, hb.positive, ?_⟩
    show b.numRequiredSigners.toNat ≤
      (swapRemove b.federators (b.federators.idxOf account)).length
    omega

lemma satisfiable_setNumRequiredSigners {numRequiredSigners : Uint256} (hb : b.Satisfiable)
    (h : b.setNumRequiredSigners numRequiredSigners = .ok b') :
    b'.Satisfiable ↔ ¬ numRequiredSigners.toNat = 0 := by
  simp only [setNumRequiredSigners, bind_eq_ok, exists_unit, require_eq_ok, pure_eq_ok] at h
  obtain ⟨henough, rfl⟩ := h
  constructor
  · intro hb'
    have hpositive : 1 ≤ numRequiredSigners.toNat := hb'.positive
    omega
  · intro hne
    exact ⟨hb.nodup, Nat.one_le_iff_ne_zero.2 hne, henough⟩

/-! ## Assets -/

lemma checkNotListed_eq_ok {asset : BridgeableAsset} {assets : List BridgeableAsset} {u : Unit} :
    checkNotListed asset assets = .ok u ↔
      ∀ listed ∈ assets, listed.tapAssetId ≠ asset.tapAssetId ∧
        listed.rskToken ≠ asset.rskToken := by
  induction assets with
  | nil => simp [checkNotListed]
  | cons listed assets ih =>
      simp only [checkNotListed, bind_eq_ok, exists_unit, require_eq_ok, ih, List.forall_mem_cons,
        and_assoc]

/-- **An asset is added exactly if its token and id are nonzero and not in use.** -/
lemma addBridgeableAsset_eq_ok {asset : BridgeableAsset} (hb : b.AssetsAgree) :
    b.addBridgeableAsset asset = .ok b' ↔
      asset.rskToken ≠ 0 ∧ asset.tapAssetId ≠ 0 ∧ b.Unused asset.rskToken asset.tapAssetId ∧
        { b with
          assetsByRskTokenAddress :=
            Function.update b.assetsByRskTokenAddress asset.rskToken asset
          assetsByTaprootAssetId :=
            Function.update b.assetsByTaprootAssetId asset.tapAssetId asset
          assets := b.assets ++ [asset] } = b' := by
  simp only [addBridgeableAsset, bind_eq_ok, exists_unit, require_eq_ok, checkNotListed_eq_ok,
    pure_eq_ok, Unused]
  refine and_congr_right fun _ => and_congr_right fun _ => ?_
  constructor
  · rintro ⟨-, -, hfree, heq⟩
    exact ⟨fun listed hlisted => (hfree listed hlisted).symm, heq⟩
  · rintro ⟨hfree, heq⟩
    refine ⟨?_, ?_, fun listed hlisted => (hfree listed hlisted).symm, heq⟩
    · rw [hb.tokenUnset _ fun listed hlisted => (hfree listed hlisted).1]
      rfl
    · rw [hb.idUnset _ fun listed hlisted => (hfree listed hlisted).2]
      rfl

lemma agree_addBridgeableAsset {asset : BridgeableAsset} (hb : b.AssetsAgree)
    (h : b.addBridgeableAsset asset = .ok b') : b'.AssetsAgree := by
  obtain ⟨htoken, -, hfree, rfl⟩ := (addBridgeableAsset_eq_ok hb).1 h
  have hnew {α : Type} (f : BridgeableAsset → α) (hf : ∀ listed ∈ b.assets, f listed ≠ f asset)
      (hnodup : (b.assets.map f).Nodup) : ((b.assets ++ [asset]).map f).Nodup := by
    rw [List.map_append, List.map_singleton]
    refine hnodup.append (List.nodup_singleton _) ?_
    simpa using hf
  refine ⟨hnew _ (fun listed hl => (hfree listed hl).1) hb.tokens,
    hnew _ (fun listed hl => (hfree listed hl).2) hb.ids, ?_, ?_, ?_, ?_, ?_⟩
  · exact List.forall_mem_append.2 ⟨hb.nonzero, by simpa using htoken⟩
  · refine List.forall_mem_append.2 ⟨fun listed hl => ?_, by simp⟩
    show Function.update b.assetsByRskTokenAddress asset.rskToken asset listed.rskToken = listed
    rw [Function.update_of_ne (hfree listed hl).1, hb.byToken listed hl]
  · refine List.forall_mem_append.2 ⟨fun listed hl => ?_, by simp⟩
    show Function.update b.assetsByTaprootAssetId asset.tapAssetId asset listed.tapAssetId = listed
    rw [Function.update_of_ne (hfree listed hl).2, hb.byId listed hl]
  · intro token hunused
    obtain ⟨hothers, hself⟩ := List.forall_mem_append.1 hunused
    show Function.update b.assetsByRskTokenAddress asset.rskToken asset token = .unset
    rw [Function.update_of_ne (hself asset (by simp)).symm, hb.tokenUnset token hothers]
  · intro id hunused
    obtain ⟨hothers, hself⟩ := List.forall_mem_append.1 hunused
    show Function.update b.assetsByTaprootAssetId asset.tapAssetId asset id = .unset
    rw [Function.update_of_ne (hself asset (by simp)).symm, hb.idUnset id hothers]

/-- **What is removed** is the listed asset of the token, from all three places. -/
lemma removeBridgeableAsset_effect {token : Address} {asset : BridgeableAsset}
    (hb : b.AssetsAgree) (h : b.removeBridgeableAsset token = .ok (b', asset)) :
    asset.rskToken = token ∧ (asset :: b'.assets).Perm b.assets ∧
      b'.assetsByRskTokenAddress =
        Function.update b.assetsByRskTokenAddress asset.rskToken .unset ∧
      b'.assetsByTaprootAssetId =
        Function.update b.assetsByTaprootAssetId asset.tapAssetId .unset := by
  simp only [removeBridgeableAsset, bind_eq_ok, exists_unit, require_eq_ok, pure_eq_ok,
    Prod.mk.injEq] at h
  obtain ⟨hset, rfl, rfl⟩ := h
  -- what is set under the token is a listed asset
  obtain ⟨asset, hasset, rfl⟩ : ∃ asset ∈ b.assets, asset.rskToken = token := by
    by_contra hnone
    apply hset
    rw [hb.tokenUnset token fun asset hasset htoken => hnone ⟨asset, hasset, htoken⟩]
    rfl
  rw [hb.byToken asset hasset]
  refine ⟨rfl, ?_, rfl, rfl⟩
  have hfound : (b.assets.findIdx? fun listed => listed.tapAssetId = asset.tapAssetId) =
      some (b.assets.idxOf asset) := by
    rw [List.findIdx?_eq_some_iff_getElem]
    have hlt := List.idxOf_lt_length_iff.2 hasset
    refine ⟨hlt, by simp, ?_⟩
    intro j hj
    -- ids are listed once, and so are assets
    have hne : b.assets[j].tapAssetId ≠ asset.tapAssetId := by
      intro heq
      have hsame := List.inj_on_of_nodup_map hb.ids (List.getElem_mem _) hasset heq
      have hidx := (List.Nodup.of_map _ hb.ids).idxOf_getElem j (by omega)
      rw [hsame] at hidx
      omega
    simpa using hne
  have hperm := cons_swapRemove_perm (List.idxOf_lt_length_iff.2 hasset)
  rw [List.getElem_idxOf] at hperm
  simpa only [hfound] using hperm

lemma agree_removeBridgeableAsset {token : Address} {asset : BridgeableAsset}
    (hb : b.AssetsAgree) (h : b.removeBridgeableAsset token = .ok (b', asset)) :
    b'.AssetsAgree ∧ b'.Unused asset.rskToken asset.tapAssetId := by
  obtain ⟨-, hperm, hbyToken, hbyId⟩ := removeBridgeableAsset_effect hb h
  obtain ⟨htoken, htokens⟩ := List.nodup_cons.1 ((hperm.map _).nodup_iff.2 hb.tokens)
  obtain ⟨hid, hids⟩ := List.nodup_cons.1 ((hperm.map _).nodup_iff.2 hb.ids)
  have hmem (listed : BridgeableAsset) (hlisted : listed ∈ b'.assets) : listed ∈ b.assets :=
    hperm.mem_iff.1 (List.mem_cons_of_mem _ hlisted)
  have hfree : b'.Unused asset.rskToken asset.tapAssetId := by
    intro listed hlisted
    exact ⟨fun heq => htoken (List.mem_map.2 ⟨listed, hlisted, heq⟩),
      fun heq => hid (List.mem_map.2 ⟨listed, hlisted, heq⟩)⟩
  refine ⟨⟨htokens, hids, fun listed hl => hb.nonzero listed (hmem listed hl), ?_, ?_, ?_, ?_⟩,
    hfree⟩
  · intro listed hl
    rw [hbyToken, Function.update_of_ne (hfree listed hl).1, hb.byToken listed (hmem listed hl)]
  · intro listed hl
    rw [hbyId, Function.update_of_ne (hfree listed hl).2, hb.byId listed (hmem listed hl)]
  · intro token' hunused
    rw [hbyToken]
    by_cases heq : token' = asset.rskToken
    · rw [heq, Function.update_self]
    · rw [Function.update_of_ne heq]
      refine hb.tokenUnset token' fun listed hl => ?_
      rcases List.mem_cons.1 (hperm.mem_iff.2 hl) with rfl | hl
      · exact fun h => heq h.symm
      · exact hunused listed hl
  · intro id' hunused
    rw [hbyId]
    by_cases heq : id' = asset.tapAssetId
    · rw [heq, Function.update_self]
    · rw [Function.update_of_ne heq]
      refine hb.idUnset id' fun listed hl => ?_
      rcases List.mem_cons.1 (hperm.mem_iff.2 hl) with rfl | hl
      · exact fun h => heq h.symm
      · exact hunused listed hl

lemma agree_construct {sender : Address} {tapUtils : TapUtils}
    {numRequiredSigners : Uint256} {federators : List Address}
    (h : construct sender tapUtils numRequiredSigners federators = .ok b) : b.AssetsAgree := by
  simp only [construct, bind_eq_ok, exists_unit, pure_eq_ok] at h
  obtain ⟨-, -, -, rfl⟩ := h
  exact ⟨by simp, by simp, by simp, by simp, by simp, fun _ _ => rfl, fun _ _ => rfl⟩

end TapBridge

namespace TapWorld

variable {Hash Sig : Type} {C : Crypto Hash Sig} {w w' : TapWorld} {sender : Address}

/-! ## Steps -/

/-- What a call does to the lists of the contract. -/
inductive ListChange (b b' : TapBridge) : TapCall Sig → Prop
  | addFederator {account : Address} (h : b.addFederator account = .ok b') :
      ListChange b b' (.addFederator account)
  | removeFederator {account : Address} (h : b.removeFederator account = .ok b') :
      ListChange b b' (.removeFederator account)
  | setNumRequiredSigners {numRequiredSigners : Uint256}
      (h : b.setNumRequiredSigners numRequiredSigners = .ok b') :
      ListChange b b' (.setNumRequiredSigners numRequiredSigners)
  | addBridgeableAsset {asset : BridgeableAsset} (h : b.addBridgeableAsset asset = .ok b') :
      ListChange b b' (.addBridgeableAsset asset)
  | removeBridgeableAsset {token : Address} {asset : BridgeableAsset}
      (h : b.removeBridgeableAsset token = .ok (b', asset)) :
      ListChange b b' (.removeBridgeableAsset token)
  | other {call : TapCall Sig} (hcall : ¬ b.Undercuts call)
      (hfederators : b'.federators = b.federators)
      (hnum : b'.numRequiredSigners = b.numRequiredSigners) (hassets : b'.assets = b.assets)
      (hbyToken : b'.assetsByRskTokenAddress = b.assetsByRskTokenAddress)
      (hbyId : b'.assetsByTaprootAssetId = b.assetsByTaprootAssetId) : ListChange b b' call

lemma listChange_of_step {call : TapCall Sig} (h : Step C w (sender, call) w') :
    ListChange w.bridge w'.bridge call := by
  cases call with
  | transferToTap receiverTapAddress =>
      simp only [Step, step, transferToTap, bind_eq_ok, exists_unit, Prod.exists, pure_eq_ok] at h
      obtain ⟨asset, amount, -, -, counter, -, rfl⟩ := h
      exact .other id rfl rfl rfl rfl rfl
  | acceptTransferFromTap t signatures =>
      simp only [Step, step, acceptTransferFromTap, bind_eq_ok, exists_unit, Prod.exists,
        pure_eq_ok] at h
      obtain ⟨-, -, asset, amount, -, -, -, counter, -, rfl⟩ := h
      exact .other id rfl rfl rfl rfl rfl
  | addBridgeableAsset asset =>
      simp only [Step, step, bind_eq_ok, exists_unit, pure_eq_ok] at h
      obtain ⟨-, b, hb, rfl⟩ := h
      exact .addBridgeableAsset hb
  | removeBridgeableAsset rskTokenAddress =>
      simp only [Step, step, bind_eq_ok, exists_unit, pure_eq_ok, Prod.exists] at h
      obtain ⟨-, b, asset, hb, rfl⟩ := h
      exact .removeBridgeableAsset hb
  | addFederator account =>
      simp only [Step, step, bind_eq_ok, exists_unit, pure_eq_ok] at h
      obtain ⟨-, b, hb, rfl⟩ := h
      exact .addFederator hb
  | removeFederator account =>
      simp only [Step, step, bind_eq_ok, exists_unit, pure_eq_ok] at h
      obtain ⟨-, b, hb, rfl⟩ := h
      exact .removeFederator hb
  | setNumRequiredSigners numRequiredSigners =>
      simp only [Step, step, bind_eq_ok, exists_unit, pure_eq_ok] at h
      obtain ⟨-, b, hb, rfl⟩ := h
      exact .setNumRequiredSigners hb
  | setTapUtils tapUtils =>
      simp only [Step, step, bind_eq_ok, exists_unit, pure_eq_ok] at h
      obtain ⟨-, rfl⟩ := h
      exact .other id rfl rfl rfl rfl rfl
  | transferOwnership newOwner =>
      simp only [Step, step, bind_eq_ok, exists_unit, pure_eq_ok] at h
      obtain ⟨-, -, rfl⟩ := h
      exact .other id rfl rfl rfl rfl rfl
  | renounceOwnership =>
      simp only [Step, step, bind_eq_ok, exists_unit, pure_eq_ok] at h
      obtain ⟨-, rfl⟩ := h
      exact .other id rfl rfl rfl rfl rfl
  | externalsChange externals =>
      simp only [Step, step, pure_eq_ok] at h
      obtain rfl := h
      exact .other id rfl rfl rfl rfl rfl

/-- A call is answered by the contract it is made to. -/
lemma self_of_step {call : TapCall Sig} (h : Step C w (sender, call) w') : w'.self = w.self := by
  cases call <;>
    simp only [Step, step, transferToTap, acceptTransferFromTap, bind_eq_ok, exists_unit,
      Prod.exists, pure_eq_ok] at h <;>
    grind [withBridge]

/-- **One step keeps the registries in agreement.** -/
lemma agree_step {call : TapCall Sig} (hw : w.bridge.AssetsAgree)
    (h : Step C w (sender, call) w') : w'.bridge.AssetsAgree := by
  cases listChange_of_step h with
  | addBridgeableAsset hb => exact TapBridge.agree_addBridgeableAsset hw hb
  | removeBridgeableAsset hb => exact (TapBridge.agree_removeBridgeableAsset hw hb).1
  | addFederator hb =>
      simp only [TapBridge.addFederator, bind_eq_ok, exists_unit, pure_eq_ok] at hb
      rw [← hb.2]
      exact hw.congr rfl rfl rfl
  | removeFederator hb =>
      simp only [TapBridge.removeFederator, bind_eq_ok, exists_unit, pure_eq_ok] at hb
      rw [← hb.2]
      exact hw.congr rfl rfl rfl
  | setNumRequiredSigners hb =>
      simp only [TapBridge.setNumRequiredSigners, bind_eq_ok, exists_unit, pure_eq_ok] at hb
      rw [← hb.2]
      exact hw.congr rfl rfl rfl
  | other _ _ _ hassets hbyToken hbyId => exact hw.congr hassets hbyToken hbyId

/-- **One step keeps the threshold satisfiable**, unless it undercuts it. -/
lemma satisfiable_step {call : TapCall Sig} (hw : w.bridge.Satisfiable)
    (h : Step C w (sender, call) w') : w'.bridge.Satisfiable ↔ ¬ w.bridge.Undercuts call := by
  cases listChange_of_step h with
  | addFederator hb => exact iff_of_true (TapBridge.satisfiable_addFederator hw hb) id
  | removeFederator hb => exact TapBridge.satisfiable_removeFederator hw hb
  | setNumRequiredSigners hb => exact TapBridge.satisfiable_setNumRequiredSigners hw hb
  | addBridgeableAsset hb =>
      simp only [TapBridge.addBridgeableAsset, bind_eq_ok, exists_unit, pure_eq_ok] at hb
      obtain ⟨-, -, -, -, -, heq⟩ := hb
      rw [← heq]
      exact iff_of_true ⟨hw.nodup, hw.positive, hw.enough⟩ id
  | removeBridgeableAsset hb =>
      simp only [TapBridge.removeBridgeableAsset, bind_eq_ok, exists_unit, pure_eq_ok,
        Prod.mk.injEq] at hb
      obtain ⟨-, heq, -⟩ := hb
      rw [← heq]
      exact iff_of_true ⟨hw.nodup, hw.positive, hw.enough⟩ id
  | other hcall hfederators hnum =>
      refine iff_of_true ⟨?_, ?_, ?_⟩ hcall
      · rw [hfederators]
        exact hw.nodup
      · rw [hnum]
        exact hw.positive
      · rw [hnum, hfederators]
        exact hw.enough

/-! ## Runs -/

/-- **The registries agree** in every run.  An asset can be added exactly if it has a token and an
id, and neither is in use, as those of an asset just removed are not. -/
theorem registries_agree {tr : List (Address × TapCall Sig)} (h : TapRun C tr w) :
    w.bridge.AssetsAgree ∧
      (∀ asset, (∃ w', Step C w (w.bridge.owner, .addBridgeableAsset asset) w') ↔
        asset.rskToken ≠ 0 ∧ asset.tapAssetId ≠ 0 ∧
          w.bridge.Unused asset.rskToken asset.tapAssetId) ∧
      ∀ sender token w', Step C w (sender, .removeBridgeableAsset token) w' →
        ∃ asset ∈ w.bridge.assets, asset.rskToken = token ∧
          (asset :: w'.bridge.assets).Perm w.bridge.assets ∧
          w'.bridge.Unused asset.rskToken asset.tapAssetId := by
  have hw : w.bridge.AssetsAgree := by
    refine h.stateInvariant (I := fun w => w.bridge.AssetsAgree) ?_ ?_
    · rintro w ⟨_, _, _, _, hconstruct, -⟩
      exact TapBridge.agree_construct hconstruct
    · intro w a w' hw hs
      exact agree_step hw hs
  refine ⟨hw, ?_, ?_⟩
  · intro asset
    simp only [Step, step, TapBridge.onlyOwner, bind_eq_ok, exists_unit, require_eq_ok,
      TapBridge.addBridgeableAsset_eq_ok hw, pure_eq_ok]
    constructor
    · rintro ⟨w', -, b, ⟨htoken, hid, hfree, -⟩, -⟩
      exact ⟨htoken, hid, hfree⟩
    · rintro ⟨htoken, hid, hfree⟩
      exact ⟨_, trivial, _, ⟨htoken, hid, hfree, rfl⟩, rfl⟩
  · intro sender token w' hs
    simp only [Step, step, bind_eq_ok, exists_unit, pure_eq_ok, Prod.exists] at hs
    obtain ⟨-, b, asset, hb, rfl⟩ := hs
    obtain ⟨htoken, hperm, -⟩ := TapBridge.removeBridgeableAsset_effect hw hb
    exact ⟨asset, hperm.mem_iff.1 List.mem_cons_self, htoken, hperm,
      (TapBridge.agree_removeBridgeableAsset hw hb).2⟩

/-- An asset is added, removed, and can be added with another token. -/
theorem registries_agree_example : ∃ w w' : TapWorld,
    TapRun symbolicCrypto
      [(9, .addBridgeableAsset Example.asset), (9, .removeBridgeableAsset 20)] w ∧
    Step symbolicCrypto w (9, .addBridgeableAsset { Example.asset with rskToken := 21 }) w' := by
  have heval : (do
      let b ← TapBridge.construct 9 ⟨Packed.ascii "taprt"⟩ 2 [4, 5]
      let w ← (Example.world b).step symbolicCrypto 9 (.addBridgeableAsset Example.asset)
      let w ← w.step symbolicCrypto 9 (.removeBridgeableAsset 20)
      pure (w.bridge.assets, w.bridge.owner)) = .ok ([], 9) := by
    decide +kernel
  simp only [bind_eq_ok, pure_eq_ok, Prod.mk.injEq] at heval
  obtain ⟨b, hb, w₁, hw₁, w₂, hw₂, hassets, howner⟩ := heval
  have hrun : TapRun symbolicCrypto
      ([(9, .addBridgeableAsset Example.asset)] ++ [(9, .removeBridgeableAsset 20)]) w₂ :=
    .step (.step (.init ⟨9, _, 2, [4, 5], hb, rfl, rfl⟩) hw₁) hw₂
  obtain ⟨-, hadd, -⟩ := registries_agree hrun
  obtain ⟨w', hw'⟩ := (hadd { Example.asset with rskToken := 21 }).2
    ⟨by decide, by decide, by simp [TapBridge.Unused, hassets]⟩
  rw [howner] at hw'
  exact ⟨w₂, w', hrun, hw'⟩

/-- The runs of the contract through states of which `P` holds. -/
def RunThrough (C : Crypto Hash Sig) (P : TapBridge → Prop) :
    List (Address × TapCall Sig) → TapWorld → Prop :=
  Run (fun w => Deployed w ∧ P w.bridge) fun w a w' => Step C w a w' ∧ P w'.bridge

/-- The runs of the contract in which no call undercuts the threshold. -/
def RunWithoutUndercut (C : Crypto Hash Sig) : List (Address × TapCall Sig) → TapWorld → Prop :=
  Run Deployed fun w a w' => ¬ w.bridge.Undercuts a.2 ∧ Step C w a w'

lemma satisfiable_deployed (h : w.Deployed) : w.bridge.Satisfiable := by
  obtain ⟨_, _, _, _, hconstruct, -⟩ := h
  exact TapBridge.satisfiable_construct hconstruct

lemma satisfiable_of_run {tr : List (Address × TapCall Sig)} (h : RunWithoutUndercut C tr w) :
    w.bridge.Satisfiable := by
  refine Run.invariant_of_condition (I := fun w : TapWorld => w.bridge.Satisfiable)
    (C := fun (w : TapWorld) (a : Address × TapCall Sig) => ¬ w.bridge.Undercuts a.2)
    (fun _ h => satisfiable_deployed h) ?_ h
  intro w a w' hw hcall hs
  exact (satisfiable_step hw hs).2 hcall

/-- **The threshold stays satisfiable exactly in the runs without an undercut**, a call that sets it
to zero or removes one of as few federators as it asks for. -/
theorem satisfiable_runs (C : Crypto Hash Sig) (tr : List (Address × TapCall Sig)) (w : TapWorld) :
    RunThrough C TapBridge.Satisfiable tr w ↔ RunWithoutUndercut C tr w := by
  constructor
  · intro h
    have hboth : RunWithoutUndercut C tr w ∧ w.bridge.Satisfiable := by
      induction h with
      | init h => exact ⟨.init h.1, h.2⟩
      | step hr hs ih =>
          have hcall := (satisfiable_step ih.2 hs.1).1 hs.2
          exact ⟨.step ih.1 ⟨hcall, hs.1⟩, hs.2⟩
    exact hboth.1
  · intro h
    induction h with
    | init h => exact .init ⟨h, satisfiable_deployed h⟩
    | step hr hs ih =>
        exact .step ih ⟨hs.2, (satisfiable_step (satisfiable_of_run hr) hs.2).2 hs.1⟩

/-- Of two federators who both have to sign, one is removed. -/
theorem threshold_undercut : ∃ tr, ∃ w : TapWorld,
    TapRun symbolicCrypto tr w ∧ ¬ w.bridge.Satisfiable := by
  have heval : (do
      let b ← TapBridge.construct 9 ⟨Packed.ascii "taprt"⟩ 2 [4, 5]
      let w ← (Example.world b).step symbolicCrypto 9 (.removeFederator 5)
      pure (w.bridge.federators, w.bridge.numRequiredSigners)) = .ok ([4], 2) := by
    decide +kernel
  simp only [bind_eq_ok, pure_eq_ok, Prod.mk.injEq] at heval
  obtain ⟨b, hb, w, hw, hfederators, hnum⟩ := heval
  have hrun : TapRun symbolicCrypto ([] ++ [(9, .removeFederator 5)]) w :=
    .step (.init ⟨9, _, 2, [4, 5], hb, rfl, rfl⟩) hw
  refine ⟨_, w, hrun, ?_⟩
  intro hsat
  have henough := hsat.enough
  rw [hfederators, hnum] at henough
  exact absurd henough (by decide)

end TapWorld

end NbteBridge
