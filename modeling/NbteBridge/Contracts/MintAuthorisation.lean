import NbteBridge.Foundations.Lists
import NbteBridge.Contracts.Reference
import NbteBridge.Contracts.Registry

/-!
# Mint authorisation

Who can make the bridge mint, how much, and how often.  A successful `acceptTransferFromBtc` was
signed by a strict majority of the federators over its own arguments (`signed_of_accept`), mints
those runes' exact value (`mint_of_accept`), and uses up its `(txid, vout, rune)` key for the rest
of the run (`acceptedKeys_nodup`).  The packed messages are injective and the two kinds differ, so
no signature serves a second purpose (`reuse_rejected`).
-/

namespace NbteBridge

open Checked

/-! ## The messages -/

/-- The packed message determines the bridge and all five arguments. -/
lemma acceptTransferFromBtcMessage_inj {self self' : Address} {t t' : TransferFromBtc}
    (h : acceptTransferFromBtcMessage self t = acceptTransferFromBtcMessage self' t') :
    self = self' ∧ t = t' := by
  unfold acceptTransferFromBtcMessage at h
  -- every part has a fixed width, so the parts agree one by one
  have hself := List.append_inj (List.append_cancel_left h) (by simp)
  have hto := List.append_inj (List.append_cancel_left hself.2) (by simp)
  have hrune := List.append_inj (List.append_cancel_left hto.2) (by simp)
  have hamount := List.append_inj (List.append_cancel_left hrune.2) (by simp)
  have htxid := List.append_inj (List.append_cancel_left hamount.2) (by simp)
  have hvout := List.append_cancel_left htxid.2
  refine ⟨Packed.ofBitVec_injective 20 hself.1, ?_⟩
  cases t
  cases t'
  simp only [TransferFromBtc.mk.injEq]
  exact ⟨Packed.ofBitVec_injective 20 hto.1, Packed.ofBitVec_injective 32 hrune.1,
    Packed.ofBitVec_injective 32 hamount.1, Packed.ofBitVec_injective 32 htxid.1,
    Packed.ofBitVec_injective 32 hvout⟩

/-- The two kinds of messages differ in their seventh byte. -/
lemma acceptTransferFromBtcMessage_ne {self self' : Address} {t : TransferFromBtc}
    {r : RuneRegistration} :
    acceptTransferFromBtcMessage self t ≠ acceptRuneRegistrationRequestMessage self' r := by
  intro h
  have htake := congrArg (List.take 7) h
  unfold acceptTransferFromBtcMessage acceptRuneRegistrationRequestMessage at htake
  rw [List.take_append_of_le_length (by decide), List.take_append_of_le_length (by decide)]
    at htake
  exact absurd htake (by decide)

/-! ## Who signed -/

variable {T R : Type} [Erc20 T] [AccessControlEnumerable R] {Hash Sig : Type}
  {C : Crypto Hash Sig} {F : Set Address} {signed : Sig → Address × Hash} {w w' : World T R}
  {m : Msg}

/-- A strict majority of the access control's current federators signed `hash`. -/
structure MajoritySigned (signed : Sig → Address × Hash) (ac : NBTEBridgeAccessControl R)
    (hash : Hash) (signatures : List Sig) : Prop where
  majority : ∃ federators signers : List Address,
    federators.Nodup ∧ (∀ a, a ∈ federators ↔ ac.isFederator a = true) ∧
      signers.Nodup ∧ federators.length / 2 + 1 ≤ signers.length ∧
      ∀ a ∈ signers, a ∈ federators ∧ ∃ s ∈ signatures, signed s = (a, hash)

/-- The federators are among the addresses `F`. -/
def NBTEBridgeAccessControl.FederatorsIn (ac : NBTEBridgeAccessControl R) (F : Set Address) : Prop :=
  ∀ a, ac.isFederator a = true → a ∈ F

def World.FederatorsIn (w : World T R) (F : Set Address) : Prop :=
  ∀ ac, w.accessControls w.bridge.accessControl = some ac → ac.FederatorsIn F

/-- Each signature of an accepted array was made over the array's message. -/
lemma signed_of_checked (hC : C.Ideal F signed) {ac : NBTEBridgeAccessControl R}
    (hac : ac.FederatorsIn F) {hash : Hash} {signatures : List Sig} {u : Unit}
    (h : ac.checkFederatorSignatures C hash signatures = .ok u) {s : Sig} (hs : s ∈ signatures) :
    (signed s).2 = C.toEthSignedMessageHash hash := by
  obtain ⟨-, signers, -, hall⟩ := (ac.checkFederatorSignatures_eq_ok C).1 h
  obtain ⟨signer, -, hby⟩ := Lists.exists_right_of_forall₂ hall hs
  rw [hC.recover_signed _ _ _ (hac signer hby.federator) hby.recovered]

/-- A strict majority of the federators is recovered from an accepted array. -/
lemma recovered_of_checked [LawfulAccessControlEnumerable R] {ac : NBTEBridgeAccessControl R}
    {hash : Hash} {signatures : List Sig} {u : Unit}
    (h : ac.checkFederatorSignatures C hash signatures = .ok u) :
    ∃ federators signers : List Address,
      federators.Nodup ∧ (∀ a, a ∈ federators ↔ ac.isFederator a = true) ∧
      signers.Nodup ∧ federators.length / 2 + 1 ≤ signers.length ∧
      ∀ a ∈ signers, a ∈ federators ∧
        ∃ s ∈ signatures, C.recover (C.toEthSignedMessageHash hash) s = some a := by
  obtain ⟨hlen, signers, hnodup, hall⟩ := (ac.checkFederatorSignatures_eq_ok C).1 h
  obtain ⟨federators, hfed, hcount, hmem, -⟩ :=
    LawfulAccessControlEnumerable.members ac.roles ROLE_FEDERATOR
  refine ⟨federators, signers, hfed, hmem, hnodup, ?_, fun a ha => ?_⟩
  · rw [← hall.length_eq, hcount]
    exact hlen
  · obtain ⟨s, hs, hby⟩ := Lists.exists_left_of_forall₂ hall ha
    exact ⟨(hmem a).2 hby.federator, s, hs, hby.recovered⟩

lemma majoritySigned_of_checked [LawfulAccessControlEnumerable R] (hC : C.Ideal F signed)
    {ac : NBTEBridgeAccessControl R} (hac : ac.FederatorsIn F) {hash : Hash}
    {signatures : List Sig} {u : Unit}
    (h : ac.checkFederatorSignatures C hash signatures = .ok u) :
    MajoritySigned signed ac (C.toEthSignedMessageHash hash) signatures := by
  obtain ⟨federators, signers, hfed, hmem, hnodup, hlen, hall⟩ := recovered_of_checked h
  refine ⟨federators, signers, hfed, hmem, hnodup, hlen, fun a ha => ?_⟩
  obtain ⟨hfederator, s, hs, hrecovered⟩ := hall a ha
  have haddress := hac a ((hmem a).1 hfederator)
  exact ⟨hfederator, s, hs, hC.recover_signed _ _ _ haddress hrecovered⟩

/-! ## What one accepted transfer does -/

/-- What `acceptTransferFromBtc` requires of its caller and of the bridge. -/
structure AcceptAllowed (signed : Sig → Address × Hash) (C : Crypto Hash Sig) (w : World T R)
    (m : Msg) (t : TransferFromBtc) (signatures : List Sig) : Prop where
  notFrozen : w.bridge.frozen = false
  notPaused : w.bridge.isRunePaused t.rune = false
  /-- The caller is a federator, and so is the majority that signed this very transfer. -/
  federators : ∃ ac, w.accessControls w.bridge.accessControl = some ac ∧
    ac.isFederator m.sender = true ∧
    MajoritySigned signed ac
      (C.toEthSignedMessageHash (getAcceptTransferFromBtcMessageHash C w.self t)) signatures

/-- `w'` differs from `w` in the tokens by the exact value of the transfer's runes, minted to its
receiver in the token registered for the rune. -/
structure Minted (w w' : World T R) (t : TransferFromBtc) : Prop where
  minted : ∃ token token', w.bridge.getTokenByRune t.rune = .ok (w.bridge.tokensByRune t.rune) ∧
    token.rune = t.rune ∧
    TokenMoved w w' (w.bridge.tokensByRune t.rune) token token' ∧
    token'.totalSupply =
      token.totalSupply + t.runeAmount.toNat * token.runeAmountDivisor.toNat ∧
    token'.balanceOf t.to_ =
      token.balanceOf t.to_ + t.runeAmount.toNat * token.runeAmountDivisor.toNat ∧
    ∀ b, b ≠ t.to_ → token'.balanceOf b = token.balanceOf b

lemma checked_of_accept {t : TransferFromBtc} {signatures : List Sig}
    (h : w.acceptTransferFromBtc C m t signatures = .ok w') :
    ∃ ac, w.accessControls w.bridge.accessControl = some ac ∧
      ac.isFederator m.sender = true ∧ w.bridge.frozen = false ∧
      w.bridge.isRunePaused t.rune = false ∧
      ac.checkFederatorSignatures C (getAcceptTransferFromBtcMessageHash C w.self t) signatures =
        .ok () := by
  simp only [World.acceptTransferFromBtc, World.onlyFederator, World.accessControl,
    World.whenNotFrozen, bind_eq_ok, exists_unit, require_eq_ok, orError_eq_ok,
    NBTEBridgeAccessControl.checkFederator_eq_ok] at h
  obtain ⟨⟨ac, hac, hfed⟩, hfrozen, hpaused, ac', hac', hsigs, -⟩ := h
  rw [hac] at hac'
  obtain rfl := Option.some.inj hac'
  exact ⟨ac, hac, hfed, hfrozen, hpaused, hsigs⟩

lemma checked_of_register {r : RuneRegistration} {newToken : Address} {signatures : List Sig}
    (h : w.acceptRuneRegistrationRequest C m newToken r signatures = .ok w') :
    ∃ ac, w.accessControls w.bridge.accessControl = some ac ∧
      ac.checkFederatorSignatures C (getAcceptRuneRegistrationRequestMessageHash C w.self r)
        signatures = .ok () := by
  simp only [World.acceptRuneRegistrationRequest, World.accessControl, bind_eq_ok, exists_unit,
    orError_eq_ok] at h
  obtain ⟨-, -, -, ac, hac, hsigs, -⟩ := h
  exact ⟨ac, hac, hsigs⟩

/-- The caller and the signers of an accepted transfer. -/
theorem signed_of_accept [LawfulAccessControlEnumerable R] (hC : C.Ideal F signed)
    (hw : w.FederatorsIn F) {t : TransferFromBtc} {signatures : List Sig}
    (h : w.acceptTransferFromBtc C m t signatures = .ok w') :
    AcceptAllowed signed C w m t signatures := by
  obtain ⟨ac, hac, hfed, hfrozen, hpaused, hsigs⟩ := checked_of_accept h
  exact ⟨hfrozen, hpaused, ac, hac, hfed, majoritySigned_of_checked hC (hw ac hac) hsigs⟩

/-- What an accepted transfer mints. -/
theorem mint_of_accept [LawfulErc20 T] (hreg : w.WellRegistered) {t : TransferFromBtc}
    {signatures : List Sig} (h : w.acceptTransferFromBtc C m t signatures = .ok w') :
    Minted w w' t := by
  have he := World.acceptTransferFromBtc_effect h
  cases he with
  | accepted ha _ _ _ _ hrune haddr hnz ht hs hb hother _ =>
      obtain ⟨-, hcall⟩ := Prod.mk.inj ha
      obtain ⟨rfl, -⟩ := Call.acceptTransferFromBtc.inj hcall
      subst haddr
      obtain ⟨token₀, htoken₀, htokenRune⟩ := hreg.byRune _ hnz
      rw [ht.before] at htoken₀
      obtain rfl := Option.some.inj htoken₀
      have hget : w.bridge.getTokenByRune t.rune = .ok (w.bridge.tokensByRune t.rune) := by
        simp only [RuneBridge.getTokenByRune, bind_eq_ok, exists_unit, require_eq_ok, pure_eq_ok]
        exact ⟨hrune, hnz, trivial⟩
      exact ⟨_, _, hget, htokenRune, ht, hs, hb, hother⟩
  | minted ht hm => exact absurd (hreg.deployed _ _ ht).minter hm
  | burned hc => exact absurd hc (by simp)
  | quiet hq => exact hq.elim
  | moved hq => exact hq.elim
  | released hq => exact hq.elim
  | registered hq => exact hq.elim

/-! ## Each key is used once -/

/-- The `(txid, vout, rune)` key a call uses up. -/
def acceptedKey {Sig : Type} (a : Msg × Call Sig) : Option (Bytes32 × Uint256 × Uint256) :=
  match a.2 with
  | .acceptTransferFromBtc t _ => some (t.btcTxId, t.btcTxVout, t.rune)
  | _ => none

/-- The keys of the successful `acceptTransferFromBtc` calls of a run, in order. -/
def acceptedKeys {Sig : Type} (tr : List (Msg × Call Sig)) :
    List (Bytes32 × Uint256 × Uint256) :=
  tr.filterMap acceptedKey

lemma acceptedKey_of_isQuiet {a : Msg × Call Sig} (h : a.2.IsQuiet) : acceptedKey a = none := by
  obtain ⟨m, c⟩ := a
  cases c <;> first | rfl | exact h.elim

namespace World

omit [AccessControlEnumerable R] in
/-- One call uses up its key, which was free, and frees none. -/
lemma processed_of_effect (hreg : w.WellRegistered) {a : Msg × Call Sig}
    (he : Effect C w a w') :
    (∀ k ∈ acceptedKey a, w.bridge.isTransferFromBtcProcessed k.1 k.2.1 k.2.2 = false) ∧
    ∀ txHash vout rune, w'.bridge.isTransferFromBtcProcessed txHash vout rune = true ↔
      w.bridge.isTransferFromBtcProcessed txHash vout rune = true ∨
        acceptedKey a = some (txHash, vout, rune) := by
  have hkept (hproc : w'.bridge.processedTransfersFromBtc = w.bridge.processedTransfersFromBtc)
      (hkey : acceptedKey a = none) :
      (∀ k ∈ acceptedKey a, w.bridge.isTransferFromBtcProcessed k.1 k.2.1 k.2.2 = false) ∧
      ∀ txHash vout rune, w'.bridge.isTransferFromBtcProcessed txHash vout rune = true ↔
        w.bridge.isTransferFromBtcProcessed txHash vout rune = true ∨
          acceptedKey a = some (txHash, vout, rune) := by
    simp [RuneBridge.isTransferFromBtcProcessed, hproc, hkey]
  cases he with
  | quiet hq hk => exact hkept hk.processed (acceptedKey_of_isQuiet hq)
  | moved hq hk => exact hkept hk.processed (acceptedKey_of_isQuiet hq)
  | burned hc hk => exact hkept hk.processed (by rw [acceptedKey, hc])
  | minted ht hm => exact absurd (hreg.deployed _ _ ht).minter hm
  | released hq _ hregistry => exact hkept hregistry.2.2.2 (acceptedKey_of_isQuiet hq)
  | registered hq _ _ _ _ _ _ _ _ _ hproc => exact hkept hproc (acceptedKey_of_isQuiet hq)
  | @accepted m t signatures _ _ _ ha _ _ hfree hproc =>
      have hkey : acceptedKey a = some (t.btcTxId, t.btcTxVout, t.rune) := by
        rw [ha, acceptedKey]
      refine ⟨fun k hk => ?_, fun txHash vout rune => ?_⟩
      · rw [hkey] at hk
        obtain rfl := Option.some.inj hk
        exact hfree
      · simp only [RuneBridge.isTransferFromBtcProcessed, hproc, hkey,
          RuneBridge.setTransferFromBtcProcessed, Option.some.injEq, Prod.mk.injEq]
        by_cases h : txHash = t.btcTxId ∧ vout = t.btcTxVout ∧ rune = t.rune
        · rw [if_pos h]
          simp [h]
        · rw [if_neg h]
          refine ⟨Or.inl, fun hused => hused.resolve_right fun hk => h ?_⟩
          exact ⟨hk.1.symm, hk.2.1.symm, hk.2.2.symm⟩

/-- The replay map holds exactly the keys used so far, and no key was used twice. -/
theorem processed_of_run [LawfulErc20 T] {tr : List (Msg × Call Sig)}
    (h : ContractRun C tr w) :
    (acceptedKeys tr).Nodup ∧
      ∀ txHash vout rune, w.bridge.isTransferFromBtcProcessed txHash vout rune = true ↔
        (txHash, vout, rune) ∈ acceptedKeys tr := by
  refine h.invariant (I := fun tr w => (acceptedKeys tr).Nodup ∧
    ∀ txHash vout rune, w.bridge.isTransferFromBtcProcessed txHash vout rune = true ↔
      (txHash, vout, rune) ∈ acceptedKeys tr) ?_ ?_
  · intro w hw
    refine ⟨List.nodup_nil, fun txHash vout rune => ?_⟩
    simp [RuneBridge.isTransferFromBtcProcessed, hw.blank.processed, acceptedKeys]
  · -- the call's own key was free, so it is none of the earlier ones
    intro tr w a w' hrun ⟨hnodup, hmap⟩ hs
    obtain ⟨hfree, hprocessed⟩ := processed_of_effect (wellRegistered_of_run hrun)
      (step_effect hs)
    have hkeys : acceptedKeys (tr ++ [a]) = acceptedKeys tr ++ (acceptedKey a).toList := by
      cases hk : acceptedKey a <;> simp [acceptedKeys, hk]
    rw [hkeys]
    refine ⟨?_, fun txHash vout rune => ?_⟩
    · cases hk : acceptedKey a with
      | none => simpa using hnodup
      | some k =>
          have hnew : k ∉ acceptedKeys tr := by
            intro hold
            have hused := (hmap k.1 k.2.1 k.2.2).2 hold
            rw [hfree k hk] at hused
            exact absurd hused (by simp)
          exact List.Nodup.append hnodup (List.nodup_singleton k) (by simpa using hnew)
    · rw [hprocessed, hmap, List.mem_append, Option.mem_toList]

end World

/-! ## No second use of a signature -/

/-- **No second use of a signature.**  An array that holds one of the signatures of an accepted
transfer is rejected for every other transfer, for every other bridge, and for a registration. -/
theorem reuse_rejected (hC : C.Ideal F signed) (hw : w.FederatorsIn F) {t : TransferFromBtc}
    {signatures : List Sig} (h : w.acceptTransferFromBtc C m t signatures = .ok w')
    {reused : List Sig} (hreused : ∃ s ∈ reused, s ∈ signatures) {v : World T R}
    (hv : v.FederatorsIn F) (m' : Msg) :
    (∀ t', (v.self, t') ≠ (w.self, t) → ∀ v', v.acceptTransferFromBtc C m' t' reused ≠ .ok v') ∧
    ∀ newToken r v', v.acceptRuneRegistrationRequest C m' newToken r reused ≠ .ok v' := by
  obtain ⟨s, hs', hs⟩ := hreused
  obtain ⟨ac, hac, -, -, -, hsigs⟩ := checked_of_accept h
  have hsigned := signed_of_checked hC (hw ac hac) hsigs hs
  refine ⟨fun t' hne v' haccept => ?_, fun newToken r v' hregister => ?_⟩
  · obtain ⟨ac', hac', -, -, -, hsigs'⟩ := checked_of_accept haccept
    have hsame := (signed_of_checked hC (hv ac' hac') hsigs' hs').symm.trans hsigned
    have hmessage := hC.keccak256_injective (hC.toEthSignedMessageHash_injective hsame)
    obtain ⟨hself, ht⟩ := acceptTransferFromBtcMessage_inj hmessage
    exact hne (Prod.ext hself ht)
  · obtain ⟨ac', hac', hsigs'⟩ := checked_of_register hregister
    have hsame := (signed_of_checked hC (hv ac' hac') hsigs' hs').symm.trans hsigned
    have hmessage := hC.keccak256_injective (hC.toEthSignedMessageHash_injective hsame)
    exact acceptTransferFromBtcMessage_ne hmessage.symm

/-! ## The bridge mints only what was authorised -/

/-- **Mint authorisation.**  After any run: the keys of the transfers accepted so far are
distinct, and a further accepted transfer is called by a federator of a bridge neither frozen nor
paused for the rune, signed by a strict majority over these arguments, mints exactly their value,
uses a key not used before, and its signatures serve for nothing else, at any bridge.  The addresses
`F` are those whose signatures nobody else can make; the bridges' federators are among them. -/
theorem accept_transfer_authorised [LawfulErc20 T] [LawfulAccessControlEnumerable R]
    (hC : C.Ideal F signed) {tr : List (Msg × Call Sig)} (h : ContractRun C tr w)
    (hw : w.FederatorsIn F) :
    (acceptedKeys tr).Nodup ∧
    ∀ m t signatures w', World.Step C w (m, .acceptTransferFromBtc t signatures) w' →
      AcceptAllowed signed C w m t signatures ∧ Minted w w' t ∧
      (t.btcTxId, t.btcTxVout, t.rune) ∉ acceptedKeys tr ∧
      ∀ reused, (∃ s ∈ reused, s ∈ signatures) → ∀ v : World T R, v.FederatorsIn F → ∀ m' : Msg,
        (∀ t', (v.self, t') ≠ (w.self, t) →
          ∀ v', ¬ World.Step C v (m', .acceptTransferFromBtc t' reused) v') ∧
        ∀ newToken r v',
          ¬ World.Step C v (m', .acceptRuneRegistrationRequest newToken r reused) v' := by
  obtain ⟨hnodup, hmap⟩ := World.processed_of_run h
  refine ⟨hnodup, fun m t signatures w' hs => ?_⟩
  have haccept : w.acceptTransferFromBtc C m t signatures = .ok w' := by
    simp only [World.Step, World.step, bind_eq_ok, exists_unit] at hs
    exact hs.2.2
  refine ⟨signed_of_accept hC hw haccept, mint_of_accept (World.wellRegistered_of_run h) haccept,
    fun hold => ?_, fun reused hreused v hv m' => ?_⟩
  · obtain ⟨hfree, -⟩ := World.processed_of_effect (World.wellRegistered_of_run h)
      (World.step_effect hs)
    have hused := (hmap _ _ _).2 hold
    rw [hfree _ rfl] at hused
    exact absurd hused (by simp)
  · obtain ⟨htransfer, hregister⟩ := reuse_rejected hC hw haccept hreused hv m'
    refine ⟨fun t' hne v' hstep => ?_, fun newToken r v' hstep => ?_⟩
    · simp only [World.Step, World.step, bind_eq_ok, exists_unit] at hstep
      exact htransfer t' hne v' hstep.2.2
    · simp only [World.Step, World.step, bind_eq_ok, exists_unit] at hstep
      exact hregister newToken r v' hstep.2.2

/-- After the rune of `Deployment` is registered, its transfer is accepted once and for good. -/
theorem accept_transfer_authorised_deployment :
    ∃ w w' : World Balances RoleLists,
      ContractRun symbolicCrypto (Deployment.calls.take 1) w ∧
      World.Step symbolicCrypto w (⟨4, 0⟩, .acceptTransferFromBtc Deployment.accepted
        [Deployment.signature]) w' ∧
      AcceptAllowed id symbolicCrypto w ⟨4, 0⟩ Deployment.accepted [Deployment.signature] ∧
      Minted w w' Deployment.accepted := by
  obtain ⟨w, hrun, hw⟩ := Deployment.run_of_eval (Deployment.calls.take 1)
    (fun w => (w.step symbolicCrypto ⟨4, 0⟩ (.acceptTransferFromBtc Deployment.accepted
      [Deployment.signature])).isOk) true (by decide +kernel)
  cases hstep : w.step symbolicCrypto ⟨4, 0⟩ (.acceptTransferFromBtc Deployment.accepted
      [Deployment.signature]) with
  | error e =>
      rw [hstep] at hw
      exact absurd hw (by simp [Except.isOk, Except.toBool])
  | ok w' =>
      have hfederators : w.FederatorsIn Set.univ := fun _ _ a _ => Set.mem_univ a
      obtain ⟨-, hall⟩ := accept_transfer_authorised symbolicCrypto_ideal hrun hfederators
      obtain ⟨hallowed, hminted, -, -⟩ := hall _ _ _ _ hstep
      exact ⟨w, w', hrun, hstep, hallowed, hminted⟩

end NbteBridge
