import NbteBridge.Foundations.Lists
import NbteBridge.Contracts.Reference

/-!
# Quorums of federators

What the two signature checks accept, and that any two acceptances share a federator.  The checks
are two copies of one loop, so both acceptance conditions are read off `collectSigners_eq_ok`; two
sets of more than half of the federators then meet.
-/

namespace NbteBridge

open Checked AccessControlEnumerable

/-- A call of one of the two checks. -/
inductive SignatureCheck (Hash Sig : Type)
  | plain (messageHash : Hash) (signatures : List Sig)
  | implicitSelfSign (messageHash : Hash) (signatures : List Sig) (sender : Address)

namespace SignatureCheck

variable {R : Type} [AccessControlEnumerable R] {Hash Sig : Type} (C : Crypto Hash Sig)

/-- The call does not revert. -/
def Accepted (ac : NBTEBridgeAccessControl R) : SignatureCheck Hash Sig → Prop
  | plain messageHash signatures =>
      ac.checkFederatorSignatures C messageHash signatures = .ok ()
  | implicitSelfSign messageHash signatures sender =>
      ac.checkFederatorSignaturesWithImplicitSelfSign C messageHash signatures sender = .ok ()

/-- An address signed the message of a call: with a signature, or as the sender. -/
def Signed : SignatureCheck Hash Sig → Address → Prop
  | plain messageHash signatures, a =>
      ∃ s ∈ signatures, C.recover (C.toEthSignedMessageHash messageHash) s = some a
  | implicitSelfSign messageHash signatures sender, a =>
      a = sender ∨ ∃ s ∈ signatures, C.recover (C.toEthSignedMessageHash messageHash) s = some a

end SignatureCheck

namespace NBTEBridgeAccessControl

variable {R : Type} [AccessControlEnumerable R] {Hash Sig : Type} (C : Crypto Hash Sig)
  (ac : NBTEBridgeAccessControl R)

/-- The federators that signed a message, one for each signature, with no repetition. -/
structure FederatorsSigned (messageHash : Hash) (signatures : List Sig) (signers : List Address) :
    Prop where
  recovered : List.Forall₂
    (fun s a => C.recover (C.toEthSignedMessageHash messageHash) s = some a) signatures signers
  federators : ∀ a ∈ signers, ac.isFederator a = true
  nodup : signers.Nodup

variable {C ac}

/-! ## The federators -/

/-- The enumeration of the federators is complete and has no repetition. -/
lemma federators_spec [LawfulAccessControlEnumerable R] (ac : NBTEBridgeAccessControl R) :
    ac.federators.Nodup ∧ ac.federators.length = ac.numFederators ∧
      ∀ a, a ∈ ac.federators ↔ ac.isFederator a = true := by
  obtain ⟨members, hnodup, hlength, hmem, hget⟩ :=
    LawfulAccessControlEnumerable.members ac.roles ROLE_FEDERATOR
  have heq : ac.federators = members := by
    have hnum : ac.numFederators = members.length := hlength.symm
    rw [federators, hnum, funext hget, Lists.filterMap_range_getElem?]
  rw [heq]
  exact ⟨hnodup, hlength, hmem⟩

lemma numRequiredFederators_eq [LawfulAccessControlEnumerable R]
    (ac : NBTEBridgeAccessControl R) :
    ac.numRequiredFederators = ac.federators.length / 2 + 1 := by
  rw [(federators_spec ac).2.1]
  rfl

/-! ## What is accepted -/

variable {messageHash : Hash} {signatures : List Sig} {sender : Address}

/-- What the loop requires of each signature, without its check for the zero address, which no
signature recovers to. -/
lemma forall₂_signedBy_iff (hnonzero : ∀ h s, C.recover h s ≠ some 0)
    {checkRecovered : Address → Result Unit} {signers : List Address} :
    List.Forall₂ (ac.SignedBy C (C.toEthSignedMessageHash messageHash) checkRecovered)
        signatures signers ↔
      List.Forall₂ (fun s a => C.recover (C.toEthSignedMessageHash messageHash) s = some a)
        signatures signers ∧
      ∀ a ∈ signers, ac.isFederator a = true ∧ checkRecovered a = .ok () := by
  constructor
  · intro h
    refine ⟨h.imp fun _ _ hby => hby.recovered, fun a ha => ?_⟩
    obtain ⟨s, -, hby⟩ := Lists.exists_left_of_forall₂ h ha
    exact ⟨hby.federator, hby.checked⟩
  · rintro ⟨hrecovered, hchecked⟩
    induction hrecovered with
    | nil => exact .nil
    | @cons s a signatures signers hs hrest ih =>
        obtain ⟨hfederator, hok⟩ := hchecked a List.mem_cons_self
        refine .cons ⟨hs, ?_, hfederator, hok⟩ ?_
        · rintro rfl
          exact hnonzero _ _ hs
        · apply ih
          intro b hb
          exact hchecked b (List.mem_cons_of_mem _ hb)

lemma checkFederatorSignatures_iff [LawfulAccessControlEnumerable R]
    (hnonzero : ∀ h s, C.recover h s ≠ some 0) :
    ac.checkFederatorSignatures C messageHash signatures = .ok () ↔
      ∃ signers, ac.FederatorsSigned C messageHash signatures signers ∧
        ac.federators.length / 2 + 1 ≤ signers.length := by
  rw [checkFederatorSignatures_eq_ok, numRequiredFederators_eq]
  constructor
  · rintro ⟨hlength, signers, hnodup, hall⟩
    obtain ⟨hrecovered, hchecked⟩ := (forall₂_signedBy_iff hnonzero).1 hall
    refine ⟨signers, ⟨hrecovered, fun a ha => (hchecked a ha).1, hnodup⟩, ?_⟩
    rw [← hall.length_eq]
    exact hlength
  · rintro ⟨signers, hsigned, hlength⟩
    refine ⟨?_, signers, hsigned.nodup, (forall₂_signedBy_iff hnonzero).2
      ⟨hsigned.recovered, fun a ha => ⟨hsigned.federators a ha, rfl⟩⟩⟩
    rw [hsigned.recovered.length_eq]
    exact hlength

lemma checkFederatorSignaturesWithImplicitSelfSign_iff [LawfulAccessControlEnumerable R]
    (hnonzero : ∀ h s, C.recover h s ≠ some 0) :
    ac.checkFederatorSignaturesWithImplicitSelfSign C messageHash signatures sender = .ok () ↔
      ac.isFederator sender = true ∧
        ∃ signers, ac.FederatorsSigned C messageHash signatures signers ∧ sender ∉ signers ∧
          ac.federators.length / 2 + 1 ≤ (sender :: signers).length := by
  simp only [checkFederatorSignaturesWithImplicitSelfSign, bind_eq_ok, exists_unit,
    checkFederator_eq_ok, require_eq_ok, collectSigners_eq_ok, pure_eq_ok,
    numRequiredFederators_eq, Nat.add_sub_cancel, List.length_cons, add_le_add_iff_right]
  refine and_congr_right fun _ => ?_
  constructor
  · rintro ⟨hlength, -, ⟨signers, -, hall, hnodup, -⟩, -⟩
    obtain ⟨hrecovered, hchecked⟩ := (forall₂_signedBy_iff hnonzero).1 hall
    refine ⟨signers, ⟨hrecovered, fun a ha => (hchecked a ha).1, hnodup⟩, ?_, ?_⟩
    · intro hmem
      exact absurd rfl (require_eq_ok.1 (hchecked sender hmem).2)
    · rw [← hall.length_eq]
      exact hlength
  · rintro ⟨signers, hsigned, hsender, hlength⟩
    refine ⟨?_, signers, ⟨signers, by simp, (forall₂_signedBy_iff hnonzero).2
      ⟨hsigned.recovered, fun a ha => ⟨hsigned.federators a ha, ?_⟩⟩, hsigned.nodup, by simp⟩,
      trivial⟩
    · rw [hsigned.recovered.length_eq]
      exact hlength
    · refine require_of ?_
      rintro rfl
      exact hsender ha

/-! ## Two quorums meet -/

/-- The signers of an accepted call are a majority of the federators. -/
lemma exists_majority [LawfulAccessControlEnumerable R] (hnonzero : ∀ h s, C.recover h s ≠ some 0)
    {check : SignatureCheck Hash Sig} (h : check.Accepted C ac) :
    ∃ signers : Finset Address, signers ⊆ ac.federators.toFinset ∧
      (∀ a ∈ signers, check.Signed C a) ∧ ac.federators.length / 2 + 1 ≤ signers.card := by
  have hmem := (federators_spec ac).2.2
  cases check with
  | plain messageHash signatures =>
      obtain ⟨signers, hsigned, hlength⟩ := (checkFederatorSignatures_iff hnonzero).1 h
      refine ⟨signers.toFinset, fun a ha => ?_, fun a ha => ?_, ?_⟩
      · rw [List.mem_toFinset] at ha ⊢
        exact (hmem a).2 (hsigned.federators a ha)
      · rw [List.mem_toFinset] at ha
        exact Lists.exists_left_of_forall₂ hsigned.recovered ha
      · rw [List.toFinset_card_of_nodup hsigned.nodup]
        exact hlength
  | implicitSelfSign messageHash signatures sender =>
      obtain ⟨hsender, signers, hsigned, hnew, hlength⟩ :=
        (checkFederatorSignaturesWithImplicitSelfSign_iff hnonzero).1 h
      refine ⟨(sender :: signers).toFinset, fun a ha => ?_, fun a ha => ?_, ?_⟩
      · rw [List.mem_toFinset] at ha ⊢
        rcases List.mem_cons.1 ha with rfl | ha
        · exact (hmem a).2 hsender
        · exact (hmem a).2 (hsigned.federators a ha)
      · rw [List.mem_toFinset] at ha
        rcases List.mem_cons.1 ha with rfl | ha
        · exact .inl rfl
        · exact .inr (Lists.exists_left_of_forall₂ hsigned.recovered ha)
      · rw [List.toFinset_card_of_nodup (List.nodup_cons.2 ⟨hnew, hsigned.nodup⟩)]
        exact hlength

end NBTEBridgeAccessControl

open NBTEBridgeAccessControl in
/-- **Quorum intersection.**  Any two accepted calls share a federator who signed both messages; and
the calls accepted are exactly those signed by enough distinct federators. -/
theorem quorum_intersection {R Hash Sig : Type} [AccessControlEnumerable R]
    [LawfulAccessControlEnumerable R] {C : Crypto Hash Sig}
    (hnonzero : ∀ h s, C.recover h s ≠ some 0) (ac : NBTEBridgeAccessControl R) :
    (∀ check check' : SignatureCheck Hash Sig, check.Accepted C ac → check'.Accepted C ac →
      ∃ federator, ac.isFederator federator = true ∧ check.Signed C federator ∧
        check'.Signed C federator) ∧
    (∀ messageHash signatures,
      ac.checkFederatorSignatures C messageHash signatures = .ok () ↔
        ∃ signers, ac.FederatorsSigned C messageHash signatures signers ∧
          ac.federators.length / 2 + 1 ≤ signers.length) ∧
    ∀ messageHash signatures sender,
      ac.checkFederatorSignaturesWithImplicitSelfSign C messageHash signatures sender = .ok () ↔
        ac.isFederator sender = true ∧
          ∃ signers, ac.FederatorsSigned C messageHash signatures signers ∧ sender ∉ signers ∧
            ac.federators.length / 2 + 1 ≤ (sender :: signers).length := by
  refine ⟨fun check check' h h' => ?_, fun _ _ => checkFederatorSignatures_iff hnonzero,
    fun _ _ _ => checkFederatorSignaturesWithImplicitSelfSign_iff hnonzero⟩
  obtain ⟨hnodup, -, hmem⟩ := federators_spec ac
  obtain ⟨signers, hsub, hsigned, hcard⟩ := exists_majority hnonzero h
  obtain ⟨signers', hsub', hsigned', hcard'⟩ := exists_majority hnonzero h'
  have hmajority : ac.federators.toFinset.card < signers.card + signers'.card := by
    rw [List.toFinset_card_of_nodup hnodup]
    omega
  obtain ⟨federator, hboth⟩ := Finset.inter_nonempty_of_card_lt_card_add_card hsub hsub' hmajority
  obtain ⟨hfirst, hsecond⟩ := Finset.mem_inter.1 hboth
  refine ⟨federator, (hmem federator).1 ?_, hsigned federator hfirst, hsigned' federator hsecond⟩
  exact List.mem_toFinset.1 (hsub hfirst)

/-- Three federators, of whom two sign one message and two another. -/
theorem quorum_intersection_example :
    let ac : NBTEBridgeAccessControl RoleLists := ⟨[4, 5, 6].foldl
      (fun roles a => RoleLists.insert roles ROLE_FEDERATOR a) AccessControlEnumerable.construct⟩
    ∃ federator, ac.isFederator federator = true ∧
      (SignatureCheck.plain [1] [(4, ecdsaCrypto.toEthSignedMessageHash [1]),
        (5, ecdsaCrypto.toEthSignedMessageHash [1])]).Signed ecdsaCrypto federator ∧
      (SignatureCheck.implicitSelfSign [2] [(5, ecdsaCrypto.toEthSignedMessageHash [2])]
        6).Signed ecdsaCrypto federator := by
  intro ac
  refine (quorum_intersection ecdsaCrypto_recover_ne_zero ac).1 _ _ ?_ ?_
  · show ac.checkFederatorSignatures ecdsaCrypto _ _ = .ok ()
    decide +kernel
  · show ac.checkFederatorSignaturesWithImplicitSelfSign ecdsaCrypto _ _ _ = .ok ()
    decide +kernel

end NbteBridge
