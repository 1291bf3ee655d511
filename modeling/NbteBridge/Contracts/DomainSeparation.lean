import NbteBridge.Contracts.MintAuthorisation

/-!
# Domain separation of federator signatures

What the packed message of one deployment tells of the action it is signed for.  The address of the
bridge, the kind of the action and all arguments of fixed width can be read off it.  The chain is not
in it, and the two texts of a registration are separated by a colon, which they may contain.
-/

namespace NbteBridge

open Checked

/-- A deployed bridge. -/
structure BridgeDeployment where
  chainId : ℕ
  address : Address
  deriving DecidableEq

/-- What federators sign. -/
inductive FederatorMessage
  | acceptTransferFromBtc (t : TransferFromBtc)
  | acceptRuneRegistrationRequest (r : RuneRegistration)
  deriving DecidableEq

/-- The packed bytes that are hashed. -/
def BridgeDeployment.packed (d : BridgeDeployment) : FederatorMessage → Bytes
  | .acceptTransferFromBtc t => acceptTransferFromBtcMessage d.address t
  | .acceptRuneRegistrationRequest r => acceptRuneRegistrationRequestMessage d.address r

/-- `keccak256` of them. -/
def BridgeDeployment.messageHash {Hash Sig : Type} (C : Crypto Hash Sig) (d : BridgeDeployment)
    (m : FederatorMessage) : Hash :=
  C.keccak256 (d.packed m)

/-- The two texts of a registration as they are packed. -/
def RuneRegistration.texts (r : RuneRegistration) : Bytes :=
  r.name ++ Packed.ascii ":" ++ r.symbol

/-- The byte of the separator. -/
def colon : UInt8 := 0x3a

/-- Two messages of one kind with the same arguments, texts with a colon in them apart. -/
def FederatorMessage.SameAction : FederatorMessage → FederatorMessage → Prop
  | acceptTransferFromBtc t, acceptTransferFromBtc t' => t = t'
  | acceptRuneRegistrationRequest r, acceptRuneRegistrationRequest r' =>
      r.rune = r'.rune ∧ r.runeDivisibility = r'.runeDivisibility ∧ r.texts = r'.texts ∧
        (colon ∉ r.name → colon ∉ r'.name → r = r')
  | _, _ => False

/-- The packed message of a registration, all but its texts. -/
lemma acceptRuneRegistrationRequestMessage_inj {self self' : Address} {r r' : RuneRegistration}
    (h : acceptRuneRegistrationRequestMessage self r =
      acceptRuneRegistrationRequestMessage self' r') :
    self = self' ∧ r.texts = r'.texts ∧ r.rune = r'.rune ∧
      r.runeDivisibility = r'.runeDivisibility := by
  unfold acceptRuneRegistrationRequestMessage at h
  have hself := List.append_inj (List.append_cancel_left h) (by simp)
  -- the texts stand before a part of fixed width
  have htail : ∀ r : RuneRegistration,
      r.name ++ (Packed.ascii ":" ++ (r.symbol ++ (Packed.ascii ":" ++
        (Packed.ofBitVec 32 r.rune ++ (Packed.ascii ":" ++
        Packed.ofBitVec 1 r.runeDivisibility))))) =
      r.texts ++ (Packed.ascii ":" ++ (Packed.ofBitVec 32 r.rune ++ (Packed.ascii ":" ++
        Packed.ofBitVec 1 r.runeDivisibility))) := by
    intro r
    simp [RuneRegistration.texts]
  have hrest := List.append_cancel_left hself.2
  rw [htail r, htail r'] at hrest
  have htexts := List.append_inj' hrest (by simp)
  have hrune := List.append_inj (List.append_cancel_left htexts.2) (by simp)
  have hdivisibility := List.append_cancel_left hrune.2
  exact ⟨Packed.ofBitVec_injective 20 hself.1, htexts.1, Packed.ofBitVec_injective 32 hrune.1,
    Packed.ofBitVec_injective 1 hdivisibility⟩

lemma RuneRegistration.texts_inj {r r' : RuneRegistration} (h : r.texts = r'.texts)
    (hname : colon ∉ r.name) (hname' : colon ∉ r'.name) :
    r.name = r'.name ∧ r.symbol = r'.symbol := by
  refine Lists.append_cons_inj hname hname' ?_
  have hcons : ∀ r : RuneRegistration, r.texts = r.name ++ colon :: r.symbol := by
    intro r
    rw [RuneRegistration.texts, List.append_assoc]
    rfl
  rw [← hcons r, ← hcons r', h]

/-- The packed message determines the address and the action. -/
lemma BridgeDeployment.packed_inj {d d' : BridgeDeployment} {m m' : FederatorMessage}
    (h : d.packed m = d'.packed m') : d.address = d'.address ∧ m.SameAction m' := by
  cases m with
  | acceptTransferFromBtc t =>
      cases m' with
      | acceptTransferFromBtc t' => exact acceptTransferFromBtcMessage_inj h
      | acceptRuneRegistrationRequest r' => exact absurd h acceptTransferFromBtcMessage_ne
  | acceptRuneRegistrationRequest r =>
      cases m' with
      | acceptTransferFromBtc t' => exact absurd h.symm acceptTransferFromBtcMessage_ne
      | acceptRuneRegistrationRequest r' =>
          obtain ⟨haddress, htexts, hrune, hdivisibility⟩ :=
            acceptRuneRegistrationRequestMessage_inj h
          refine ⟨haddress, hrune, hdivisibility, htexts, fun hname hname' => ?_⟩
          obtain ⟨hn, hs⟩ := RuneRegistration.texts_inj htexts hname hname'
          cases r
          cases r'
          simp only [RuneRegistration.mk.injEq]
          exact ⟨hn, hs, hrune, hdivisibility⟩

/-- **One signature, one action.**  Equal packed messages are of one bridge address and one action;
so a signature that two bridges accept of their federators, each for a message, was made for the same
action at the same address. -/
theorem federator_messages_separated :
    (∀ (d d' : BridgeDeployment) (m m' : FederatorMessage), d.packed m = d'.packed m' →
      d.address = d'.address ∧ m.SameAction m') ∧
    ∀ {R Hash Sig : Type} [AccessControlEnumerable R] (C : Crypto Hash Sig)
      (F : Set Address) (signed : Sig → Address × Hash), C.Ideal F signed →
      ∀ (ac ac' : NBTEBridgeAccessControl R) (d d' : BridgeDeployment) (m m' : FederatorMessage)
        (signatures signatures' : List Sig), ac.FederatorsIn F → ac'.FederatorsIn F →
        ac.checkFederatorSignatures C (d.messageHash C m) signatures = .ok () →
        ac'.checkFederatorSignatures C (d'.messageHash C m') signatures' = .ok () →
        ∀ s, s ∈ signatures → s ∈ signatures' →
          d.address = d'.address ∧ m.SameAction m' := by
  refine ⟨fun d d' m m' h => BridgeDeployment.packed_inj h, ?_⟩
  intro R Hash Sig _ C F signed hC ac ac' d d' m m' signatures signatures' hac hac' h h' s hs hs'
  have hhash := (signed_of_checked hC hac h hs).symm.trans (signed_of_checked hC hac' h' hs')
  apply BridgeDeployment.packed_inj
  exact hC.keccak256_injective (hC.toEthSignedMessageHash_injective hhash)

namespace Deployment

def message : FederatorMessage := .acceptTransferFromBtc accepted

/-- Registrations of one rune whose texts differ in where the separator is. -/
def ambiguous : RuneRegistration :=
  { registration with name := Packed.ascii "A:B", symbol := Packed.ascii "C" }

def ambiguous' : RuneRegistration :=
  { registration with name := Packed.ascii "A", symbol := Packed.ascii "B:C" }

end Deployment

theorem federator_messages_separated_example :
    (⟨30, 1⟩ : BridgeDeployment).address = (⟨31, 1⟩ : BridgeDeployment).address ∧
      Deployment.message.SameAction Deployment.message := by
  exact federator_messages_separated.1 ⟨30, 1⟩ ⟨31, 1⟩ Deployment.message Deployment.message rfl

/-- **What the messages leave out.**  Bridges at one address of two chains share every message, and
two registrations with different texts share theirs. -/
theorem federator_messages_collide :
    ((⟨30, 1⟩ : BridgeDeployment) ≠ ⟨31, 1⟩ ∧
      (⟨30, 1⟩ : BridgeDeployment).packed Deployment.message =
        (⟨31, 1⟩ : BridgeDeployment).packed Deployment.message) ∧
    (Deployment.ambiguous ≠ Deployment.ambiguous' ∧
      (⟨30, 1⟩ : BridgeDeployment).packed
          (.acceptRuneRegistrationRequest Deployment.ambiguous) =
        (⟨30, 1⟩ : BridgeDeployment).packed
          (.acceptRuneRegistrationRequest Deployment.ambiguous')) := by
  refine ⟨⟨by decide, rfl⟩, by decide, ?_⟩
  decide +kernel

end NbteBridge
