import NbteBridge.Contracts.OpenZeppelin

/-!
# NBTEBridgeAccessControl

The contract that holds the roles of all bridge contracts and checks the federators' signature
arrays.  Both signature checks run the same loop: recover each signature, check that the signer
is a federator, and compare it with every signer seen before.  `collectSigners_eq_ok` says what
that loop accepts, for arrays of any length; callers use it and never unfold the loop.
-/

namespace NbteBridge

open Checked AccessControlEnumerable

def ROLE_ADMIN : Role := DEFAULT_ADMIN_ROLE

/-- `keccak256("FEDERATOR")`. -/
def ROLE_FEDERATOR : Role :=
  0xd60d8c24d353e0fb03320bff8dd86901186b3566397d831f2dff247991b53f18

/-- `keccak256("PAUSER")`. -/
def ROLE_PAUSER : Role :=
  0x539440820030c4994db4e31b6b800deafd503688728f932addfe7a410515c14c

/-- `keccak256("GUARD")`. -/
def ROLE_GUARD : Role :=
  0x25bca7788d8c23352e368ccd4774eb5b5fc3d40422de2c14e98631ab71f33415

/-- `keccak256("CONFIG_ADMIN")`. -/
def ROLE_CONFIG_ADMIN : Role :=
  0x8af5290a3bc9fb001a334db3080e05f29cbed54f3cf6e308d2db8704d95c4147

structure NBTEBridgeAccessControl (R : Type) where
  roles : R

/-- The public functions that change roles. -/
inductive AccessControlCall
  | grantRole (role : Role) (account : Address)
  | revokeRole (role : Role) (account : Address)
  | renounceRole (role : Role) (account : Address)
  | addAdmin (account : Address)
  | removeAdmin (account : Address)
  | addFederator (account : Address)
  | removeFederator (account : Address)
  | addPauser (account : Address)
  | removePauser (account : Address)
  | addGuard (account : Address)
  | removeGuard (account : Address)
  | addConfigAdmin (account : Address)
  | removeConfigAdmin (account : Address)
  deriving DecidableEq

namespace NBTEBridgeAccessControl

variable {R : Type} [AccessControlEnumerable R]

/-! ## Roles -/

/-- The contract as deployed by `sender`. -/
def construct (sender : Address) : NBTEBridgeAccessControl R :=
  ⟨setupRole AccessControlEnumerable.construct ROLE_ADMIN sender⟩

variable (ac : NBTEBridgeAccessControl R)

def checkRole (role : Role) (addressToCheck : Address) : Result Unit :=
  require (hasRole ac.roles role addressToCheck) "AccessControl: account is missing role"

def checkAdmin (addressToCheck : Address) : Result Unit :=
  ac.checkRole ROLE_ADMIN addressToCheck

/-- Admins hold every lesser role but the federators'. -/
def checkRoleOrAdmin (role : Role) (addressToCheck : Address) : Result Unit :=
  if hasRole ac.roles ROLE_ADMIN addressToCheck then pure ()
  else ac.checkRole role addressToCheck

def checkPauser (addressToCheck : Address) : Result Unit :=
  ac.checkRoleOrAdmin ROLE_PAUSER addressToCheck

def checkGuard (addressToCheck : Address) : Result Unit :=
  ac.checkRoleOrAdmin ROLE_GUARD addressToCheck

def checkFederator (addressToCheck : Address) : Result Unit :=
  ac.checkRole ROLE_FEDERATOR addressToCheck

def isFederator (addressToCheck : Address) : Bool :=
  hasRole ac.roles ROLE_FEDERATOR addressToCheck

def numFederators : ℕ := getRoleMemberCount ac.roles ROLE_FEDERATOR

def numRequiredFederators : ℕ := getRoleMemberCount ac.roles ROLE_FEDERATOR / 2 + 1

def federators : List Address :=
  (List.range ac.numFederators).filterMap fun i => getRoleMember ac.roles ROLE_FEDERATOR i

def grantRole (sender : Address) (role : Role) (account : Address) :
    Result (NBTEBridgeAccessControl R) := do
  require (account ≠ 0) "Cannot grant role to zero address"
  let roles ← AccessControlEnumerable.grantRole ac.roles sender role account
  pure ⟨roles⟩

def revokeRole (sender : Address) (role : Role) (account : Address) :
    Result (NBTEBridgeAccessControl R) := do
  let roles ← AccessControlEnumerable.revokeRole ac.roles sender role account
  pure ⟨roles⟩

def renounceRole (sender : Address) (role : Role) (account : Address) :
    Result (NBTEBridgeAccessControl R) := do
  let roles ← AccessControlEnumerable.renounceRole ac.roles sender role account
  pure ⟨roles⟩

def removeAdmin (sender account : Address) : Result (NBTEBridgeAccessControl R) := do
  require (1 < getRoleMemberCount ac.roles ROLE_ADMIN) "Cannot remove the only admin"
  ac.revokeRole sender ROLE_ADMIN account

/-- A role-changing call by `sender`. -/
def call (sender : Address) : AccessControlCall → Result (NBTEBridgeAccessControl R)
  | .grantRole role account => ac.grantRole sender role account
  | .revokeRole role account => ac.revokeRole sender role account
  | .renounceRole role account => ac.renounceRole sender role account
  | .addAdmin account => ac.grantRole sender ROLE_ADMIN account
  | .removeAdmin account => ac.removeAdmin sender account
  | .addFederator account => ac.grantRole sender ROLE_FEDERATOR account
  | .removeFederator account => ac.revokeRole sender ROLE_FEDERATOR account
  | .addPauser account => ac.grantRole sender ROLE_PAUSER account
  | .removePauser account => ac.revokeRole sender ROLE_PAUSER account
  | .addGuard account => ac.grantRole sender ROLE_GUARD account
  | .removeGuard account => ac.revokeRole sender ROLE_GUARD account
  | .addConfigAdmin account => ac.grantRole sender ROLE_CONFIG_ADMIN account
  | .removeConfigAdmin account => ac.revokeRole sender ROLE_CONFIG_ADMIN account

@[simp] lemma checkFederator_eq_ok {ac : NBTEBridgeAccessControl R} {a : Address} {u : Unit} :
    ac.checkFederator a = .ok u ↔ ac.isFederator a = true :=
  require_eq_ok

@[simp] lemma checkAdmin_eq_ok {ac : NBTEBridgeAccessControl R} {a : Address} {u : Unit} :
    ac.checkAdmin a = .ok u ↔ hasRole ac.roles ROLE_ADMIN a = true :=
  require_eq_ok

/-! ## Signature arrays -/

variable {Hash Sig : Type} (C : Crypto Hash Sig)

/-- The inner loop: `recovered` is compared with each signer seen so far. -/
def checkNotSeen (recovered : Address) : List Address → Result Unit
  | [] => pure ()
  | signer :: seen => do
      require (signer ≠ recovered) "already signed by federator"
      checkNotSeen recovered seen

/-- The outer loop over the remaining signatures, `seen` being the signers of the earlier ones.
`checkRecovered` is the extra check one of the two callers makes of each signer. -/
def collectSigners (hash : Hash) (checkRecovered : Address → Result Unit) :
    List Address → List Sig → Result (List Address)
  | seen, [] => pure seen
  | seen, signature :: signatures => do
      let recovered ← orError (C.recover hash signature) "ECDSA: invalid signature"
      require (recovered ≠ 0) "recover failed"
      ac.checkFederator recovered
      checkRecovered recovered
      checkNotSeen recovered seen
      collectSigners hash checkRecovered (seen ++ [recovered]) signatures

def checkFederatorSignatures (messageHash : Hash) (signatures : List Sig) : Result Unit := do
  let messageHash := C.toEthSignedMessageHash messageHash
  require (ac.numRequiredFederators ≤ signatures.length) "Not enough signatures"
  let _ ← ac.collectSigners C messageHash (fun _ => pure ()) [] signatures
  pure ()

def checkFederatorSignaturesWithImplicitSelfSign (messageHash : Hash) (signatures : List Sig)
    (sender : Address) : Result Unit := do
  ac.checkFederator sender
  let messageHash := C.toEthSignedMessageHash messageHash
  require (ac.numRequiredFederators - 1 ≤ signatures.length) "Not enough signatures"
  let checkSender := fun recovered =>
    require (recovered ≠ sender) "sender cannot sign with a signature"
  let _ ← ac.collectSigners C messageHash checkSender [] signatures
  pure ()

lemma checkNotSeen_eq_ok {a : Address} {seen : List Address} {u : Unit} :
    checkNotSeen a seen = .ok u ↔ a ∉ seen := by
  induction seen with
  | nil => simp [checkNotSeen]
  | cons b seen ih =>
      simp only [checkNotSeen, bind_eq_ok, exists_unit, require_eq_ok, ih, List.mem_cons, not_or]
      exact and_congr_left fun _ => ne_comm

/-- What one signature of an accepted array recovers to. -/
structure SignedBy (hash : Hash) (checkRecovered : Address → Result Unit) (signature : Sig)
    (signer : Address) : Prop where
  recovered : C.recover hash signature = some signer
  nonzero : signer ≠ 0
  federator : ac.isFederator signer = true
  checked : checkRecovered signer = .ok ()

/-- **What the loop accepts.**  It returns the signers seen before followed by one signer for
each signature, each a federator it recovers to, with no repetition among the new ones or with
an earlier one. -/
lemma collectSigners_eq_ok {ac : NBTEBridgeAccessControl R} {hash : Hash}
    {checkRecovered : Address → Result Unit} {seen signers : List Address}
    {signatures : List Sig} :
    ac.collectSigners C hash checkRecovered seen signatures = .ok signers ↔
      ∃ new, signers = seen ++ new ∧
        List.Forall₂ (ac.SignedBy C hash checkRecovered) signatures new ∧
        new.Nodup ∧ ∀ a ∈ new, a ∉ seen := by
  induction signatures generalizing seen with
  | nil =>
      simp only [collectSigners, pure_eq_ok, List.forall₂_nil_left_iff]
      constructor
      · rintro rfl
        exact ⟨[], by simp, rfl, List.nodup_nil, by simp⟩
      · rintro ⟨new, rfl, rfl, -, -⟩
        simp
  | cons signature signatures ih =>
      simp only [collectSigners, bind_eq_ok, orError_eq_ok, exists_unit, require_eq_ok,
        checkFederator_eq_ok, checkNotSeen_eq_ok, ih]
      constructor
      · rintro ⟨a, hrec, hnz, hfed, hchk, hseen, new, rfl, hall, hnodup, hdisj⟩
        refine ⟨a :: new, by simp, .cons ⟨hrec, hnz, hfed, hchk⟩ hall, ?_, ?_⟩
        · refine List.nodup_cons.2 ⟨fun ha => ?_, hnodup⟩
          exact hdisj a ha (by simp)
        · intro b hb
          rcases List.mem_cons.1 hb with rfl | hb
          · exact hseen
          · exact fun hbs => hdisj b hb (by simp [hbs])
      · rintro ⟨new, rfl, hall, hnodup, hdisj⟩
        obtain ⟨a, rest, hs, hrest, rfl⟩ := List.forall₂_cons_left_iff.1 hall
        obtain ⟨hanew, hnodup⟩ := List.nodup_cons.1 hnodup
        refine ⟨a, hs.recovered, hs.nonzero, hs.federator, hs.checked,
          hdisj a (by simp), rest, by simp, hrest, hnodup, ?_⟩
        intro b hb hbs
        rcases List.mem_append.1 hbs with h | h
        · exact hdisj b (by simp [hb]) h
        · rw [List.mem_singleton] at h
          exact hanew (h ▸ hb)

/-- An accepted array: one signer for each signature, distinct federators, a strict majority. -/
theorem checkFederatorSignatures_eq_ok {ac : NBTEBridgeAccessControl R} {messageHash : Hash}
    {signatures : List Sig} {u : Unit} :
    ac.checkFederatorSignatures C messageHash signatures = .ok u ↔
      ac.numRequiredFederators ≤ signatures.length ∧
      ∃ signers, signers.Nodup ∧
        List.Forall₂ (ac.SignedBy C (C.toEthSignedMessageHash messageHash) fun _ => pure ())
          signatures signers := by
  simp only [checkFederatorSignatures, bind_eq_ok, exists_unit, require_eq_ok,
    collectSigners_eq_ok, pure_eq_ok]
  constructor
  · rintro ⟨hlen, signers, ⟨new, hnew, hall, hnodup, -⟩, -⟩
    exact ⟨hlen, new, hnodup, hall⟩
  · rintro ⟨hlen, signers, hnodup, hall⟩
    exact ⟨hlen, signers, ⟨signers, by simp, hall, hnodup, by simp⟩, trivial⟩

end NBTEBridgeAccessControl

end NbteBridge
