import NbteBridge.Contracts.AccessControl
import NbteBridge.Contracts.Reference
import NbteBridge.Foundations.Runs

/-!
# Admins

Whether the access control contract keeps an admin, over all sequences of calls to its public
functions.  A call either grants a role to one account, which an admin must ask for, or takes one
from one account (`call_cases`).  `removeAdmin` refuses to take the role from the only admin; the
inherited `revokeRole` and `renounceRole` do not, and from then on no call brings an admin back.
-/

namespace NbteBridge

open Checked Runs AccessControlEnumerable

/-- The role a call takes away, and from whom. -/
def AccessControlCall.removed : AccessControlCall → Option (Role × Address)
  | revokeRole role account => some (role, account)
  | renounceRole role account => some (role, account)
  | removeAdmin account => some (ROLE_ADMIN, account)
  | removeFederator account => some (ROLE_FEDERATOR, account)
  | removePauser account => some (ROLE_PAUSER, account)
  | removeGuard account => some (ROLE_GUARD, account)
  | removeConfigAdmin account => some (ROLE_CONFIG_ADMIN, account)
  | _ => none

namespace NBTEBridgeAccessControl

variable {R : Type} [AccessControlEnumerable R]

/-- A contract just deployed; nothing is sent from the zero address. -/
def Deployed (ac : NBTEBridgeAccessControl R) : Prop :=
  ∃ sender : Address, sender ≠ 0 ∧ ac = construct sender

/-- A successful call with its caller.  A call that reverts changes nothing and is no step. -/
def Step (ac : NBTEBridgeAccessControl R) (a : Address × AccessControlCall)
    (ac' : NBTEBridgeAccessControl R) : Prop :=
  ac.call a.1 a.2 = .ok ac'

/-- Some account is an admin, and the zero address has no role. -/
structure AdminHeld (ac : NBTEBridgeAccessControl R) : Prop where
  admin : ∃ account, hasRole ac.roles ROLE_ADMIN account = true
  zero : ∀ role, hasRole ac.roles role 0 = false

/-- An inherited function is called to take the role from the only admin. -/
def RemovesLastAdmin (ac : NBTEBridgeAccessControl R) (c : AccessControlCall) : Prop :=
  ∃ account, (c = .revokeRole ROLE_ADMIN account ∨ c = .renounceRole ROLE_ADMIN account) ∧
    ∀ a, hasRole ac.roles ROLE_ADMIN a = true ↔ a = account

end NBTEBridgeAccessControl

/-- The runs of the contract. -/
abbrev AccessControlRun (R : Type) [AccessControlEnumerable R] :
    List (Address × AccessControlCall) → NBTEBridgeAccessControl R → Prop :=
  Run NBTEBridgeAccessControl.Deployed NBTEBridgeAccessControl.Step

namespace NBTEBridgeAccessControl

variable {R : Type} [AccessControlEnumerable R] [LawfulAccessControlEnumerable R]
variable {ac ac' : NBTEBridgeAccessControl R} {sender : Address} {c : AccessControlCall}

/-! ## One call -/

/-- `role` is granted to `account`. -/
def Grants (ac ac' : NBTEBridgeAccessControl R) (role : Role) (account : Address) : Prop :=
  ∀ ρ a, hasRole ac'.roles ρ a = true ↔ hasRole ac.roles ρ a = true ∨ (ρ = role ∧ a = account)

/-- `role` is taken from `account`. -/
def Removes (ac ac' : NBTEBridgeAccessControl R) (role : Role) (account : Address) : Prop :=
  ∀ ρ a, hasRole ac'.roles ρ a = true ↔ hasRole ac.roles ρ a = true ∧ ¬ (ρ = role ∧ a = account)

/-- A role in which some account is not the given one. -/
lemma exists_other_member {role : Role}
    (h : 1 < getRoleMemberCount ac.roles role) (account : Address) :
    ∃ a, hasRole ac.roles role a = true ∧ a ≠ account := by
  obtain ⟨l, hnodup, hlen, hmem, -⟩ := LawfulAccessControlEnumerable.members ac.roles role
  by_contra hall
  have hsame (a : Address) (ha : a ∈ l) : a = account := by
    by_contra hne
    exact hall ⟨a, (hmem a).1 ha, hne⟩
  have hle := (List.nodup_iff_count_le_one.1 hnodup) account
  rw [List.count_eq_length.2 fun a ha => (hsame a ha).symm] at hle
  omega

/-- **What a call does.** -/
lemma call_cases (h : ac.call sender c = .ok ac') :
    (∃ role account, c.removed = none ∧ account ≠ 0 ∧
      hasRole ac.roles ROLE_ADMIN sender = true ∧ Grants ac ac' role account) ∨
    (∃ role account, c.removed = some (role, account) ∧ Removes ac ac' role account ∧
      (c = .removeAdmin account → 1 < getRoleMemberCount ac.roles ROLE_ADMIN)) := by
  have hgrant {role account} (hcall : ac.grantRole sender role account = .ok ac') :
      account ≠ 0 ∧ hasRole ac.roles ROLE_ADMIN sender = true ∧ Grants ac ac' role account := by
    simp only [grantRole, bind_eq_ok, exists_unit, require_eq_ok, pure_eq_ok] at hcall
    obtain ⟨hzero, roles, hroles, rfl⟩ := hcall
    obtain ⟨hadmin, hgrants⟩ := LawfulAccessControlEnumerable.grantRole_ok _ _ _ _ _ hroles
    exact ⟨hzero, hadmin, hgrants⟩
  have hrevoke {role account} (hcall : ac.revokeRole sender role account = .ok ac') :
      Removes ac ac' role account := by
    simp only [revokeRole, bind_eq_ok, pure_eq_ok] at hcall
    obtain ⟨roles, hroles, rfl⟩ := hcall
    exact (LawfulAccessControlEnumerable.revokeRole_ok _ _ _ _ _ hroles).2
  have hrenounce {role account} (hcall : ac.renounceRole sender role account = .ok ac') :
      Removes ac ac' role account := by
    simp only [renounceRole, bind_eq_ok, pure_eq_ok] at hcall
    obtain ⟨roles, hroles, rfl⟩ := hcall
    exact (LawfulAccessControlEnumerable.renounceRole_ok _ _ _ _ _ hroles).2
  cases c with
  | grantRole role account => exact .inl ⟨role, account, rfl, hgrant h⟩
  | addAdmin account => exact .inl ⟨_, account, rfl, hgrant h⟩
  | addFederator account => exact .inl ⟨_, account, rfl, hgrant h⟩
  | addPauser account => exact .inl ⟨_, account, rfl, hgrant h⟩
  | addGuard account => exact .inl ⟨_, account, rfl, hgrant h⟩
  | addConfigAdmin account => exact .inl ⟨_, account, rfl, hgrant h⟩
  | revokeRole role account => exact .inr ⟨role, account, rfl, hrevoke h, by simp⟩
  | renounceRole role account => exact .inr ⟨role, account, rfl, hrenounce h, by simp⟩
  | removeAdmin account =>
      simp only [call, removeAdmin, bind_eq_ok, exists_unit, require_eq_ok] at h
      exact .inr ⟨_, account, rfl, hrevoke h.2, fun _ => h.1⟩
  | removeFederator account => exact .inr ⟨_, account, rfl, hrevoke h, by simp⟩
  | removePauser account => exact .inr ⟨_, account, rfl, hrevoke h, by simp⟩
  | removeGuard account => exact .inr ⟨_, account, rfl, hrevoke h, by simp⟩
  | removeConfigAdmin account => exact .inr ⟨_, account, rfl, hrevoke h, by simp⟩

/-- The calls that take the admin role away. -/
lemma cases_of_removed_admin {account : Address} (h : c.removed = some (ROLE_ADMIN, account)) :
    (c = .revokeRole ROLE_ADMIN account ∨ c = .renounceRole ROLE_ADMIN account) ∨
      c = .removeAdmin account := by
  have hne : ROLE_FEDERATOR ≠ ROLE_ADMIN ∧ ROLE_PAUSER ≠ ROLE_ADMIN ∧ ROLE_GUARD ≠ ROLE_ADMIN ∧
      ROLE_CONFIG_ADMIN ≠ ROLE_ADMIN := by decide
  cases c <;> simp_all [AccessControlCall.removed]

/-- The zero address gets no role. -/
lemma zero_of_call (hzero : ∀ role, hasRole ac.roles role 0 = false)
    (h : ac.call sender c = .ok ac') (role : Role) : hasRole ac'.roles role 0 = false := by
  by_contra hne
  rw [Bool.not_eq_false] at hne
  rcases call_cases h with ⟨_, account, -, hnonzero, -, hgrants⟩ | ⟨_, account, -, hremoves, -⟩
  · rcases (hgrants role 0).1 hne with hrole | ⟨-, heq⟩
    · rw [hzero] at hrole
      exact absurd hrole (by simp)
    · exact hnonzero heq.symm
  · have hrole := ((hremoves role 0).1 hne).1
    rw [hzero] at hrole
    exact absurd hrole (by simp)

/-- No call brings an admin to a contract without one. -/
lemma admin_of_call (h : ac.call sender c = .ok ac')
    (hadmin : ∃ account, hasRole ac'.roles ROLE_ADMIN account = true) :
    ∃ account, hasRole ac.roles ROLE_ADMIN account = true := by
  rcases call_cases h with ⟨_, _, -, -, hsender, -⟩ | ⟨_, _, -, hremoves, -⟩
  · exact ⟨sender, hsender⟩
  · obtain ⟨account, haccount⟩ := hadmin
    exact ⟨account, ((hremoves _ _).1 haccount).1⟩

/-- **One call** keeps an admin, unless it removes the last one past the check. -/
lemma adminHeld_call (hheld : ac.AdminHeld) (h : ac.call sender c = .ok ac') :
    ac'.AdminHeld ↔ ¬ ac.RemovesLastAdmin c := by
  obtain ⟨⟨admin, hadmin⟩, hzero⟩ := hheld
  have hkeeps : ac'.AdminHeld ↔ ∃ account, hasRole ac'.roles ROLE_ADMIN account = true :=
    ⟨fun h => h.admin, fun hadmin' => ⟨hadmin', zero_of_call hzero h⟩⟩
  rw [hkeeps]
  rcases call_cases h with ⟨_, _, hnone, -, -, hgrants⟩ | ⟨role, account, hsome, hremoves, hcount⟩
  · refine iff_of_true ⟨admin, (hgrants _ _).2 (.inl hadmin)⟩ ?_
    rintro ⟨account, rfl | rfl, -⟩
    · exact absurd hnone (by simp [AccessControlCall.removed])
    · exact absurd hnone (by simp [AccessControlCall.removed])
  constructor
  · rintro ⟨a, ha⟩ ⟨account', hc, honly⟩
    obtain ⟨hrole, hnot⟩ := (hremoves _ _).1 ha
    have hlast : c.removed = some (ROLE_ADMIN, account') := by
      rcases hc with rfl | rfl
      · rfl
      · rfl
    obtain ⟨rfl, rfl⟩ := Prod.mk.inj (Option.some.inj (hsome.symm.trans hlast))
    exact hnot ⟨rfl, (honly a).1 hrole⟩
  · intro hlast
    by_contra hnone
    -- whoever was an admin is the one the role was taken from
    have htaken (a : Address) (ha : hasRole ac.roles ROLE_ADMIN a = true) :
        ROLE_ADMIN = role ∧ a = account := by
      by_contra hnot
      exact hnone ⟨a, (hremoves _ _).2 ⟨ha, hnot⟩⟩
    obtain ⟨rfl, rfl⟩ := htaken admin hadmin
    rcases cases_of_removed_admin hsome with hc | hc
    · apply hlast
      refine ⟨admin, hc, fun a => ⟨fun ha => (htaken a ha).2, ?_⟩⟩
      rintro rfl
      exact hadmin
    · obtain ⟨a, ha, hne⟩ := exists_other_member (hcount hc) admin
      exact hne (htaken a ha).2

/-! ## Runs -/

lemma adminHeld_deployed (h : ac.Deployed) : ac.AdminHeld := by
  obtain ⟨sender, hsender, rfl⟩ := h
  refine ⟨⟨sender, (LawfulAccessControlEnumerable.hasRole_setupRole _ _ _ _ _).2
    (.inr ⟨rfl, rfl⟩)⟩, ?_⟩
  intro role
  by_contra hne
  rw [Bool.not_eq_false] at hne
  rcases (LawfulAccessControlEnumerable.hasRole_setupRole _ _ _ _ _).1 hne with hrole | ⟨-, heq⟩
  · rw [LawfulAccessControlEnumerable.hasRole_construct] at hrole
    exact absurd hrole (by simp)
  · exact hsender heq.symm

/-- In no run does the zero address get a role. -/
lemma zero_of_run {tr : List (Address × AccessControlCall)} (h : AccessControlRun R tr ac) :
    ∀ role, hasRole ac.roles role 0 = false :=
  h.stateInvariant (I := fun ac => ∀ role, hasRole ac.roles role 0 = false)
    (fun _ hdeployed => (adminHeld_deployed hdeployed).zero)
    fun _ _ _ hzero hstep => zero_of_call hzero hstep

/-- **A run keeps an admin exactly when none of its calls removes the last one** through
`revokeRole` or `renounceRole`. -/
theorem adminHeld_iff {tr : List (Address × AccessControlCall)} (h : AccessControlRun R tr ac) :
    ac.AdminHeld ↔
      Run Deployed (fun ac a ac' => ¬ ac.RemovesLastAdmin a.2 ∧ Step ac a ac') tr ac := by
  constructor
  · intro hheld
    induction h with
    | init h => exact .init h
    | step hr hs ih =>
        have hbefore : AdminHeld _ := ⟨admin_of_call hs hheld.admin, zero_of_run hr⟩
        exact .step (ih hbefore) ⟨(adminHeld_call hbefore hs).1 hheld, hs⟩
  · intro hrun
    refine hrun.invariant_of_condition (I := AdminHeld)
      (C := fun ac (a : Address × AccessControlCall) => ¬ ac.RemovesLastAdmin a.2)
      (fun _ h => adminHeld_deployed h) ?_
    intro ac a ac' hheld hlast hs
    exact (adminHeld_call hheld hs).2 hlast

theorem adminHeld_iff_example : ∃ ac : NBTEBridgeAccessControl RoleLists,
    AccessControlRun RoleLists [(0xa, .addAdmin 0xb)] ac ∧ ac.AdminHeld := by
  have hdeployed : Deployed (construct 0xa : NBTEBridgeAccessControl RoleLists) :=
    ⟨0xa, by decide, rfl⟩
  obtain ⟨ac, hcall⟩ := exists_ok_of_isOk
    (x := (construct 0xa : NBTEBridgeAccessControl RoleLists).call 0xa (.addAdmin 0xb))
    (by decide +kernel)
  have hstep : Step (construct 0xa) (0xa, .addAdmin 0xb) ac := hcall
  have hrun : AccessControlRun RoleLists [(0xa, .addAdmin 0xb)] ac := .step (.init hdeployed) hstep
  refine ⟨ac, hrun, (adminHeld_iff hrun).2 (.step (.init hdeployed) ⟨?_, hstep⟩)⟩
  simp [RemovesLastAdmin]

/-- The only admin revokes its own role. -/
theorem last_admin_removed : ∃ tr, ∃ ac : NBTEBridgeAccessControl RoleLists,
    AccessControlRun RoleLists tr ac ∧ ¬ ac.AdminHeld := by
  have hdeployed : Deployed (construct 0xa : NBTEBridgeAccessControl RoleLists) :=
    ⟨0xa, by decide, rfl⟩
  obtain ⟨ac, hcall⟩ := exists_ok_of_isOk
    (x := (construct 0xa : NBTEBridgeAccessControl RoleLists).call 0xa
      (.revokeRole ROLE_ADMIN 0xa))
    (by decide +kernel)
  refine ⟨[(0xa, .revokeRole ROLE_ADMIN 0xa)], ac, .step (.init hdeployed) hcall, ?_⟩
  rw [adminHeld_call (adminHeld_deployed hdeployed) hcall, not_not]
  refine ⟨0xa, .inl rfl, fun a => ?_⟩
  refine (LawfulAccessControlEnumerable.hasRole_setupRole _ _ _ _ _).trans ?_
  rw [LawfulAccessControlEnumerable.hasRole_construct]
  simp

end NBTEBridgeAccessControl

end NbteBridge
