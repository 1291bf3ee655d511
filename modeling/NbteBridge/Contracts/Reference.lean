import NbteBridge.Contracts.World

/-!
# Concrete base contracts

Instances of the interfaces the contracts are written over: an ERC20 with balances and
allowances, roles as lists without repetition, and a symbolic hash and signature, where a
signature is the pair of its signer and the hash signed.  They satisfy the laws and are
executable, so a run of the contracts can be computed.
-/

namespace NbteBridge

open Checked

/-! ## ERC20 -/

structure Balances where
  supply : Uint256
  balances : Address → Uint256
  allowances : Address → Address → Uint256

namespace Balances

def transfer (t : Balances) (from_ to_ : Address) (amount : Uint256) : Result Balances := do
  require (from_ ≠ 0) "ERC20: transfer from the zero address"
  require (to_ ≠ 0) "ERC20: transfer to the zero address"
  require (amount ≤ t.balances from_) "ERC20: transfer amount exceeds balance"
  let debited := Function.update t.balances from_ (t.balances from_ - amount)
  pure { t with balances := Function.update debited to_ (debited to_ + amount) }

def approve (t : Balances) (owner spender : Address) (amount : Uint256) : Result Balances := do
  require (owner ≠ 0) "ERC20: approve from the zero address"
  require (spender ≠ 0) "ERC20: approve to the zero address"
  let granted := Function.update (t.allowances owner) spender amount
  pure { t with allowances := Function.update t.allowances owner granted }

/-- An infinite allowance is not spent. -/
def spendAllowance (t : Balances) (owner spender : Address) (amount : Uint256) :
    Result Balances :=
  if t.allowances owner spender = BitVec.allOnes 256 then pure t else do
    require (amount ≤ t.allowances owner spender) "ERC20: insufficient allowance"
    t.approve owner spender (t.allowances owner spender - amount)

def mint (t : Balances) (account : Address) (amount : Uint256) : Result Balances := do
  require (account ≠ 0) "ERC20: mint to the zero address"
  let supply ← Uint256.add t.supply amount
  let balance ← Uint256.add (t.balances account) amount
  pure { t with supply := supply, balances := Function.update t.balances account balance }

def burn (t : Balances) (account : Address) (amount : Uint256) : Result Balances := do
  require (account ≠ 0) "ERC20: burn from the zero address"
  let balance ← Uint256.sub (t.balances account) amount
  let supply ← Uint256.sub t.supply amount
  pure { t with supply := supply, balances := Function.update t.balances account balance }

def call (t : Balances) (sender : Address) : Erc20Call → Result Balances
  | .transfer to_ amount => t.transfer sender to_ amount
  | .approve spender amount => t.approve sender spender amount
  | .transferFrom owner to_ amount => do
      let t ← t.spendAllowance owner sender amount
      t.transfer owner to_ amount
  | .increaseAllowance spender addedValue => do
      let allowance ← Uint256.add (t.allowances sender spender) addedValue
      t.approve sender spender allowance
  | .decreaseAllowance spender subtractedValue => do
      let allowance ← Uint256.sub (t.allowances sender spender) subtractedValue
      t.approve sender spender allowance

instance : Erc20 Balances where
  construct _ _ := ⟨0, fun _ => 0, fun _ _ => 0⟩
  totalSupply := supply
  balanceOf := balances
  mint := mint
  burn := burn
  call := call

lemma transfer_supply {t t' : Balances} {from_ to_ : Address} {amount : Uint256}
    (h : t.transfer from_ to_ amount = .ok t') : t'.supply = t.supply := by
  simp only [transfer, bind_eq_ok, exists_unit, pure_eq_ok] at h
  obtain ⟨-, -, -, rfl⟩ := h
  rfl

lemma approve_supply {t t' : Balances} {owner spender : Address} {amount : Uint256}
    (h : t.approve owner spender amount = .ok t') : t'.supply = t.supply := by
  simp only [approve, bind_eq_ok, exists_unit, pure_eq_ok] at h
  obtain ⟨-, -, rfl⟩ := h
  rfl

lemma spendAllowance_supply {t t' : Balances} {owner spender : Address} {amount : Uint256}
    (h : t.spendAllowance owner spender amount = .ok t') : t'.supply = t.supply := by
  unfold spendAllowance at h
  split at h
  · rw [pure_eq_ok.1 h]
  · simp only [bind_eq_ok, exists_unit] at h
    exact approve_supply h.2

lemma call_supply {t t' : Balances} {sender : Address} {c : Erc20Call}
    (h : t.call sender c = .ok t') : t'.supply = t.supply := by
  cases c with
  | transfer to_ amount => exact transfer_supply h
  | approve spender amount =>
      change t.approve sender spender amount = .ok t' at h
      exact approve_supply h
  | transferFrom owner to_ amount =>
      simp only [call, bind_eq_ok] at h
      obtain ⟨t₁, hspend, htransfer⟩ := h
      exact (transfer_supply htransfer).trans (spendAllowance_supply hspend)
  | increaseAllowance spender addedValue =>
      simp only [call, bind_eq_ok] at h
      obtain ⟨_, -, happrove⟩ := h
      exact approve_supply happrove
  | decreaseAllowance spender subtractedValue =>
      simp only [call, bind_eq_ok] at h
      obtain ⟨_, -, happrove⟩ := h
      exact approve_supply happrove

instance : LawfulErc20 Balances where
  totalSupply_construct _ _ := rfl
  totalSupply_mint t t' a n h := by
    change t.mint a n = .ok t' at h
    simp only [mint, bind_eq_ok, exists_unit, Uint256.add_eq_ok, pure_eq_ok] at h
    obtain ⟨-, supply, hsupply, balance, -, rfl⟩ := h
    exact hsupply
  balanceOf_mint t t' a n h := by
    change t.mint a n = .ok t' at h
    simp only [mint, bind_eq_ok, exists_unit, Uint256.add_eq_ok, pure_eq_ok] at h
    obtain ⟨-, supply, -, balance, hbalance, rfl⟩ := h
    refine ⟨?_, fun b hb => ?_⟩
    · show (Function.update t.balances a balance a).toNat = _
      rw [Function.update_self]
      exact hbalance
    · exact Function.update_of_ne hb _ _
  totalSupply_burn t t' a n h := by
    change t.burn a n = .ok t' at h
    simp only [burn, bind_eq_ok, exists_unit, Uint256.sub_eq_ok, pure_eq_ok] at h
    obtain ⟨-, balance, -, supply, hsupply, rfl⟩ := h
    exact hsupply
  totalSupply_call _ _ _ _ h := call_supply h

lemma approve_balances {t t' : Balances} {owner spender : Address} {amount : Uint256}
    (h : t.approve owner spender amount = .ok t') : t'.balances = t.balances := by
  simp only [approve, bind_eq_ok, exists_unit, pure_eq_ok] at h
  obtain ⟨-, -, rfl⟩ := h
  rfl

lemma spendAllowance_balances {t t' : Balances} {owner spender : Address} {amount : Uint256}
    (h : t.spendAllowance owner spender amount = .ok t') : t'.balances = t.balances := by
  unfold spendAllowance at h
  split at h
  · rw [pure_eq_ok.1 h]
  · simp only [bind_eq_ok, exists_unit] at h
    exact approve_balances h.2

/-- Two accounts hold no more than the supply. -/
lemma add_le_supply {t : Balances} (h : Erc20.Accounted t) {a b : Address} (hne : a ≠ b) :
    (t.balances a).toNat + (t.balances b).toNat ≤ t.supply.toNat := by
  have hsum : ∑ c : Address, (t.balances c).toNat = t.supply.toNat := h
  rw [← hsum, ← Finset.sum_pair hne (f := fun c => (t.balances c).toNat)]
  exact Finset.sum_le_sum_of_subset (Finset.subset_univ _)

lemma transfer_moved {t t' : Balances} {from_ to_ : Address} {amount : Uint256}
    (haccounted : Erc20.Accounted t) (h : t.transfer from_ to_ amount = .ok t') :
    Erc20.Moved t t' from_ to_ amount := by
  simp only [transfer, bind_eq_ok, exists_unit, require_eq_ok, pure_eq_ok] at h
  obtain ⟨-, -, hle, rfl⟩ := h
  have hle : amount.toNat ≤ (t.balances from_).toNat := hle
  have hlt := t.supply.isLt
  intro a
  change (Function.update (Function.update t.balances from_ (t.balances from_ - amount)) to_
      (Function.update t.balances from_ (t.balances from_ - amount) to_ + amount) a).toNat + _ =
    (t.balances a).toNat + _
  by_cases hto : a = to_
  · subst hto
    rw [Function.update_self, if_pos rfl]
    by_cases hfrom : a = from_
    · subst hfrom
      rw [Function.update_self, if_pos rfl, BitVec.sub_add_cancel]
    · have hsum := add_le_supply haccounted (Ne.symm hfrom)
      rw [Function.update_of_ne hfrom, if_neg hfrom, BitVec.toNat_add, Nat.mod_eq_of_lt (by omega),
        Nat.add_zero]
  · rw [Function.update_of_ne hto, if_neg hto]
    by_cases hfrom : a = from_
    · subst hfrom
      rw [Function.update_self, if_pos rfl, BitVec.toNat_sub_of_le hle]
      omega
    · rw [Function.update_of_ne hfrom, if_neg hfrom]

instance : LawfulErc20Accounts Balances where
  balanceOf_construct _ _ _ := rfl
  balanceOf_burn t t' a n h b := by
    change t.burn a n = .ok t' at h
    simp only [burn, bind_eq_ok, exists_unit, Uint256.sub_eq_ok, pure_eq_ok] at h
    obtain ⟨-, balance, hbalance, supply, -, rfl⟩ := h
    change (Function.update t.balances a balance b).toNat + _ = (t.balances b).toNat
    by_cases hb : b = a
    · rw [hb, Function.update_self, if_pos rfl, hbalance]
    · rw [Function.update_of_ne hb, if_neg hb, Nat.add_zero]
  balanceOf_move t t' s c a b n haccounted h hmoves := by
    cases c with
    | transfer to_ amount =>
        obtain ⟨rfl, rfl, rfl⟩ : s = a ∧ to_ = b ∧ amount = n := by
          simpa [Erc20Call.moves] using hmoves
        exact transfer_moved haccounted h
    | transferFrom owner to_ amount =>
        obtain ⟨rfl, rfl, rfl⟩ : owner = a ∧ to_ = b ∧ amount = n := by
          simpa [Erc20Call.moves] using hmoves
        change t.call s (.transferFrom owner to_ amount) = .ok t' at h
        simp only [call, bind_eq_ok] at h
        obtain ⟨t₁, hspend, htransfer⟩ := h
        have hbalances := spendAllowance_balances hspend
        have haccounted₁ : Erc20.Accounted t₁ := by
          change ∑ c, (t₁.balances c).toNat = t₁.supply.toNat
          rw [hbalances, spendAllowance_supply hspend]
          exact haccounted
        have hmoved := transfer_moved haccounted₁ htransfer
        intro c
        have hc := hmoved c
        change _ = (t₁.balances c).toNat + _ at hc
        rw [hbalances] at hc
        exact hc
    | approve => exact absurd hmoves (by simp [Erc20Call.moves])
    | increaseAllowance => exact absurd hmoves (by simp [Erc20Call.moves])
    | decreaseAllowance => exact absurd hmoves (by simp [Erc20Call.moves])
  balanceOf_call t t' s c h hmoves := by
    change t.call s c = .ok t' at h
    cases c with
    | transfer => exact absurd hmoves (by simp [Erc20Call.moves])
    | transferFrom => exact absurd hmoves (by simp [Erc20Call.moves])
    | approve spender amount => exact approve_balances h
    | increaseAllowance spender addedValue =>
        simp only [call, bind_eq_ok] at h
        obtain ⟨_, -, happrove⟩ := h
        exact approve_balances happrove
    | decreaseAllowance spender subtractedValue =>
        simp only [call, bind_eq_ok] at h
        obtain ⟨_, -, happrove⟩ := h
        exact approve_balances happrove

end Balances

/-! ## Roles -/

/-- The members of each role, without repetition. -/
structure RoleLists where
  members : Role → List Address
  nodup : ∀ ρ, (members ρ).Nodup

namespace RoleLists

def insert (r : RoleLists) (ρ : Role) (a : Address) : RoleLists where
  members := fun ρ' =>
    if ρ' = ρ ∧ a ∉ r.members ρ' then r.members ρ' ++ [a] else r.members ρ'
  nodup ρ' := by
    split
    · rename_i h
      exact List.Nodup.append (r.nodup ρ') (List.nodup_singleton a) (by simpa using h.2)
    · exact r.nodup ρ'

def erase (r : RoleLists) (ρ : Role) (a : Address) : RoleLists where
  members := fun ρ' => if ρ' = ρ then (r.members ρ').erase a else r.members ρ'
  nodup ρ' := by
    split
    · exact (r.nodup ρ').erase a
    · exact r.nodup ρ'

def hasRole (r : RoleLists) (ρ : Role) (a : Address) : Bool := decide (a ∈ r.members ρ)

instance : AccessControlEnumerable RoleLists where
  construct := ⟨fun _ => [], fun _ => List.nodup_nil⟩
  hasRole := hasRole
  getRoleMemberCount r ρ := (r.members ρ).length
  getRoleMember r ρ i := (r.members ρ)[i]?
  setupRole := insert
  grantRole r sender ρ a := do
    require (r.hasRole DEFAULT_ADMIN_ROLE sender = true)
      "AccessControl: account is missing role"
    pure (r.insert ρ a)
  revokeRole r sender ρ a := do
    require (r.hasRole DEFAULT_ADMIN_ROLE sender = true)
      "AccessControl: account is missing role"
    pure (r.erase ρ a)
  renounceRole r sender ρ a := do
    require (a = sender) "AccessControl: can only renounce roles for self"
    pure (r.erase ρ a)

lemma mem_insert (r : RoleLists) (ρ ρ' : Role) (a b : Address) :
    b ∈ (r.insert ρ a).members ρ' ↔ b ∈ r.members ρ' ∨ (ρ' = ρ ∧ b = a) := by
  show b ∈ (if ρ' = ρ ∧ a ∉ r.members ρ' then r.members ρ' ++ [a] else r.members ρ') ↔ _
  split
  case isTrue h =>
    rw [List.mem_append, List.mem_singleton]
    simp [h.1]
  case isFalse h =>
    constructor
    · exact Or.inl
    · rintro (hb | ⟨hρ, rfl⟩)
      · exact hb
      · by_contra hb
        exact h ⟨hρ, hb⟩

lemma mem_erase (r : RoleLists) (ρ ρ' : Role) (a b : Address) :
    b ∈ (r.erase ρ a).members ρ' ↔ b ∈ r.members ρ' ∧ ¬ (ρ' = ρ ∧ b = a) := by
  show b ∈ (if ρ' = ρ then (r.members ρ').erase a else r.members ρ') ↔ _
  split
  case isTrue h =>
    rw [(r.nodup ρ').mem_erase_iff]
    simp [h, and_comm]
  case isFalse h => simp [h]

lemma hasRole_insert (r : RoleLists) (ρ ρ' : Role) (a b : Address) :
    (r.insert ρ a).hasRole ρ' b = true ↔ r.hasRole ρ' b = true ∨ (ρ' = ρ ∧ b = a) := by
  simp only [hasRole, decide_eq_true_eq, mem_insert]

lemma hasRole_erase (r : RoleLists) (ρ ρ' : Role) (a b : Address) :
    (r.erase ρ a).hasRole ρ' b = true ↔ r.hasRole ρ' b = true ∧ ¬ (ρ' = ρ ∧ b = a) := by
  simp only [hasRole, decide_eq_true_eq, mem_erase]

instance : LawfulAccessControlEnumerable RoleLists where
  hasRole_construct _ _ := rfl
  hasRole_setupRole r ρ a ρ' b := hasRole_insert r ρ ρ' a b
  grantRole_ok r r' s ρ a h := by
    simp only [AccessControlEnumerable.grantRole, bind_eq_ok, exists_unit, require_eq_ok,
      pure_eq_ok] at h
    obtain ⟨hadmin, rfl⟩ := h
    exact ⟨hadmin, fun ρ' b => hasRole_insert r ρ ρ' a b⟩
  revokeRole_ok r r' s ρ a h := by
    simp only [AccessControlEnumerable.revokeRole, bind_eq_ok, exists_unit, require_eq_ok,
      pure_eq_ok] at h
    obtain ⟨hadmin, rfl⟩ := h
    exact ⟨hadmin, fun ρ' b => hasRole_erase r ρ ρ' a b⟩
  renounceRole_ok r r' s ρ a h := by
    simp only [AccessControlEnumerable.renounceRole, bind_eq_ok, exists_unit, require_eq_ok,
      pure_eq_ok] at h
    obtain ⟨hself, rfl⟩ := h
    exact ⟨hself, fun ρ' b => hasRole_erase r ρ ρ' a b⟩
  members r ρ := ⟨r.members ρ, r.nodup ρ, rfl,
    fun a => by simp [AccessControlEnumerable.hasRole, hasRole], fun _ => rfl⟩

end RoleLists

/-! ## Hashes and signatures -/

/-- Hashes are the hashed bytes; a signature is its signer and the hash it signs. -/
def symbolicCrypto : Crypto Bytes (Address × Bytes) where
  keccak256 := id
  toEthSignedMessageHash := fun h => Packed.ascii "\x19Ethereum Signed Message:\n32" ++ h
  recover := fun h s => if s.2 = h then some s.1 else none

lemma symbolicCrypto_ideal {F : Set Address} : symbolicCrypto.Ideal F id where
  keccak256_injective := Function.injective_id
  toEthSignedMessageHash_injective := fun _ _ h => List.append_cancel_left h
  recover_signed := by
    intro h s a _ hrec
    simp only [symbolicCrypto, Option.ite_none_right_eq_some, Option.some.injEq] at hrec
    exact Prod.ext hrec.2 hrec.1

/-- The same, where a signature of the zero address is none, as `ECDSA.recover` has it. -/
def ecdsaCrypto : Crypto Bytes (Address × Bytes) :=
  { symbolicCrypto with
    recover := fun h s => if s.1 = 0 then none else symbolicCrypto.recover h s }

lemma ecdsaCrypto_recover_ne_zero (h : Bytes) (s : Address × Bytes) :
    ecdsaCrypto.recover h s ≠ some 0 := by
  intro hrecover
  simp only [ecdsaCrypto, symbolicCrypto] at hrecover
  split at hrecover
  · exact absurd hrecover (by simp)
  · rename_i hne
    simp only [Option.ite_none_right_eq_some, Option.some.injEq] at hrecover
    exact hne hrecover.2

/-! ## Computing a run -/

namespace World

variable {T R : Type} [Erc20 T] [AccessControlEnumerable R] {Hash Sig : Type}
  (C : Crypto Hash Sig)

/-- The calls in order, or the first reason one of them reverted with. -/
def execAll (w : World T R) : List (Msg × Call Sig) → Result (World T R)
  | [] => .ok w
  | a :: rest => do
      let w ← w.step C a.1 a.2
      w.execAll rest

lemma run_execAll {tr rest : List (Msg × Call Sig)} {w w' : World T R}
    (hr : ContractRun C tr w) (h : w.execAll C rest = .ok w') :
    ContractRun C (tr ++ rest) w' := by
  induction rest generalizing tr w with
  | nil =>
      obtain rfl := Except.ok.inj h
      simpa using hr
  | cons a rest ih =>
      simp only [execAll, bind_eq_ok] at h
      obtain ⟨w₁, hstep, hrest⟩ := h
      simpa using ih (hr.step hstep) hrest

end World

/-! ## A deployment

The bridge at address 1, its access control at 2 with admin 3 and one federator 4, and one rune
registered, bridged, partly burned and partly bridged back. -/

namespace Deployment

def world : World Balances RoleLists where
  self := 1
  bridge := .uninitialized
  tokens := fun _ => none
  accessControls := fun a =>
    if a = 2 then
      some ⟨RoleLists.insert (NBTEBridgeAccessControl.construct 3).roles ROLE_FEDERATOR 4⟩
    else none
  externals :=
    { isValidBtcAddress := fun _ _ => .ok true
      receivesValue := fun _ _ => true
      safeTransfer := fun _ _ _ => true }
  baseCurrency := 0
  logs := []

def registration : RuneRegistration :=
  ⟨Packed.ascii "UNCOMMON", Packed.ascii "U", 7, 16⟩

def accepted : TransferFromBtc := ⟨5, 7, 1000, 9, 0⟩

/-- The federator's signature over the transfer. -/
def signature : Address × Bytes :=
  (4, symbolicCrypto.toEthSignedMessageHash
    (getAcceptTransferFromBtcMessageHash symbolicCrypto 1 accepted))

def calls : List (Msg × Call (Address × Bytes)) :=
  [(⟨3, 0⟩, .registerRune 10 registration),
   (⟨4, 0⟩, .acceptTransferFromBtc accepted [signature]),
   (⟨5, 0⟩, .tokenCall 10 (.approve 1 60000)),
   (⟨5, 300000000000000⟩, .transferToBtc 10 60000 (Packed.ascii "bc1q")),
   (⟨5, 0⟩, .tokenBurn 10 1234)]

lemma undeployed : world.Undeployed := ⟨rfl, fun _ => rfl, rfl⟩

/-- What `f` reads of the state the calls lead to, when none of them reverts, is read of a
reachable state. -/
lemma run_of_eval (rest : List (Msg × Call (Address × Bytes))) {α : Type}
    (f : World Balances RoleLists → α) (x : α)
    (h : (world.initializeBridge 2 6 >>= fun w => w.execAll symbolicCrypto rest).map f =
      .ok x) : ∃ w, ContractRun symbolicCrypto rest w ∧ f w = x := by
  cases hinit : world.initializeBridge 2 6 with
  | error e =>
      rw [hinit] at h
      exact absurd h (by simp [Except.map, bind, Except.bind])
  | ok w₀ =>
      rw [hinit] at h
      have hw₀ : ContractRun symbolicCrypto [] w₀ := .init ⟨_, undeployed, 2, 6, hinit⟩
      cases hall : w₀.execAll symbolicCrypto rest with
      | error e =>
          simp [Except.map, bind, Except.bind, hall] at h
      | ok w =>
          simp only [Except.map, ok_bind, hall] at h
          exact ⟨w, World.run_execAll symbolicCrypto hw₀ hall, Except.ok.inj h⟩

end Deployment

end NbteBridge
