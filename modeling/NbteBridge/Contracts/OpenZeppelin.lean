import NbteBridge.Contracts.Evm

/-!
# The inherited base contracts

`RuneToken` inherits an `ERC20`, `NBTEBridgeAccessControl` an `AccessControlEnumerable`; both
come from a package outside the repository.  Each is an interface here, a class of operations
over an abstract state, with the documented behaviour the contracts rely on as a separate class
of laws.  A result assumes only the laws it names.
-/

namespace NbteBridge

/-! ## ERC20 -/

/-- The public ERC20 functions that move tokens or allowances and neither mint nor burn. -/
inductive Erc20Call
  | transfer (to_ : Address) (amount : Uint256)
  | approve (spender : Address) (amount : Uint256)
  | transferFrom (owner to_ : Address) (amount : Uint256)
  | increaseAllowance (spender : Address) (addedValue : Uint256)
  | decreaseAllowance (spender : Address) (subtractedValue : Uint256)
  deriving DecidableEq

/-- The ERC20 base of a token, over its storage `T`. -/
class Erc20 (T : Type) where
  /-- The constructor, with the token's name and symbol. -/
  construct : Bytes → Bytes → T
  totalSupply : T → Uint256
  balanceOf : T → Address → Uint256
  /-- `_mint(account, amount)`. -/
  mint : T → Address → Uint256 → Result T
  /-- `_burn(account, amount)`. -/
  burn : T → Address → Uint256 → Result T
  /-- A public call by `msg.sender`. -/
  call : T → Address → Erc20Call → Result T

/-- The supply is what was minted less what was burned, and a mint credits its receiver. -/
class LawfulErc20 (T : Type) [Erc20 T] : Prop where
  totalSupply_construct : ∀ name symbol,
    (Erc20.totalSupply (Erc20.construct name symbol : T)).toNat = 0
  totalSupply_mint : ∀ (t t' : T) a n, Erc20.mint t a n = .ok t' →
    (Erc20.totalSupply t').toNat = (Erc20.totalSupply t).toNat + n.toNat
  balanceOf_mint : ∀ (t t' : T) a n, Erc20.mint t a n = .ok t' →
    (Erc20.balanceOf t' a).toNat = (Erc20.balanceOf t a).toNat + n.toNat ∧
      ∀ b, b ≠ a → Erc20.balanceOf t' b = Erc20.balanceOf t b
  totalSupply_burn : ∀ (t t' : T) a n, Erc20.burn t a n = .ok t' →
    (Erc20.totalSupply t').toNat + n.toNat = (Erc20.totalSupply t).toNat
  totalSupply_call : ∀ (t t' : T) a c, Erc20.call t a c = .ok t' →
    Erc20.totalSupply t' = Erc20.totalSupply t

/-- Whose tokens a call moves to whom, and how many. -/
def Erc20Call.moves (sender : Address) : Erc20Call → Option (Address × Address × Uint256)
  | transfer to_ amount => some (sender, to_, amount)
  | transferFrom owner to_ amount => some (owner, to_, amount)
  | _ => none

namespace Erc20

variable {T : Type} [Erc20 T]

/-- The balances add up to the supply. -/
def Accounted (t : T) : Prop :=
  ∑ a : Address, (Erc20.balanceOf t a).toNat = (Erc20.totalSupply t).toNat

/-- `amount` went from one account to another, which may be the same. -/
def Moved (t t' : T) (from_ to_ : Address) (amount : Uint256) : Prop :=
  ∀ a, (Erc20.balanceOf t' a).toNat + (if a = from_ then amount.toNat else 0) =
    (Erc20.balanceOf t a).toNat + (if a = to_ then amount.toNat else 0)

end Erc20

/-- Accounts start empty, a burn debits one, and a call that moves tokens moves just these; where
the balances add up to the supply, none of them overflows. -/
class LawfulErc20Accounts (T : Type) [Erc20 T] : Prop where
  balanceOf_construct : ∀ name symbol a,
    (Erc20.balanceOf (Erc20.construct name symbol : T) a).toNat = 0
  balanceOf_burn : ∀ (t t' : T) a n, Erc20.burn t a n = .ok t' →
    ∀ b, (Erc20.balanceOf t' b).toNat + (if b = a then n.toNat else 0) =
      (Erc20.balanceOf t b).toNat
  balanceOf_move : ∀ (t t' : T) s c a b n, Erc20.Accounted t → Erc20.call t s c = .ok t' →
    c.moves s = some (a, b, n) → Erc20.Moved t t' a b n
  balanceOf_call : ∀ (t t' : T) s c, Erc20.call t s c = .ok t' → c.moves s = none →
    Erc20.balanceOf t' = Erc20.balanceOf t

/-! ## AccessControlEnumerable -/

/-- A role identifier. -/
abbrev Role := Bytes32

/-- The role that administers every role, as no contract here changes a role's admin. -/
def DEFAULT_ADMIN_ROLE : Role := 0

/-- The enumerable role sets of a contract, over their storage `R`. -/
class AccessControlEnumerable (R : Type) where
  /-- No account has any role. -/
  construct : R
  hasRole : R → Role → Address → Bool
  getRoleMemberCount : R → Role → ℕ
  getRoleMember : R → Role → ℕ → Option Address
  setupRole : R → Role → Address → R
  /-- `grantRole(role, account)` by `msg.sender`, and so on. -/
  grantRole : R → Address → Role → Address → Result R
  revokeRole : R → Address → Role → Address → Result R
  renounceRole : R → Address → Role → Address → Result R

open AccessControlEnumerable in
/-- Granting needs the admin role and adds one member; revoking needs it too and removes one;
renouncing is for oneself.  The members of a role are enumerated without repetition. -/
class LawfulAccessControlEnumerable (R : Type) [AccessControlEnumerable R] : Prop where
  hasRole_construct : ∀ ρ a, hasRole (construct : R) ρ a = false
  hasRole_setupRole : ∀ (r : R) ρ a ρ' b,
    hasRole (setupRole r ρ a) ρ' b = true ↔ hasRole r ρ' b = true ∨ (ρ' = ρ ∧ b = a)
  grantRole_ok : ∀ (r r' : R) s ρ a, grantRole r s ρ a = .ok r' →
    hasRole r DEFAULT_ADMIN_ROLE s = true ∧
      ∀ ρ' b, hasRole r' ρ' b = true ↔ hasRole r ρ' b = true ∨ (ρ' = ρ ∧ b = a)
  revokeRole_ok : ∀ (r r' : R) s ρ a, revokeRole r s ρ a = .ok r' →
    hasRole r DEFAULT_ADMIN_ROLE s = true ∧
      ∀ ρ' b, hasRole r' ρ' b = true ↔ hasRole r ρ' b = true ∧ ¬ (ρ' = ρ ∧ b = a)
  renounceRole_ok : ∀ (r r' : R) s ρ a, renounceRole r s ρ a = .ok r' →
    a = s ∧ ∀ ρ' b, hasRole r' ρ' b = true ↔ hasRole r ρ' b = true ∧ ¬ (ρ' = ρ ∧ b = a)
  members : ∀ (r : R) ρ, ∃ l : List Address, l.Nodup ∧ l.length = getRoleMemberCount r ρ ∧
    (∀ a, a ∈ l ↔ hasRole r ρ a = true) ∧ ∀ i, getRoleMember r ρ i = l[i]?

end NbteBridge
