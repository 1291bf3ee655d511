import NbteBridge.Foundations.Checked
import NbteBridge.Foundations.Packed

/-!
# The contracts' machine types

Addresses, 256-bit words and byte strings of the EVM, Solidity 0.8's checked arithmetic (an
overflow or a division by zero reverts), and what the contracts take from outside the
repository: `keccak256`, the signed-message prefix and `ECDSA.recover`.
-/

namespace NbteBridge

open Checked

abbrev Address := BitVec 160

instance : LawfulBEq Address := inferInstance

abbrev Uint256 := BitVec 256

abbrev Uint8 := BitVec 8

abbrev Bytes32 := BitVec 256

/-- `bytes` and `string` values. -/
abbrev Bytes := List UInt8

/-- The result of a call: the reason it reverted with, or what it returned. -/
abbrev Result := Except String

/-- The message a call is made with: `msg.sender` and `msg.value`. -/
structure Msg where
  sender : Address
  value : Uint256
  deriving DecidableEq

/-! ## Checked arithmetic -/

namespace Uint256

/-- `a + b`, reverting on overflow. -/
def add (a b : Uint256) : Result Uint256 := do
  require (a.toNat + b.toNat < 2 ^ 256) "panic: arithmetic overflow"
  pure (a + b)

/-- `a - b`, reverting on underflow. -/
def sub (a b : Uint256) : Result Uint256 := do
  require (b.toNat ≤ a.toNat) "panic: arithmetic underflow"
  pure (a - b)

/-- `a * b`, reverting on overflow. -/
def mul (a b : Uint256) : Result Uint256 := do
  require (a.toNat * b.toNat < 2 ^ 256) "panic: arithmetic overflow"
  pure (a * b)

/-- `a / b`, reverting on division by zero. -/
def div (a b : Uint256) : Result Uint256 := do
  require (b ≠ 0) "panic: division by zero"
  pure (a / b)

lemma add_eq_ok {a b c : Uint256} : add a b = .ok c ↔ c.toNat = a.toNat + b.toNat := by
  simp only [add, bind_eq_ok, exists_unit, require_eq_ok, pure_eq_ok]
  constructor
  · rintro ⟨h, rfl⟩
    rw [BitVec.toNat_add, Nat.mod_eq_of_lt h]
  · intro h
    have hc := c.isLt
    refine ⟨by omega, BitVec.eq_of_toNat_eq ?_⟩
    rw [BitVec.toNat_add, Nat.mod_eq_of_lt (by omega), h]

lemma sub_eq_ok {a b c : Uint256} : sub a b = .ok c ↔ c.toNat + b.toNat = a.toNat := by
  simp only [sub, bind_eq_ok, exists_unit, require_eq_ok, pure_eq_ok]
  constructor
  · rintro ⟨h, rfl⟩
    rw [BitVec.toNat_sub_of_le h]
    omega
  · intro h
    have hle : b.toNat ≤ a.toNat := by omega
    refine ⟨hle, BitVec.eq_of_toNat_eq ?_⟩
    rw [BitVec.toNat_sub_of_le hle]
    omega

lemma mul_eq_ok {a b c : Uint256} : mul a b = .ok c ↔ c.toNat = a.toNat * b.toNat := by
  simp only [mul, bind_eq_ok, exists_unit, require_eq_ok, pure_eq_ok]
  constructor
  · rintro ⟨h, rfl⟩
    rw [BitVec.toNat_mul, Nat.mod_eq_of_lt h]
  · intro h
    have hlt : a.toNat * b.toNat < 2 ^ 256 := h ▸ c.isLt
    refine ⟨hlt, BitVec.eq_of_toNat_eq ?_⟩
    rw [BitVec.toNat_mul, Nat.mod_eq_of_lt hlt, h]

lemma div_eq_ok {a b c : Uint256} :
    div a b = .ok c ↔ b ≠ 0 ∧ c.toNat = a.toNat / b.toNat := by
  simp only [div, bind_eq_ok, exists_unit, require_eq_ok, pure_eq_ok]
  constructor
  · rintro ⟨h, rfl⟩
    exact ⟨h, BitVec.toNat_udiv⟩
  · rintro ⟨h, hc⟩
    exact ⟨h, BitVec.eq_of_toNat_eq (by rw [BitVec.toNat_udiv, hc])⟩

end Uint256

/-! ## Bytes and arrays -/

/-- `values[i]`, which panics past the end. -/
def index {α : Type} (values : List α) (i : ℕ) : Result α :=
  orError values[i]? "panic: array index out of bounds"

lemma index_eq_ok {α : Type} {values : List α} {i : ℕ} {a : α} :
    index values i = .ok a ↔ values[i]? = some a := orError_eq_ok

/-- A byte as a word. -/
def Uint256.ofByte (c : UInt8) : Uint256 := BitVec.ofNat 256 c.toNat

@[simp] lemma Uint256.toNat_ofByte (c : UInt8) : (Uint256.ofByte c).toNat = c.toNat := by
  have h := c.toNat_lt
  rw [Uint256.ofByte, BitVec.toNat_ofNat, Nat.mod_eq_of_lt (by omega)]

/-! ## Hashing and signatures -/

/-- What the contracts call outside the repository to hash a message and to recover the signer
of a hash.  `recover` is `none` where `ECDSA.recover` reverts. -/
structure Crypto (Hash Sig : Type) where
  keccak256 : Bytes → Hash
  toEthSignedMessageHash : Hash → Hash
  recover : Hash → Sig → Option Address

/-- The assumptions made about them: the hashes are collision free, and a signature that recovers to
an address of `F` was made with its key: `(signed s).1` is the address, and `(signed s).2` the one
hash it was made over.  Of the other addresses nothing is assumed, as `ecrecover` returns some
address for nearly every hash. -/
structure Crypto.Ideal {Hash Sig : Type} (C : Crypto Hash Sig) (F : Set Address)
    (signed : Sig → Address × Hash) : Prop where
  keccak256_injective : Function.Injective C.keccak256
  toEthSignedMessageHash_injective : Function.Injective C.toEthSignedMessageHash
  recover_signed : ∀ h s a, a ∈ F → C.recover h s = some a → signed s = (a, h)

end NbteBridge
