import NbteBridge.Contracts.OpenZeppelin

/-!
# RuneToken

The ERC20 deployed for each registered rune.  Its divisor is fixed by the constructor from the
rune's divisibility; only the minter mints or passes on the minting right; anyone burns their own
tokens.  The spec lemmas give, for each function, the supply and the fields it leaves alone.
-/

namespace NbteBridge

open Checked

structure RuneToken (T : Type) where
  erc20 : T
  minter : Address
  rune : Uint256
  runeDivisibility : Uint8
  tokenDecimals : Uint8
  runeAmountDivisor : Uint256

namespace RuneToken

variable {T : Type} [Erc20 T]

/-- The constructor, with the deployer as minter.  A rune with fewer than 18 decimals gets a
token with 18. -/
def construct (sender : Address) (tokenName tokenSymbol : Bytes) (rune : Uint256)
    (runeDivisibility : Uint8) : RuneToken T where
  erc20 := Erc20.construct tokenName tokenSymbol
  minter := sender
  rune := rune
  runeDivisibility := runeDivisibility
  tokenDecimals := if runeDivisibility < 18 then 18 else runeDivisibility
  runeAmountDivisor :=
    if runeDivisibility < 18 then BitVec.ofNat 256 (10 ^ (18 - runeDivisibility.toNat)) else 1

def totalSupply (token : RuneToken T) : ℕ := (Erc20.totalSupply token.erc20).toNat

def balanceOf (token : RuneToken T) (a : Address) : ℕ := (Erc20.balanceOf token.erc20 a).toNat

/-- Truncates: the remainder is not checked. -/
def getRuneAmount (token : RuneToken T) (tokenAmount : Uint256) : Result Uint256 :=
  Uint256.div tokenAmount token.runeAmountDivisor

def getTokenAmount (token : RuneToken T) (runeAmount : Uint256) : Result Uint256 :=
  Uint256.mul runeAmount token.runeAmountDivisor

def mintTo (token : RuneToken T) (sender to_ : Address) (amount : Uint256) :
    Result (RuneToken T) := do
  require (sender = token.minter) "only callable by minter"
  let erc20 ← Erc20.mint token.erc20 to_ amount
  pure { token with erc20 := erc20 }

def burn (token : RuneToken T) (sender : Address) (amount : Uint256) : Result (RuneToken T) := do
  let erc20 ← Erc20.burn token.erc20 sender amount
  pure { token with erc20 := erc20 }

def changeMinter (token : RuneToken T) (sender newMinter : Address) : Result (RuneToken T) := do
  require (sender = token.minter) "only callable by minter"
  pure { token with minter := newMinter }

/-- An inherited ERC20 call by `sender`. -/
def call (token : RuneToken T) (sender : Address) (c : Erc20Call) : Result (RuneToken T) := do
  let erc20 ← Erc20.call token.erc20 sender c
  pure { token with erc20 := erc20 }

/-! ## What each function changes -/

/-- Everything but the ERC20 storage is the same. -/
structure SameTerms (token token' : RuneToken T) : Prop where
  minter : token'.minter = token.minter
  rune : token'.rune = token.rune
  runeDivisibility : token'.runeDivisibility = token.runeDivisibility
  tokenDecimals : token'.tokenDecimals = token.tokenDecimals
  runeAmountDivisor : token'.runeAmountDivisor = token.runeAmountDivisor

omit [Erc20 T] in
lemma SameTerms.trans {t₁ t₂ t₃ : RuneToken T} (h : SameTerms t₁ t₂) (h' : SameTerms t₂ t₃) :
    SameTerms t₁ t₃ where
  minter := h'.minter.trans h.minter
  rune := h'.rune.trans h.rune
  runeDivisibility := h'.runeDivisibility.trans h.runeDivisibility
  tokenDecimals := h'.tokenDecimals.trans h.tokenDecimals
  runeAmountDivisor := h'.runeAmountDivisor.trans h.runeAmountDivisor

lemma runeAmountDivisor_construct_pos (sender : Address) (name symbol : Bytes) (rune : Uint256)
    (divisibility : Uint8) :
    0 < (construct (T := T) sender name symbol rune divisibility).runeAmountDivisor.toNat := by
  simp only [construct]
  split
  · rename_i h
    have hpow : 10 ^ (18 - divisibility.toNat) ≤ 10 ^ 18 :=
      Nat.pow_le_pow_right (by norm_num) (Nat.sub_le _ _)
    have hlt : 10 ^ (18 - divisibility.toNat) < 2 ^ 256 := lt_of_le_of_lt hpow (by norm_num)
    rw [BitVec.toNat_ofNat, Nat.mod_eq_of_lt hlt]
    positivity
  · simp

variable [LawfulErc20 T]

lemma totalSupply_construct (sender : Address) (name symbol : Bytes) (rune : Uint256)
    (divisibility : Uint8) :
    (construct (T := T) sender name symbol rune divisibility).totalSupply = 0 :=
  LawfulErc20.totalSupply_construct name symbol

lemma mintTo_ok {token token' : RuneToken T} {sender to_ : Address} {amount : Uint256}
    (h : token.mintTo sender to_ amount = .ok token') :
    sender = token.minter ∧ SameTerms token token' ∧
      token'.totalSupply = token.totalSupply + amount.toNat ∧
      token'.balanceOf to_ = token.balanceOf to_ + amount.toNat ∧
      ∀ b, b ≠ to_ → token'.balanceOf b = token.balanceOf b := by
  simp only [mintTo, bind_eq_ok, exists_unit, require_eq_ok, pure_eq_ok] at h
  obtain ⟨hsender, erc20, hmint, rfl⟩ := h
  obtain ⟨hto, hother⟩ := LawfulErc20.balanceOf_mint _ _ _ _ hmint
  refine ⟨hsender, ⟨rfl, rfl, rfl, rfl, rfl⟩, LawfulErc20.totalSupply_mint _ _ _ _ hmint,
    hto, fun b hb => ?_⟩
  exact congrArg BitVec.toNat (hother b hb)

lemma burn_ok {token token' : RuneToken T} {sender : Address} {amount : Uint256}
    (h : token.burn sender amount = .ok token') :
    SameTerms token token' ∧ token'.totalSupply + amount.toNat = token.totalSupply := by
  simp only [burn, bind_eq_ok, pure_eq_ok] at h
  obtain ⟨erc20, hburn, rfl⟩ := h
  exact ⟨⟨rfl, rfl, rfl, rfl, rfl⟩, LawfulErc20.totalSupply_burn _ _ _ _ hburn⟩

lemma call_ok {token token' : RuneToken T} {sender : Address} {c : Erc20Call}
    (h : token.call sender c = .ok token') :
    SameTerms token token' ∧ token'.totalSupply = token.totalSupply := by
  simp only [call, bind_eq_ok, pure_eq_ok] at h
  obtain ⟨erc20, hcall, rfl⟩ := h
  exact ⟨⟨rfl, rfl, rfl, rfl, rfl⟩,
    congrArg BitVec.toNat (LawfulErc20.totalSupply_call _ _ _ _ hcall)⟩

end RuneToken

end NbteBridge
