import NbteBridge.Contracts.AccessControl
import NbteBridge.Foundations.Runs

/-!
# BTCAddressValidator

The contract that decides which Bitcoin addresses may be paid out to.  For an address under the
configured prefix it runs the checksum register of the bech32 formats on 256-bit words, from a start
that `doSetBech32Prefix` computed once from the prefix, with a table of 256 bytes for the alphabet
and the first value taken out of the loop.

This file is the contract: its storage, its setters, and the check of an address with the reads that
may go out of bounds as reads that may panic.
-/

namespace NbteBridge

open Checked Packed

/-- The storage of the validator; the access control it refers to is fixed at its deployment. -/
structure BTCAddressValidator where
  bech32Prefix : Bytes
  supportsLegacy : Bool
  nonBech32Prefixes : List Bytes
  bech32MinLength : Uint256
  bech32MaxLength : Uint256
  nonBech32MinLength : Uint256
  nonBech32MaxLength : Uint256
  maxSegwitVersion : Uint8
  precomputedBech32ChecksumStart : Uint256
  deriving DecidableEq

/-- The setters of the contract. -/
inductive BTCAddressValidatorCall
  | setBech32Prefix (prefix_ : Bytes)
  | setNonBech32Prefixes (prefixes : List Bytes)
  | setBech32MinAndMaxLengths (minLength maxLength : Uint256)
  | setNonBech32MinAndMaxLengths (minLength maxLength : Uint256)
  | setMaxSegwitVersion (version : Uint8)
  deriving DecidableEq

namespace BTCAddressValidator

/-- The value of each byte in the bech32 alphabet, `0xff` where it is not in it. -/
def BECH32_ALPHABET_MAP : Bytes :=
  ["ffffffffffffffffffffffffffffffffffffffffffffffffffffffffffffffff",
    "ffffffffffffffffffffffffffffffff0fff0a1115141a1e0705ffffffffffff",
    "ffffffffffffffffffffffffffffffffffffffffffffffffffffffffffffffff",
    "ff1dff180d19090817ff12161f1b13ff010003100b1c0c0e060402ffffffffff",
    "ffffffffffffffffffffffffffffffffffffffffffffffffffffffffffffffff",
    "ffffffffffffffffffffffffffffffffffffffffffffffffffffffffffffffff",
    "ffffffffffffffffffffffffffffffffffffffffffffffffffffffffffffffff",
    "ffffffffffffffffffffffffffffffffffffffffffffffffffffffffffffffff"].flatMap hex

def SEGWIT_V0_BECH32_CHECKSUM_CONSTANT : Uint256 := 1

def SEGWIT_V1_BECH32_CHECKSUM_CONSTANT : Uint256 := 0x2bc830a3

def polymodStep (pre : Uint256) : Uint256 :=
  let b := pre >>> 25
  let pre := (pre &&& 0x1ffffff) <<< 5
  let pre := if b &&& 0x01 ≠ 0 then pre ^^^ 0x3b6a57b2 else pre
  let pre := if b &&& 0x02 ≠ 0 then pre ^^^ 0x26508e6d else pre
  let pre := if b &&& 0x04 ≠ 0 then pre ^^^ 0x1ea119fa else pre
  let pre := if b &&& 0x08 ≠ 0 then pre ^^^ 0x3d4233dd else pre
  if b &&& 0x10 ≠ 0 then pre ^^^ 0x2a1462b3 else pre

/-! ## Configuration -/

/-- The two loops of `_setBech32Prefix` over the prefix without its last character. -/
def checksumStart (hrp : Bytes) : Uint256 :=
  let chk := hrp.foldl (fun chk (c : UInt8) => polymodStep chk ^^^ Uint256.ofByte (c >>> 5)) 1
  let chk := polymodStep chk
  hrp.foldl (fun chk (c : UInt8) => polymodStep chk ^^^ Uint256.ofByte (c &&& 0x1f)) chk

def doSetBech32Prefix (s : BTCAddressValidator) (prefix_ : Bytes) :
    Result BTCAddressValidator := do
  require (prefix_.length + 1 < s.bech32MinLength.toNat)
    "minLength must be greater than prefix length plus version"
  require (1 ≤ prefix_.length) "panic: arithmetic underflow"
  let i := prefix_.length - 1
  let chk := checksumStart (prefix_.take i)
  let last ← index prefix_ i
  require (last = 0x31) "bech32Prefix doesn't end in '1'"
  pure { s with bech32Prefix := prefix_, precomputedBech32ChecksumStart := chk }

def setNonBech32Prefixes (s : BTCAddressValidator) (prefixes : List Bytes) :
    BTCAddressValidator :=
  { s with nonBech32Prefixes := prefixes, supportsLegacy := decide (0 < prefixes.length) }

def setBech32MinAndMaxLengths (s : BTCAddressValidator) (minLength maxLength : Uint256) :
    Result BTCAddressValidator := do
  require (minLength ≤ maxLength) "minLength greater than maxLength"
  require (s.bech32Prefix.length + 1 < minLength.toNat)
    "minLength must be greater than prefix length plus version"
  pure { s with bech32MinLength := minLength, bech32MaxLength := maxLength }

def setNonBech32MinAndMaxLengths (s : BTCAddressValidator) (minLength maxLength : Uint256) :
    Result BTCAddressValidator := do
  require (minLength ≤ maxLength) "minLength greater than maxLength"
  pure { s with nonBech32MinLength := minLength, nonBech32MaxLength := maxLength }

def setMaxSegwitVersion (s : BTCAddressValidator) (version : Uint8) :
    Result BTCAddressValidator := do
  require (version ≤ 0x1f) "version must be less than 0x1f to fit in bech32 alphabet"
  pure { s with maxSegwitVersion := version }

/-- The storage before the constructor's body: the defaults of the source. -/
def initial : BTCAddressValidator where
  bech32Prefix := []
  supportsLegacy := false
  nonBech32Prefixes := []
  bech32MinLength := 42
  bech32MaxLength := 64
  nonBech32MinLength := 26
  nonBech32MaxLength := 35
  maxSegwitVersion := 1
  precomputedBech32ChecksumStart := 0

def construct (bech32Prefix : Bytes) (nonBech32Prefixes : List Bytes) :
    Result BTCAddressValidator := do
  let s ← doSetBech32Prefix initial bech32Prefix
  pure { s with
    supportsLegacy := decide (0 < nonBech32Prefixes.length)
    nonBech32Prefixes := nonBech32Prefixes }

/-- A setter called by `sender` while `ac` is the access control: each is `onlyAdmin`. -/
def call {R : Type} [AccessControlEnumerable R] (s : BTCAddressValidator)
    (ac : NBTEBridgeAccessControl R) (sender : Address) :
    BTCAddressValidatorCall → Result BTCAddressValidator
  | .setBech32Prefix prefix_ => do
      ac.checkAdmin sender
      s.doSetBech32Prefix prefix_
  | .setNonBech32Prefixes prefixes => do
      ac.checkAdmin sender
      pure (s.setNonBech32Prefixes prefixes)
  | .setBech32MinAndMaxLengths minLength maxLength => do
      ac.checkAdmin sender
      s.setBech32MinAndMaxLengths minLength maxLength
  | .setNonBech32MinAndMaxLengths minLength maxLength => do
      ac.checkAdmin sender
      s.setNonBech32MinAndMaxLengths minLength maxLength
  | .setMaxSegwitVersion version => do
      ac.checkAdmin sender
      s.setMaxSegwitVersion version

/-! ## Validation -/

/-- Does a string start with a prefix? -/
def startsWith (string prefix_ : Bytes) : Bool :=
  if string.length < prefix_.length then false
  else (string.zip prefix_).all fun c => c.1 = c.2

/-- The loop over the characters after the version; `none` where one is not in the alphabet. -/
def mapCharacters (chk : Uint256) : Bytes → Result (Option Uint256)
  | [] => pure (some chk)
  | c :: cs => do
      let mapped ← index BECH32_ALPHABET_MAP c.toNat
      if 0x1f < mapped then pure none
      else mapCharacters (polymodStep chk ^^^ Uint256.ofByte mapped) cs

variable (s : BTCAddressValidator)

def validateBech32Address (btcAddress : Bytes) : Result Bool := do
  if btcAddress.length < s.bech32MinLength.toNat ∨
      s.bech32MaxLength.toNat < btcAddress.length then
    return false
  let chk := s.precomputedBech32ChecksumStart
  let versionUnmapped ← index btcAddress s.bech32Prefix.length
  let version ← index BECH32_ALPHABET_MAP versionUnmapped.toNat
  if s.maxSegwitVersion.toNat < version.toNat then
    return false
  let checksumConstant :=
    if 1 ≤ version then SEGWIT_V1_BECH32_CHECKSUM_CONSTANT else SEGWIT_V0_BECH32_CHECKSUM_CONSTANT
  let chk := polymodStep chk ^^^ Uint256.ofByte version
  match ← mapCharacters chk (btcAddress.drop (s.bech32Prefix.length + 1)) with
  | none => return false
  | some chk => return decide (chk = checksumConstant)

def hasValidNonBech32Prefix (btcAddress : Bytes) : Bool :=
  s.nonBech32Prefixes.any fun prefix_ => startsWith btcAddress prefix_

/-- Between `1` and `9`, a capital but `I` and `O`, a small letter but `l`. -/
def isValidCharacter (c : UInt8) : Bool :=
  (0x31 ≤ c && c ≤ 0x39) || (0x41 ≤ c && c ≤ 0x5a && c ≠ 0x49 && c ≠ 0x4f) ||
    (0x61 ≤ c && c ≤ 0x7a && c ≠ 0x6c)

def validateNonBech32Address (btcAddress : Bytes) : Bool :=
  if btcAddress.length < s.nonBech32MinLength.toNat ∨
      s.nonBech32MaxLength.toNat < btcAddress.length then false
  else if !s.hasValidNonBech32Prefix btcAddress then false
  else (btcAddress.drop 1).all isValidCharacter

def isValidBtcAddress (btcAddress : Bytes) : Result Bool :=
  if startsWith btcAddress s.bech32Prefix then s.validateBech32Address btcAddress
  else if s.supportsLegacy then pure (s.validateNonBech32Address btcAddress)
  else pure false

end BTCAddressValidator

end NbteBridge
