import NbteBridge.Contracts.Evm

/-!
# TapUtils

The contract that decodes Taproot Asset addresses: a bech32m string under the configured prefix,
its five-bit values regrouped into bytes, and the bytes read as a stream of type-length-value
records whose types increase.

Lengths and offsets are natural numbers: they index arrays in memory, so no sum of them overflows a
word.  The loop over the records is `readRecords`, with the length of the stream as its fuel; every
record takes at least two bytes, and `decodeTapAddress` never runs out of it.
-/

namespace NbteBridge

open Checked Packed

abbrev Uint64 := BitVec 64

/-- A decoded address. -/
@[ext] structure TapAddress where
  chainParamsHrp : Bytes
  addressVersion : UInt8
  assetVersion : UInt8
  assetId : Bytes32
  groupKey : Bytes
  scriptKey : Bytes
  internalKey : Bytes
  tapscriptSibling : Bytes
  amount : Uint64
  assetType : Bytes
  deriving DecidableEq

/-- The contract, with the prefix it was deployed for. -/
structure TapUtils where
  tapAddressPrefix : Bytes
  deriving DecidableEq

namespace TapUtils

/-! ## Bech32 -/

def BECH32M_CHECKSUM_CONSTANT : Uint256 := 0x2bc830a3

def BECH32_FIRST_ORD : UInt8 := 48

def BECH32_LAST_ORD : UInt8 := 122

def BECH32_MAX_VALID_MAPPED : UInt8 := 0x1f

/-- The values of the characters from `BECH32_FIRST_ORD` to `BECH32_LAST_ORD`, `0xff` for none. -/
def BECH32_ALPHABET_MAP : Bytes :=
  ["0fff0a1115141a1e0705ffffffffffffffffffffffffffffffffffffffffffff",
    "ffffffffffffffffffffffffffffffffff1dff180d19090817ff12161f1b13ff",
    "010003100b1c0c0e060402"].flatMap hex

def BECH32_CHECKSUM_LENGTH : ℕ := 6

def polymodStep (pre : Uint256) : Uint256 :=
  let b := pre >>> 25
  let pre := (pre &&& 0x1ffffff) <<< 5
  let pre := if (b >>> 0) &&& 1 ≠ 0 then pre ^^^ 0x3b6a57b2 else pre
  let pre := if (b >>> 1) &&& 1 ≠ 0 then pre ^^^ 0x26508e6d else pre
  let pre := if (b >>> 2) &&& 1 ≠ 0 then pre ^^^ 0x1ea119fa else pre
  let pre := if (b >>> 3) &&& 1 ≠ 0 then pre ^^^ 0x3d4233dd else pre
  if (b >>> 4) &&& 1 ≠ 0 then pre ^^^ 0x2a1462b3 else pre

/-- The loop over the prefix from its character `i` on, up to the first `1`: where it stopped, and
the register there. -/
def parsePrefix (validPrefix : Bytes) : ℕ → Uint256 → Bytes → Result (ℕ × Uint256)
  | i, chk, [] => pure (i, chk)
  | i, chk, c :: cs => do
      require (i ≤ validPrefix.length) "invalid prefix length (too long)"
      if c = 0x31 then pure (i, chk)
      else
        let valid ← index validPrefix i
        require (c = valid) "invalid prefix"
        parsePrefix validPrefix (i + 1) (polymodStep chk ^^^ Uint256.ofByte (c >>> 5)) cs

/-- The loop over the characters after the separator: their values but for the last six, and the
register after all of them. -/
def readCharacters (chk : Uint256) : Bytes → Result (Bytes × Uint256)
  | [] => pure ([], chk)
  | c :: cs => do
      require (BECH32_FIRST_ORD ≤ c ∧ c ≤ BECH32_LAST_ORD) "invalid char"
      let mapped ← index BECH32_ALPHABET_MAP (c - BECH32_FIRST_ORD).toNat
      require (mapped ≤ BECH32_MAX_VALID_MAPPED) "invalid char (mapped)"
      let (words, chk) ← readCharacters (polymodStep chk ^^^ Uint256.ofByte mapped) cs
      if BECH32_CHECKSUM_LENGTH < (c :: cs).length then pure (mapped :: words, chk)
      else pure (words, chk)

def decodeBech32 (validPrefix input : Bytes) (checksumConstant : Uint256) : Result Bytes := do
  let (i, chk) ← parsePrefix validPrefix 0 1 input
  require (i = validPrefix.length) "invalid checksum length (too short)"
  let chk := polymodStep chk
  let chk := (input.take i).foldl
    (fun chk (c : UInt8) => polymodStep chk ^^^ Uint256.ofByte (c &&& 0x1f)) chk
  let start := i + 1
  require (start + BECH32_CHECKSUM_LENGTH ≤ input.length) "panic: arithmetic underflow"
  let (words, chk) ← readCharacters chk (input.drop start)
  require (chk = checksumConstant) "invalid checksum"
  pure words

/-! ## Regrouping -/

/-- The inner loop of `convertBits`: whole groups are taken off the accumulator and appended.
`fuel` is the number of bits, of which each round takes some. -/
def takeGroups (toBits retSize acc : ℕ) : ℕ → ℕ → Bytes → Result (ℕ × Bytes)
  | 0, bits, ret => pure (bits, ret)
  | fuel + 1, bits, ret =>
      if toBits ≤ bits then do
        let bits := bits - toBits
        require (ret.length < retSize) "panic: array index out of bounds"
        takeGroups toBits retSize acc fuel bits
          (ret ++ [UInt8.ofNat ((acc >>> bits) &&& (2 ^ toBits - 1))])
      else pure (bits, ret)

/-- The outer loop of `convertBits`: the accumulator, its bits not yet written, and the bytes
written. -/
def convertWords (fromBits toBits retSize : ℕ) :
    ℕ → ℕ → Bytes → Bytes → Result (ℕ × ℕ × Bytes)
  | acc, bits, ret, [] => pure (acc, bits, ret)
  | acc, bits, ret, word :: words => do
      let value := word.toNat
      require (value >>> fromBits = 0) "invalid value"
      let acc := ((acc <<< fromBits) ||| value) &&& (2 ^ (fromBits + toBits - 1) - 1)
      let bits := bits + fromBits
      let (bits, ret) ← takeGroups toBits retSize acc bits bits ret
      convertWords fromBits toBits retSize acc bits ret words

def convertBits (words : Bytes) (fromBits toBits : ℕ) (pad : Bool) : Result Bytes := do
  let maxv := 2 ^ toBits - 1
  let retSize := words.length * fromBits / toBits
  let (acc, bits, ret) ← convertWords fromBits toBits retSize 0 0 [] words
  let ret ←
    if pad then
      if bits ≠ 0 then do
        require (ret.length < retSize) "panic: array index out of bounds"
        pure (ret ++ [UInt8.ofNat ((acc <<< (toBits - bits)) &&& maxv)])
      else pure ret
    else do
      require (¬ (fromBits ≤ bits ∨ (acc <<< (toBits - bits)) &&& maxv ≠ 0)) "invalid padding"
      pure ret
  -- what was not written of the array is zero
  pure (ret ++ List.replicate (retSize - ret.length) 0)

def decodeBech32Address (validPrefix input : Bytes) (checksumConstant : Uint256) :
    Result Bytes := do
  let words ← decodeBech32 validPrefix input checksumConstant
  convertBits words 5 8 false

/-! ## Reading -/

/-- Bytes shifted into a word, the first the highest. -/
def bigEndian (w : ℕ) (bytes : Bytes) : BitVec w :=
  bytes.foldl (fun ret c => (ret <<< 8) ||| BitVec.ofNat w c.toNat) 0

def readBytes (stream : Bytes) (offset length : ℕ) : Result (Bytes × ℕ) := do
  require (offset + length ≤ stream.length) "EOF when reading stream"
  pure ((stream.drop offset).take length, offset + length)

def readBytes32 (stream : Bytes) (offset : ℕ) : Result (Bytes32 × ℕ) := do
  require (offset + 32 ≤ stream.length) "EOF when reading stream"
  pure (bigEndian 256 ((stream.drop offset).take 32), offset + 32)

/-- A marker's branch of `readBigSize`: `width` bytes after the marker. -/
def readWide (stream : Bytes) (offset width : ℕ) (error : String) : Result (Uint64 × ℕ) := do
  require (offset + 1 + width ≤ stream.length) error
  pure (bigEndian 64 ((stream.drop (offset + 1)).take width), offset + 1 + width)

def readBigSize (stream : Bytes) (offset : ℕ) : Result (Uint64 × ℕ) := do
  require (offset < stream.length) "EOF when reading BigSize"
  let c ← index stream offset
  if c = 0xfd then readWide stream offset 2 "EOF when reading BigSize (0xfd)"
  else if c = 0xfe then readWide stream offset 4 "EOF when reading BigSize (0xfe)"
  else if c = 0xff then readWide stream offset 8 "EOF when reading BigSize (0xff)"
  else pure (BitVec.ofNat 64 c.toNat, offset + 1)

/-! ## Addresses -/

/-- The record of `type_` and `length` whose value starts at `offset`, entered into `ret`. -/
def readValue (words : Bytes) (type_ length : Uint64) (ret : TapAddress) (offset : ℕ) :
    Result (TapAddress × ℕ) := do
  if type_ = 10 then
    let (amt, next) ← readBigSize words offset
    require (next - offset = length.toNat) "invalid length for amount"
    pure ({ ret with amount := amt }, next)
  else if type_ = 4 then
    require (length = 32) "invalid length for assetId"
    let (assetId, next) ← readBytes32 words offset
    pure ({ ret with assetId := assetId }, next)
  else
    let (data, next) ← readBytes words offset length.toNat
    if type_ = 0 then
      require (data.length = 1) "invalid length for address version"
      let version ← index data 0
      pure ({ ret with addressVersion := version }, next)
    else if type_ = 2 then
      require (data.length = 1) "invalid length for asset version"
      let version ← index data 0
      pure ({ ret with assetVersion := version }, next)
    else if type_ = 5 then pure ({ ret with groupKey := data }, next)
    else if type_ = 6 then pure ({ ret with scriptKey := data }, next)
    else if type_ = 8 then pure ({ ret with internalKey := data }, next)
    else if type_ = 9 then pure ({ ret with tapscriptSibling := data }, next)
    else if type_ = 11 then pure ({ ret with assetType := data }, next)
    else pure (ret, next)

/-- One round of the loop: the record at `offset`, after one of type `prevType`. -/
def readRecord (words : Bytes) (prevType : ℤ) (ret : TapAddress) (offset : ℕ) :
    Result (ℤ × TapAddress × ℕ) := do
  let (type_, offset) ← readBigSize words offset
  require (prevType < (type_.toNat : ℤ)) "invalid TLV type order"
  let (length, offset) ← readBigSize words offset
  let (ret, offset) ← readValue words type_ length ret offset
  pure ((type_.toNat : ℤ), ret, offset)

/-- The loop over the records. -/
def readRecords (words : Bytes) : ℕ → ℤ → TapAddress → ℕ → Result TapAddress
  | 0, _, ret, offset => do
      require (words.length ≤ offset) "out of fuel"
      pure ret
  | fuel + 1, prevType, ret, offset =>
      if offset < words.length then do
        let (prevType, ret, offset) ← readRecord words prevType ret offset
        readRecords words fuel prevType ret offset
      else pure ret

/-- An address before any of its records is read. -/
def emptyAddress (chainParamsHrp : Bytes) : TapAddress where
  chainParamsHrp := chainParamsHrp
  addressVersion := 0
  assetVersion := 0
  assetId := 0
  groupKey := []
  scriptKey := []
  internalKey := []
  tapscriptSibling := []
  amount := 0
  assetType := []

def decodeTapAddress (u : TapUtils) (tapAddress : Bytes) : Result TapAddress := do
  let words ← decodeBech32Address u.tapAddressPrefix tapAddress BECH32M_CHECKSUM_CONSTANT
  readRecords words words.length (-1) (emptyAddress u.tapAddressPrefix) 0

end TapUtils

end NbteBridge
