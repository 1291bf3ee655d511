import NbteBridge.Btc.Types
import NbteBridge.Contracts.Evm
import NbteBridge.Foundations.Decimal

/-!
# The handshake between nodes

A node that connects to another proves that it holds a federator's key: it signs the binding of
the TLS channel and the time, and the other end does the same in its answer.  Both ends validate
what they receive with one function, against the addresses of the federators, which they keep for a
minute.  A clock is read each time the source reads it; a time is in seconds.
-/

namespace NbteBridge

open Checked

/-- The hex digits of a byte string. -/
def Bytes.hex (bs : Bytes) : String :=
  String.ofList (bs.flatMap fun b => [Nat.digitChar (b.toNat / 16), Nat.digitChar (b.toNat % 16)])

/-! ## challenge.py -/

/-- What signing a message returns, as hex. -/
structure SignedMessage where
  messageHash : String
  signature : String

/-- A key that signs messages, as their `encode_defunct`, and its address. -/
structure EthAccount where
  address : String
  signMessage : Bytes → SignedMessage

/-- What either end sends; `hash` is called `message` in the answer, and read by nobody. -/
structure HandshakeMessage where
  binding : String
  timestamp : ℚ
  hash : String
  signature : String

namespace Challenge

/-- The part of a message after the binding. -/
def encodeTimestamp (seconds : ℤ) : Bytes := Packed.bytesBE 8 seconds.toNat

def encodeBindingAndTimestamp (binding : Bytes) (timestamp : ℚ) : PyResult Bytes := do
  let seconds := Decimals.truncate timestamp
  require (0 ≤ seconds ∧ seconds < 2 ^ 64) (.other "struct.error: argument out of range")
  pure (binding ++ encodeTimestamp seconds)

def getSignedHandshakeMessage (account : EthAccount) (binding : Bytes) (now : ℚ) :
    PyResult SignedMessage := do
  let encoded ← encodeBindingAndTimestamp binding now
  pure (account.signMessage encoded)

/-- The message of an end that signs at one reading of the clock and sends the next. -/
def handshakeMessage (account : EthAccount) (binding : Bytes) (signedAt sentAt : ℚ) :
    PyResult HandshakeMessage := do
  let signedMessage ← getSignedHandshakeMessage account binding signedAt
  pure
    { binding := Bytes.hex binding
      timestamp := Decimals.truncate sentAt
      hash := signedMessage.messageHash
      signature := signedMessage.signature }

def initialChallenge (account : EthAccount) (binding : Bytes) (signedAt sentAt : ℚ) :
    PyResult HandshakeMessage :=
  handshakeMessage account binding signedAt sentAt

/-- `datetime.fromtimestamp`, for the years 1 to 9999.  The source takes the difference of naive
local times; the machine's clock is assumed to run in UTC, where it is that of the timestamps. -/
def fromTimestamp (timestamp : ℚ) : PyResult ℚ := do
  require (-62135596800 ≤ timestamp ∧ timestamp < 253402300800) (.valueError "year out of range")
  pure timestamp

def validateMessage (recoverMessage : Bytes → String → PyResult String) (data : HandshakeMessage)
    (expectedBinding : Bytes) (validAddresses : List String) (now : ℚ) : PyResult Unit := do
  require (data.binding = Bytes.hex expectedBinding) (.other "Binding does not match")
  let received ← fromTimestamp data.timestamp
  require (¬ 60 < received - now) (.other "Received stale timestamp")
  let expectedMessage ← encodeBindingAndTimestamp expectedBinding data.timestamp
  let recovered ← recoverMessage expectedMessage data.signature
  require (recovered ∈ validAddresses) (.other "Recovered address does not match")

end Challenge

/-! ## Peer addresses -/

/-- The federators' addresses as last fetched, with the time. -/
structure PeerAddresses where
  cached : Option (List String)
  timestamp : ℚ

def PeerAddresses.empty : PeerAddresses := ⟨none, 0⟩

/-- `get_peer_addresses`: what is cached for less than a minute, or what the contract returns
now. -/
def PeerAddresses.get (addresses : PeerAddresses) (fetchPeerAddresses : PyResult (List String))
    (readAt fetchedAt : ℚ) : PyResult (List String × PeerAddresses) :=
  match addresses.cached with
  | some cached =>
      if readAt - addresses.timestamp < 60 then pure (cached, addresses) else refetch
  | none => refetch
where
  refetch : PyResult (List String × PeerAddresses) := do
    let fetched ← fetchPeerAddresses
    pure (fetched, ⟨some fetched, fetchedAt⟩)

/-- The readings of the clock in a validation, which is past 1970, and what the contract would
return. -/
structure Moment where
  readAt : ℚ
  fetchedAt : ℚ
  validatedAt : ℚ
  validatedAt_nonneg : 0 ≤ validatedAt
  peerAddresses : PyResult (List String)

open Challenge

/-- `_pyroValidateHandshake`, the client's end. -/
def pyroValidateHandshake (recoverMessage : Bytes → String → PyResult String) (binding : Bytes)
    (response : HandshakeMessage) (moment : Moment) (addresses : PeerAddresses) :
    PyResult PeerAddresses := do
  let (validAddresses, addresses) ←
    addresses.get moment.peerAddresses moment.readAt moment.fetchedAt
  validateMessage recoverMessage response binding validAddresses moment.validatedAt
  pure addresses

/-- `validate_handshake`, the server's end, with its answer. -/
def validateHandshake (recoverMessage : Bytes → String → PyResult String) (account : EthAccount)
    (binding : Bytes) (data : HandshakeMessage) (moment : Moment) (signedAt sentAt : ℚ)
    (addresses : PeerAddresses) : PyResult (HandshakeMessage × PeerAddresses) := do
  let (validAddresses, addresses) ←
    addresses.get moment.peerAddresses moment.readAt moment.fetchedAt
  validateMessage recoverMessage data binding validAddresses moment.validatedAt
  let answer ← handshakeMessage account binding signedAt sentAt
  pure (answer, addresses)

end NbteBridge
