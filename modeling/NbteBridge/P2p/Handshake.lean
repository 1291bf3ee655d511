import NbteBridge.Foundations.Runs
import NbteBridge.Node.Reference
import NbteBridge.P2p.Challenge

/-!
# Authentication of the handshake

Runs of any number of servers and clients that take part in handshakes on any channels, against an
attacker who sees every message and sends whatever it likes, but cannot sign for a federator: a
signature that recovers to one was made by it, over the same bytes (`Unforged`).  A finished
handshake then names a federator who signed the binding of the channel.  That it did so within a
minute, and that it is not the node itself, holds of handshakes whose message is not old and does
not carry the node's own signature: the validation excludes neither.
-/

namespace NbteBridge

open Checked Runs

/-! ## Signatures made -/

/-- A message a federator's key was used for: in a handshake, or for another message of the bridge,
which is a hash. -/
inductive Signing
  | handshake (address : String) (binding : Bytes) (seconds : ℤ)
  | other (address : String) (hash : Bytes)

def Signing.address : Signing → String
  | handshake address _ _ => address
  | other address _ => address

/-- The bytes that are signed. -/
def Signing.message : Signing → Bytes
  | handshake _ binding seconds => binding ++ Challenge.encodeTimestamp seconds
  | other _ hash => hash

/-- A TLS channel.  Its binding, `tls-unique`, is never 24 bytes long. -/
structure Channel where
  binding : Bytes
  binding_length : binding.length ≠ 24

/-- What is signed in a handshake says what the binding and the time were. -/
lemma Signing.eq_handshake {signing : Signing} {channel : Channel} {seconds : ℤ}
    (hhash : ∀ address hash, signing = .other address hash → hash.length = 32)
    (hsigned : ∀ address binding at_, signing = .handshake address binding at_ →
      0 ≤ at_ ∧ at_ < 2 ^ 64) (hseconds : 0 ≤ seconds ∧ seconds < 2 ^ 64)
    (h : signing.message = channel.binding ++ Challenge.encodeTimestamp seconds) :
    signing = .handshake signing.address channel.binding seconds := by
  cases signing with
  | handshake address binding at_ =>
      obtain ⟨hbinding, htimestamp⟩ := List.append_inj' h (by
        rw [Challenge.encodeTimestamp, Challenge.encodeTimestamp, Packed.length_bytesBE,
          Packed.length_bytesBE])
      have hrange := hsigned address binding at_ rfl
      have hnat : at_.toNat = seconds.toNat :=
        Packed.bytesBE_inj (by omega) (by omega) htimestamp
      obtain rfl : at_ = seconds := by omega
      rw [Signing.address, hbinding]
  | other address hash =>
      have hlength := congrArg List.length h
      rw [Signing.message, hhash address hash rfl, List.length_append, Challenge.encodeTimestamp,
        Packed.length_bytesBE] at hlength
      exact absurd hlength.symm (by
        have hne := channel.binding_length
        omega)

/-! ## Runs -/

/-- A handshake that was finished: by whom, on which channel, and when it was validated. -/
structure FinishedHandshake (Party : Type) where
  party : Party
  channel : Channel
  time : ℚ

structure HandshakeState (Party : Type) where
  addresses : Party → PeerAddresses
  signed : List Signing
  finished : List (FinishedHandshake Party)

/-- A step of a party, which is a server or a client of a node. -/
inductive HandshakeAction (Party : Type)
  /-- A client opens a connection and sends its challenge. -/
  | connect (party : Party) (channel : Channel) (signedAt sentAt : ℚ)
  /-- A server receives a challenge and answers. -/
  | serve (party : Party) (channel : Channel) (data : HandshakeMessage) (moment : Moment)
      (signedAt sentAt : ℚ)
  /-- A client receives an answer. -/
  | complete (party : Party) (channel : Channel) (data : HandshakeMessage) (moment : Moment)
  /-- A handshake that fails later may have fetched the addresses. -/
  | fetch (party : Party) (moment : Moment)
  /-- The key is used for another message. -/
  | sign (party : Party) (hash : Bytes)

section Protocol

variable {Party : Type} [DecidableEq Party] (recoverMessage : Bytes → String → PyResult String)
  (account : Party → EthAccount) (Federators : Set String)

/-- What is received carries no forged signature. -/
def Unforged (signed : List Signing) (data : HandshakeMessage) : Prop :=
  ∀ message address, recoverMessage message data.signature = .ok address →
    address ∈ Federators → ∃ signing ∈ signed, signing.address = address ∧
      signing.message = message

/-- The contract lists federators. -/
def Moment.Lists (moment : Moment) : Prop :=
  ∀ addresses, moment.peerAddresses = .ok addresses → ∀ a ∈ addresses, a ∈ Federators

structure HandshakeInit (s : HandshakeState Party) : Prop where
  addresses : ∀ party, s.addresses party = .empty
  signed : s.signed = []
  finished : s.finished = []

inductive HandshakeStep : HandshakeState Party → HandshakeAction Party → HandshakeState Party → Prop
  | connect {s : HandshakeState Party} {party : Party} {channel : Channel} {signedAt sentAt : ℚ}
      {data : HandshakeMessage}
      (h : Challenge.initialChallenge (account party) channel.binding signedAt sentAt = .ok data) :
      HandshakeStep s (.connect party channel signedAt sentAt)
        { s with
          signed := s.signed ++ [.handshake (account party).address channel.binding
            (Decimals.truncate signedAt)] }
  | serve {s : HandshakeState Party} {party : Party} {channel : Channel} {data : HandshakeMessage}
      {moment : Moment} {signedAt sentAt : ℚ} {answer : HandshakeMessage}
      {addresses : PeerAddresses}
      (hdata : Unforged recoverMessage Federators s.signed data)
      (hlists : moment.Lists Federators)
      (h : validateHandshake recoverMessage (account party) channel.binding data moment signedAt
        sentAt (s.addresses party) = .ok (answer, addresses)) :
      HandshakeStep s (.serve party channel data moment signedAt sentAt)
        { addresses := Function.update s.addresses party addresses
          signed := s.signed ++ [.handshake (account party).address channel.binding
            (Decimals.truncate signedAt)]
          finished := s.finished ++ [⟨party, channel, moment.validatedAt⟩] }
  | complete {s : HandshakeState Party} {party : Party} {channel : Channel}
      {data : HandshakeMessage} {moment : Moment} {addresses : PeerAddresses}
      (hdata : Unforged recoverMessage Federators s.signed data)
      (hlists : moment.Lists Federators)
      (h : pyroValidateHandshake recoverMessage channel.binding data moment (s.addresses party) =
        .ok addresses) :
      HandshakeStep s (.complete party channel data moment)
        { s with
          addresses := Function.update s.addresses party addresses
          finished := s.finished ++ [⟨party, channel, moment.validatedAt⟩] }
  | fetch {s : HandshakeState Party} {party : Party} {moment : Moment} {valid : List String}
      {addresses : PeerAddresses} (hlists : moment.Lists Federators)
      (h : (s.addresses party).get moment.peerAddresses moment.readAt moment.fetchedAt =
        .ok (valid, addresses)) :
      HandshakeStep s (.fetch party moment)
        { s with addresses := Function.update s.addresses party addresses }
  | sign {s : HandshakeState Party} {party : Party} {hash : Bytes} (h : hash.length = 32) :
      HandshakeStep s (.sign party hash)
        { s with signed := s.signed ++ [.other (account party).address hash] }

/-- Some federator other than the node signed the channel's binding within a minute of the time. -/
def Authenticated (signed : List Signing) (f : FinishedHandshake Party) : Prop :=
  ∃ a ∈ Federators, a ≠ (account f.party).address ∧ ∃ seconds : ℤ,
    Signing.handshake a f.channel.binding seconds ∈ signed ∧ |(seconds : ℚ) - f.time| ≤ 60

/-- The message is at most a minute old, and its signature is not the node's own. -/
def RecentAndForeign (party : Party) (channel : Channel) (data : HandshakeMessage)
    (moment : Moment) : Prop :=
  moment.validatedAt - 60 ≤ (Decimals.truncate data.timestamp : ℤ) ∧
    recoverMessage (channel.binding ++ Challenge.encodeTimestamp (Decimals.truncate data.timestamp))
      data.signature ≠ .ok (account party).address

/-- The handshakes that are finished in a step finish on such messages. -/
def HandshakeAction.FinishesWell : HandshakeAction Party → Prop
  | .serve party channel data moment _ _ =>
      RecentAndForeign recoverMessage account party channel data moment
  | .complete party channel data moment =>
      RecentAndForeign recoverMessage account party channel data moment
  | _ => True

end Protocol

/-! ## What a validation establishes -/

section Validation

variable {Party : Type} {recoverMessage : Bytes → String → PyResult String}
  {account : Party → EthAccount} {Federators : Set String}

/-- Addresses that were fetched are federators'. -/
def PeerAddresses.Lists (addresses : PeerAddresses) (Federators : Set String) : Prop :=
  ∀ cached, addresses.cached = some cached → ∀ a ∈ cached, a ∈ Federators

lemma PeerAddresses.get_ok {addresses addresses' : PeerAddresses} {moment : Moment}
    {valid : List String} (hlists : addresses.Lists Federators) (hmoment : moment.Lists Federators)
    (h : addresses.get moment.peerAddresses moment.readAt moment.fetchedAt =
      .ok (valid, addresses')) :
    (∀ a ∈ valid, a ∈ Federators) ∧ addresses'.Lists Federators := by
  have hrefetch (h : PeerAddresses.get.refetch moment.peerAddresses moment.fetchedAt =
      .ok (valid, addresses')) : (∀ a ∈ valid, a ∈ Federators) ∧ addresses'.Lists Federators := by
    simp only [PeerAddresses.get.refetch, bind_eq_ok, pure_eq_ok] at h
    obtain ⟨fetched, hfetched, heq⟩ := h
    obtain ⟨rfl, rfl⟩ := Prod.mk.inj heq
    refine ⟨hmoment _ hfetched, fun cached hcached => ?_⟩
    obtain rfl := Option.some.inj hcached
    exact hmoment _ hfetched
  unfold PeerAddresses.get at h
  split at h
  · rename_i cached hcached
    split at h
    · obtain ⟨rfl, rfl⟩ := Prod.mk.inj (pure_eq_ok.1 h)
      exact ⟨hlists _ hcached, hlists⟩
    · exact hrefetch h
  · exact hrefetch h

lemma truncate_le_of_le {q r : ℚ} (hr : 0 ≤ r) (h : q ≤ r) : (Decimals.truncate q : ℚ) ≤ r := by
  unfold Decimals.truncate
  split_ifs with hq
  · exact (Int.floor_le q).trans h
  · have hceil : ⌈q⌉ ≤ 0 := Int.ceil_le.2 (by simpa using (not_le.1 hq).le)
    exact le_trans (by exact_mod_cast hceil) hr

/-- A validation bounds the time from above only. -/
lemma Challenge.validateMessage_ok {data : HandshakeMessage} {binding : Bytes}
    {valid : List String} {now : ℚ} (hnow : 0 ≤ now)
    (h : validateMessage recoverMessage data binding valid now = .ok ()) :
    (Decimals.truncate data.timestamp : ℚ) ≤ now + 60 ∧
      (0 ≤ Decimals.truncate data.timestamp ∧ Decimals.truncate data.timestamp < 2 ^ 64) ∧
      ∃ a ∈ valid, recoverMessage
        (binding ++ encodeTimestamp (Decimals.truncate data.timestamp)) data.signature = .ok a := by
  simp only [validateMessage, fromTimestamp, encodeBindingAndTimestamp, bind_eq_ok, exists_unit,
    require_eq_ok, pure_eq_ok] at h
  obtain ⟨-, received, ⟨-, rfl⟩, hfuture, message, ⟨hrange, rfl⟩, a, ha, hvalid⟩ := h
  have hfuture := not_lt.1 hfuture
  refine ⟨truncate_le_of_le (by linarith) ?_, hrange, a, hvalid, ha⟩
  linarith

lemma Challenge.handshakeMessage_ok {account : EthAccount} {binding : Bytes} {signedAt sentAt : ℚ}
    {data : HandshakeMessage} (h : handshakeMessage account binding signedAt sentAt = .ok data) :
    0 ≤ Decimals.truncate signedAt ∧ Decimals.truncate signedAt < 2 ^ 64 := by
  simp only [handshakeMessage, getSignedHandshakeMessage, encodeBindingAndTimestamp, bind_eq_ok,
    exists_unit, require_eq_ok, pure_eq_ok] at h
  obtain ⟨signed, ⟨message, ⟨hrange, -⟩, -⟩, -⟩ := h
  exact hrange

/-- The signatures made have the forms the node signs. -/
structure WellFormedSignings (signed : List Signing) : Prop where
  hash : ∀ address hash, Signing.other address hash ∈ signed → hash.length = 32
  seconds : ∀ address binding seconds, Signing.handshake address binding seconds ∈ signed →
    0 ≤ seconds ∧ seconds < 2 ^ 64

/-- **A validated message that is recent and foreign authenticates the channel.** -/
lemma authenticated_of_validated {signed : List Signing} {party : Party} {channel : Channel}
    {data : HandshakeMessage} {moment : Moment} {valid : List String}
    (hforms : WellFormedSignings signed) (hdata : Unforged recoverMessage Federators signed data)
    (hvalid : ∀ a ∈ valid, a ∈ Federators)
    (hwell : RecentAndForeign recoverMessage account party channel data moment)
    (h : Challenge.validateMessage recoverMessage data channel.binding valid moment.validatedAt =
      .ok ()) :
    Authenticated account Federators signed ⟨party, channel, moment.validatedAt⟩ := by
  obtain ⟨hrecent, hforeign⟩ := hwell
  obtain ⟨hfuture, hrange, a, ha, hrecover⟩ :=
    Challenge.validateMessage_ok moment.validatedAt_nonneg h
  obtain ⟨signing, hsigning, haddress, hmessage⟩ := hdata _ a hrecover (hvalid a ha)
  have heq : signing = .handshake signing.address channel.binding
      (Decimals.truncate data.timestamp) := by
    refine Signing.eq_handshake ?_ ?_ hrange hmessage
    · rintro address hash rfl
      exact hforms.hash address hash hsigning
    · rintro address binding seconds rfl
      exact hforms.seconds address binding seconds hsigning
  refine ⟨a, hvalid a ha, ?_, Decimals.truncate data.timestamp, ?_, ?_⟩
  · rintro rfl
    exact hforeign hrecover
  · rw [← haddress, ← heq]
    exact hsigning
  · rw [abs_le]
    constructor <;> linarith

end Validation

/-! ## The invariant -/

section Invariant

variable {Party : Type} {recoverMessage : Bytes → String → PyResult String}
  {account : Party → EthAccount} {Federators : Set String} {s s' : HandshakeState Party}
  {a : HandshakeAction Party}

lemma Authenticated.mono {signed signed' : List Signing} {f : FinishedHandshake Party}
    (hsub : ∀ signing ∈ signed, signing ∈ signed')
    (h : Authenticated account Federators signed f) :
    Authenticated account Federators signed' f := by
  obtain ⟨a, ha, hne, seconds, hsigned, htime⟩ := h
  exact ⟨a, ha, hne, seconds, hsub _ hsigned, htime⟩

lemma WellFormedSignings.handshake {signed : List Signing} (h : WellFormedSignings signed)
    (address : String) (binding : Bytes) {seconds : ℤ} (hrange : 0 ≤ seconds ∧ seconds < 2 ^ 64) :
    WellFormedSignings (signed ++ [.handshake address binding seconds]) where
  hash address' hash hmem := by
    rcases List.mem_append.1 hmem with hmem | hmem
    · exact h.hash address' hash hmem
    · exact absurd (List.mem_singleton.1 hmem) (by simp)
  seconds address' binding' seconds' hmem := by
    rcases List.mem_append.1 hmem with hmem | hmem
    · exact h.seconds address' binding' seconds' hmem
    · obtain ⟨-, -, rfl⟩ := Signing.handshake.inj (List.mem_singleton.1 hmem)
      exact hrange

lemma WellFormedSignings.other {signed : List Signing} (h : WellFormedSignings signed)
    (address : String) {hash : Bytes} (hlength : hash.length = 32) :
    WellFormedSignings (signed ++ [.other address hash]) where
  hash address' hash' hmem := by
    rcases List.mem_append.1 hmem with hmem | hmem
    · exact h.hash address' hash' hmem
    · obtain ⟨-, rfl⟩ := Signing.other.inj (List.mem_singleton.1 hmem)
      exact hlength
  seconds address' binding seconds hmem := by
    rcases List.mem_append.1 hmem with hmem | hmem
    · exact h.seconds address' binding seconds hmem
    · exact absurd (List.mem_singleton.1 hmem) (by simp)

variable (account Federators) in
structure HandshakeInv (s : HandshakeState Party) : Prop where
  addresses : ∀ party, (s.addresses party).Lists Federators
  signed : WellFormedSignings s.signed
  finished : ∀ f ∈ s.finished, Authenticated account Federators s.signed f

variable [DecidableEq Party]

lemma update_lists (h : ∀ party, (s.addresses party).Lists Federators) (party : Party)
    {addresses : PeerAddresses} (hlists : addresses.Lists Federators) :
    ∀ party', (Function.update s.addresses party addresses party').Lists Federators := by
  intro party'
  by_cases hparty : party' = party
  · rw [hparty, Function.update_self]
    exact hlists
  · rw [Function.update_of_ne hparty]
    exact h party'

/-- **One step.** -/
lemma HandshakeInv.step (hinv : HandshakeInv account Federators s)
    (hwell : a.FinishesWell recoverMessage account)
    (h : HandshakeStep recoverMessage account Federators s a s') :
    HandshakeInv account Federators s' := by
  have hgrows (signing : Signing) : ∀ f ∈ s.finished,
      Authenticated account Federators (s.signed ++ [signing]) f := by
    intro f hf
    exact (hinv.finished f hf).mono fun _ hmem => List.mem_append_left _ hmem
  cases h with
  | connect h =>
      exact ⟨hinv.addresses, hinv.signed.handshake _ _ (Challenge.handshakeMessage_ok h),
        hgrows _⟩
  | @serve party channel data moment signedAt sentAt answer addresses hdata hlists h =>
      simp only [validateHandshake, bind_eq_ok, exists_unit, pure_eq_ok] at h
      obtain ⟨⟨valid, addresses'⟩, hget, hvalidated, answer', hanswer, heq⟩ := h
      obtain ⟨rfl, rfl⟩ := Prod.mk.inj heq
      obtain ⟨hvalid, haddresses⟩ := PeerAddresses.get_ok (hinv.addresses party) hlists hget
      have hauth := authenticated_of_validated hinv.signed hdata hvalid hwell hvalidated
      refine ⟨update_lists hinv.addresses party haddresses,
        hinv.signed.handshake _ _ (Challenge.handshakeMessage_ok hanswer), fun f hf => ?_⟩
      rcases List.mem_append.1 hf with hf | hf
      · exact hgrows _ f hf
      · rw [List.mem_singleton.1 hf]
        exact hauth.mono fun _ hmem => List.mem_append_left _ hmem
  | @complete party channel data moment addresses hdata hlists h =>
      simp only [pyroValidateHandshake, bind_eq_ok, exists_unit, pure_eq_ok] at h
      obtain ⟨⟨valid, addresses'⟩, hget, hvalidated, rfl⟩ := h
      obtain ⟨hvalid, haddresses⟩ := PeerAddresses.get_ok (hinv.addresses party) hlists hget
      have hauth := authenticated_of_validated hinv.signed hdata hvalid hwell hvalidated
      refine ⟨update_lists hinv.addresses party haddresses, hinv.signed, fun f hf => ?_⟩
      rcases List.mem_append.1 hf with hf | hf
      · exact hinv.finished f hf
      · rw [List.mem_singleton.1 hf]
        exact hauth
  | @fetch party moment valid addresses hlists h =>
      obtain ⟨-, haddresses⟩ := PeerAddresses.get_ok (hinv.addresses party) hlists h
      exact ⟨update_lists hinv.addresses party haddresses, hinv.signed, hinv.finished⟩
  | sign h => exact ⟨hinv.addresses, hinv.signed.other _ h, hgrows _⟩

end Invariant

/-- **Mutual authentication of handshakes on recent, foreign messages.**  In every run in which
handshakes finish on such messages only, every finished handshake names a federator other than the
node that signed the binding of the channel within a minute. -/
theorem handshakes_authenticated {Party : Type} [DecidableEq Party]
    {recoverMessage : Bytes → String → PyResult String} {account : Party → EthAccount}
    {Federators : Set String} {tr : List (HandshakeAction Party)} {s : HandshakeState Party}
    (hrun : Run HandshakeInit (fun s a s' => a.FinishesWell recoverMessage account ∧
      HandshakeStep recoverMessage account Federators s a s') tr s) :
    ∀ f ∈ s.finished, Authenticated account Federators s.signed f := by
  have hinv : HandshakeInv account Federators s := by
    refine hrun.stateInvariant (I := fun s => HandshakeInv account Federators s) ?_ ?_
    · intro s hinit
      refine ⟨fun party cached hcached => ?_, ⟨?_, ?_⟩, ?_⟩
      · rw [hinit.addresses party] at hcached
        exact absurd hcached (by simp [PeerAddresses.empty])
      · simp [hinit.signed]
      · simp [hinit.signed]
      · simp [hinit.finished]
    · rintro s a s' hi ⟨hwell, hs⟩
      exact hi.step hwell hs
  exact hinv.finished

/-! ## Examples -/

namespace ExampleHandshake

open Challenge

/-- A node is named by the character its address is. -/
def account (node : Char) : EthAccount where
  address := String.ofList [node]
  signMessage message := ⟨"", ExampleNode.sign node message⟩

def addresses : List String := ["4", "5"]

def federators : Set String := fun a => a ∈ addresses

def channel : Channel := ⟨List.replicate 12 7, by decide⟩

/-- What a node sends when it signs at this time. -/
def message (node : Char) (seconds : ℕ) : HandshakeMessage where
  binding := Bytes.hex channel.binding
  timestamp := seconds
  hash := ""
  signature := ExampleNode.sign node (channel.binding ++ encodeTimestamp seconds)

def moment (seconds : ℕ) : Moment := ⟨seconds, seconds, seconds, Nat.cast_nonneg _, .ok addresses⟩

lemma truncate_natCast (n : ℕ) : Decimals.truncate (n : ℚ) = n := by
  rw [Decimals.truncate, if_pos (Nat.cast_nonneg n), Int.floor_natCast]

lemma handshakeMessage_account (node : Char) {seconds : ℕ} (h : seconds < 2 ^ 64) :
    handshakeMessage (account node) channel.binding seconds seconds =
      .ok (message node seconds) := by
  simp only [handshakeMessage, getSignedHandshakeMessage, encodeBindingAndTimestamp,
    truncate_natCast, bind_eq_ok, exists_unit, require_eq_ok, pure_eq_ok]
  exact ⟨_, ⟨_, ⟨⟨by omega, by exact_mod_cast h⟩, rfl⟩, rfl⟩, rfl⟩

lemma recover_sign (node : Char) (m m' : Bytes) : ExampleNode.recover m' (ExampleNode.sign node m) =
    .ok (if ExampleNode.textOf m = ExampleNode.textOf m' then String.ofList [node]
      else "nobody") := by
  rw [ExampleNode.recover, ExampleNode.sign, String.toList_ofList]

lemma textOf_injective : Function.Injective ExampleNode.textOf := by
  refine List.map_injective_iff.2 fun b c h => ?_
  have hvalid (b : UInt8) : (Char.ofNat b.toNat).toNat = b.toNat := by
    have hlt := b.toNat_lt
    rw [Char.toNat_ofNat, if_pos (.inl (by omega))]
  have hnat := congrArg Char.toNat h
  rw [hvalid, hvalid] at hnat
  exact UInt8.toNat_inj.1 hnat

/-- A message that was sent is not forged. -/
lemma unforged_message {signed : List Signing} {node : Char} {seconds : ℕ}
    (h : .handshake (String.ofList [node]) channel.binding seconds ∈ signed) :
    Unforged ExampleNode.recover federators signed (message node seconds) := by
  intro m address hrecover hfederator
  rw [message, recover_sign] at hrecover
  split at hrecover
  · rename_i htext
    exact ⟨_, h, Except.ok.inj hrecover, textOf_injective htext⟩
  · have hnobody : "nobody" ∈ addresses := Except.ok.inj hrecover ▸ hfederator
    exact absurd hnobody (by decide)

lemma moment_lists (seconds : ℕ) : (moment seconds).Lists federators := by
  intro listed h a ha
  obtain rfl := Except.ok.inj h
  exact ha

/-- Any message of a federator that is not from the future is validated, whatever its age. -/
lemma validate_message {node : Char} {seconds now : ℕ} (hnode : String.ofList [node] ∈ addresses)
    (hrange : seconds < 253402300800) (hnow : seconds ≤ now + 60) :
    pyroValidateHandshake ExampleNode.recover channel.binding (message node seconds) (moment now)
      .empty = .ok ⟨some addresses, now⟩ := by
  have hfuture : ¬ (60 : ℚ) < (seconds : ℚ) - now := by
    have hcast : (seconds : ℚ) ≤ now + 60 := by exact_mod_cast hnow
    linarith
  have hupper : (seconds : ℚ) < 253402300800 := by exact_mod_cast hrange
  have hlower : (-62135596800 : ℚ) ≤ seconds := le_trans (by norm_num) (Nat.cast_nonneg _)
  have hvalid : validateMessage ExampleNode.recover (message node seconds) channel.binding addresses
      (moment now).validatedAt = .ok () := by
    simp only [validateMessage, fromTimestamp, encodeBindingAndTimestamp, message, bind_eq_ok,
      exists_unit, require_eq_ok, pure_eq_ok]
    refine ⟨trivial, _, ⟨require_of ⟨hlower, hupper⟩, rfl⟩, hfuture, _, ⟨require_of ?_, rfl⟩, ?_⟩
    · rw [truncate_natCast]
      omega
    · rw [truncate_natCast]
      refine ⟨String.ofList [node], ?_, hnode⟩
      rw [recover_sign, if_pos rfl]
  rw [pyroValidateHandshake]
  show (validateMessage ExampleNode.recover (message node seconds) channel.binding addresses
    (moment now).validatedAt >>= fun _ =>
      (pure ⟨some addresses, (now : ℚ)⟩ : PyResult PeerAddresses)) = _
  rw [hvalid]
  rfl

/-- Nodes that took part in no handshake. -/
def start : HandshakeState Char := ⟨fun _ => .empty, [], []⟩

/-- The node connects and signs. -/
def connected (node : Char) (seconds : ℕ) : HandshakeState Char :=
  { start with signed := [.handshake (String.ofList [node]) channel.binding seconds] }

/-- A client gets an answer that was signed for the channel. -/
def completed (node signer : Char) (seconds now : ℕ) : HandshakeState Char where
  addresses := Function.update start.addresses node ⟨some addresses, now⟩
  signed := (connected signer seconds).signed
  finished := [⟨node, channel, now⟩]

lemma connect_step (node : Char) {seconds : ℕ} (h : seconds < 2 ^ 64) :
    HandshakeStep ExampleNode.recover account federators start
      (.connect node channel seconds seconds) (connected node seconds) := by
  have hstep : HandshakeStep ExampleNode.recover account federators start
      (.connect node channel seconds seconds)
      { start with
        signed := start.signed ++ [.handshake (account node).address channel.binding
          (Decimals.truncate (seconds : ℚ))] } := .connect (handshakeMessage_account node h)
  rw [truncate_natCast] at hstep
  exact hstep

lemma complete_step {node signer : Char} {seconds now : ℕ}
    (hnode : String.ofList [signer] ∈ addresses) (hrange : seconds < 253402300800)
    (hnow : seconds ≤ now + 60) :
    HandshakeStep ExampleNode.recover account federators (connected signer seconds)
      (.complete node channel (message signer seconds) (moment now))
      (completed node signer seconds now) :=
  .complete (unforged_message (by simp [connected])) (moment_lists now)
    (validate_message hnode hrange hnow)

end ExampleHandshake

theorem handshakes_authenticated_example :
    Authenticated ExampleHandshake.account ExampleHandshake.federators
      (ExampleHandshake.completed '4' '5' 100 110).signed
      ⟨'4', ExampleHandshake.channel, (110 : ℕ)⟩ := by
  have hwell : (HandshakeAction.complete '4' ExampleHandshake.channel
      (ExampleHandshake.message '5' 100) (ExampleHandshake.moment 110)).FinishesWell
        ExampleNode.recover ExampleHandshake.account := by
    refine ⟨?_, ?_⟩
    · show ((110 : ℕ) : ℚ) - 60 ≤ (Decimals.truncate ((100 : ℕ) : ℚ) : ℤ)
      rw [ExampleHandshake.truncate_natCast]
      norm_num
    · show ExampleNode.recover (_ ++ Challenge.encodeTimestamp (Decimals.truncate ((100 : ℕ) : ℚ)))
        (ExampleHandshake.message '5' 100).signature ≠ _
      rw [ExampleHandshake.truncate_natCast, ExampleHandshake.message,
        ExampleHandshake.recover_sign, if_pos rfl]
      exact fun h => absurd (Except.ok.inj h) (by decide)
  have hstart : Run HandshakeInit (fun s a s' => a.FinishesWell ExampleNode.recover
      ExampleHandshake.account ∧ HandshakeStep ExampleNode.recover ExampleHandshake.account
        ExampleHandshake.federators s a s') [] ExampleHandshake.start :=
    .init ⟨fun _ => rfl, rfl, rfl⟩
  have hrun := (hstart.step ⟨by exact trivial, ExampleHandshake.connect_step '5' (by norm_num)⟩).step
    ⟨hwell, ExampleHandshake.complete_step (by decide) (by norm_num) (by norm_num)⟩
  exact handshakes_authenticated hrun _ (by simp [ExampleHandshake.completed])

/-- **Reflection and replay.**  A node accepts its own challenge sent back to it, and a message
that is fifteen minutes old. -/
theorem handshakes_not_authenticated :
    (∃ s, Run HandshakeInit (HandshakeStep ExampleNode.recover ExampleHandshake.account
        ExampleHandshake.federators)
        [.connect '4' ExampleHandshake.channel (100 : ℕ) (100 : ℕ),
          .complete '4' ExampleHandshake.channel (ExampleHandshake.message '4' 100)
            (ExampleHandshake.moment 101)] s ∧
      ∃ f ∈ s.finished, ¬ Authenticated ExampleHandshake.account ExampleHandshake.federators
        s.signed f) ∧
    ∃ s, Run HandshakeInit (HandshakeStep ExampleNode.recover ExampleHandshake.account
        ExampleHandshake.federators)
        [.connect '5' ExampleHandshake.channel (100 : ℕ) (100 : ℕ),
          .complete '4' ExampleHandshake.channel (ExampleHandshake.message '5' 100)
            (ExampleHandshake.moment 1000)] s ∧
      ∃ f ∈ s.finished, ¬ Authenticated ExampleHandshake.account ExampleHandshake.federators
        s.signed f := by
  have hrun (signer : Char) (now : ℕ) (hsigner : String.ofList [signer] ∈
      ExampleHandshake.addresses) (hnow : 100 ≤ now + 60) :
      Run HandshakeInit (HandshakeStep ExampleNode.recover ExampleHandshake.account
        ExampleHandshake.federators)
        [.connect signer ExampleHandshake.channel (100 : ℕ) (100 : ℕ),
          .complete '4' ExampleHandshake.channel (ExampleHandshake.message signer 100)
            (ExampleHandshake.moment now)] (ExampleHandshake.completed '4' signer 100 now) := by
    have hstart : Run HandshakeInit (HandshakeStep ExampleNode.recover ExampleHandshake.account
        ExampleHandshake.federators) [] ExampleHandshake.start := .init ⟨fun _ => rfl, rfl, rfl⟩
    exact (hstart.step (ExampleHandshake.connect_step signer (by norm_num))).step
      (ExampleHandshake.complete_step hsigner (by norm_num) hnow)
  refine ⟨⟨_, hrun '4' 101 (by decide) (by norm_num), _, List.mem_singleton_self _, ?_⟩,
    ⟨_, hrun '5' 1000 (by decide) (by norm_num), _, List.mem_singleton_self _, ?_⟩⟩
  · -- nobody but the node itself signed
    rintro ⟨a, -, hne, seconds, hsigned, -⟩
    obtain ⟨rfl, -, -⟩ := Signing.handshake.inj (List.mem_singleton.1 hsigned)
    exact hne rfl
  · rintro ⟨a, -, -, seconds, hsigned, htime⟩
    obtain ⟨-, -, rfl⟩ := Signing.handshake.inj (List.mem_singleton.1 hsigned)
    exact absurd htime (by norm_num [abs_le])

end NbteBridge
