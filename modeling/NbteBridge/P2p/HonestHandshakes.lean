import NbteBridge.P2p.Handshake

/-!
# Honest handshakes

An end of a handshake reads its clock twice for one message: once for the seconds that it signs and
once more for the seconds that it sends.  The other end recovers the signer from the seconds that
were sent.  So what an honest federator sends is accepted exactly when both readings fall in one
second, however soon it is validated.
-/

namespace NbteBridge

open Checked Challenge

/-- The readings of a clock that is never set back, in the making of a message and in its
validation. -/
structure Readings where
  signedAt : ℚ
  sentAt : ℚ
  validatedAt : ℚ
  signed_le_sent : signedAt ≤ sentAt
  sent_le_validated : sentAt ≤ validatedAt
  /-- A `datetime` is before the year 10000. -/
  sent_lt : sentAt < 253402300800

/-- The readings are of one second. -/
def Readings.InOneSecond (readings : Readings) : Prop :=
  Decimals.truncate readings.signedAt = Decimals.truncate readings.sentAt

instance (readings : Readings) : Decidable readings.InOneSecond :=
  inferInstanceAs (Decidable (_ = _))

/-- A key whose signatures recover to its address, and to none of these addresses when the message
is another one. -/
structure EthAccount.Recovers (account : EthAccount)
    (recoverMessage : Bytes → String → PyResult String) (validAddresses : List String) : Prop where
  own : ∀ message, recoverMessage message (account.signMessage message).signature =
    .ok account.address
  other : ∀ message message' a,
    recoverMessage message' (account.signMessage message).signature = .ok a →
      a ∈ validAddresses → message' = message

section Validation

variable {recoverMessage : Bytes → String → PyResult String} {account : EthAccount}
  {binding : Bytes} {validAddresses : List String}

/-- Seconds up to the end of the calendar, packed, tell the times apart. -/
lemma encodeTimestamp_inj {seconds seconds' : ℤ} (h : 0 ≤ seconds ∧ seconds < 2 ^ 64)
    (h' : 0 ≤ seconds' ∧ seconds' < 2 ^ 64)
    (heq : encodeTimestamp seconds = encodeTimestamp seconds') : seconds = seconds' := by
  have hnat : seconds.toNat = seconds'.toNat :=
    Packed.bytesBE_inj (by omega) (by omega) heq
  omega

/-- The seconds sent are no earlier than the seconds signed, and of the calendar. -/
lemma Readings.sent_range (readings : Readings)
    (h : 0 ≤ Decimals.truncate readings.signedAt) :
    0 ≤ Decimals.truncate readings.sentAt ∧
      Decimals.truncate readings.sentAt < 253402300800 := by
  refine ⟨h.trans (Decimals.truncate_mono readings.signed_le_sent), ?_⟩
  unfold Decimals.truncate
  split_ifs with hsent
  · exact Int.floor_lt.2 (by exact_mod_cast readings.sent_lt)
  · have hceil : ⌈readings.sentAt⌉ ≤ 0 := Int.ceil_le.2 (by simpa using (not_le.1 hsent).le)
    omega

/-- Whole seconds that were sent are not ahead of the clock by a minute. -/
lemma Readings.not_stale (readings : Readings) :
    ¬ 60 < (Decimals.truncate readings.sentAt : ℚ) - readings.validatedAt := by
  have htruncate : (Decimals.truncate readings.sentAt : ℚ) < readings.sentAt + 1 := by
    unfold Decimals.truncate
    split_ifs
    · exact (Int.floor_le _).trans_lt (lt_add_one _)
    · exact Int.ceil_lt_add_one _
  have hvalidated := readings.sent_le_validated
  intro h
  linarith

/-- What an end makes at two readings of the clock. -/
lemma handshakeMessage_eq_ok {signedAt sentAt : ℚ} {data : HandshakeMessage} :
    handshakeMessage account binding signedAt sentAt = .ok data ↔
      (0 ≤ Decimals.truncate signedAt ∧ Decimals.truncate signedAt < 2 ^ 64) ∧
        data = ⟨Bytes.hex binding, Decimals.truncate sentAt,
          (account.signMessage
            (binding ++ encodeTimestamp (Decimals.truncate signedAt))).messageHash,
          (account.signMessage
            (binding ++ encodeTimestamp (Decimals.truncate signedAt))).signature⟩ := by
  simp only [handshakeMessage, getSignedHandshakeMessage, encodeBindingAndTimestamp, bind_eq_ok,
    exists_unit, require_eq_ok, pure_eq_ok]
  constructor
  · rintro ⟨_, ⟨_, ⟨hrange, rfl⟩, rfl⟩, rfl⟩
    exact ⟨hrange, rfl⟩
  · rintro ⟨hrange, rfl⟩
    exact ⟨_, ⟨_, ⟨hrange, rfl⟩, rfl⟩, rfl⟩

/-- **The message of an honest end.**  Its signature recovers from what it sends when that is what
it signed. -/
theorem validateMessage_handshakeMessage (hkey : account.Recovers recoverMessage validAddresses)
    (hlisted : account.address ∈ validAddresses) (readings : Readings) {data : HandshakeMessage}
    (hdata : handshakeMessage account binding readings.signedAt readings.sentAt = .ok data) :
    validateMessage recoverMessage data binding validAddresses readings.validatedAt = .ok () ↔
      readings.InOneSecond := by
  obtain ⟨hsigned, rfl⟩ := handshakeMessage_eq_ok.1 hdata
  have hsent := readings.sent_range hsigned.1
  have hlower : (-62135596800 : ℚ) ≤ Decimals.truncate readings.sentAt := by
    exact_mod_cast (show (-62135596800 : ℤ) ≤ _ from by omega)
  have hupper : (Decimals.truncate readings.sentAt : ℚ) < 253402300800 := by
    exact_mod_cast hsent.2
  simp only [validateMessage, fromTimestamp, encodeBindingAndTimestamp, bind_eq_ok, exists_unit,
    require_eq_ok, pure_eq_ok, Decimals.truncate_intCast]
  constructor
  · rintro ⟨-, -, -, -, message, ⟨-, rfl⟩, a, hrecovered, ha⟩
    -- the bytes that were sent are those that were signed
    have heq := hkey.other _ _ _ hrecovered ha
    exact (encodeTimestamp_inj (by omega) hsigned (List.append_cancel_left heq)).symm
  · intro h
    refine ⟨trivial, _, ⟨⟨hlower, hupper⟩, rfl⟩, readings.not_stale, _, ⟨by omega, rfl⟩,
      account.address, ?_, hlisted⟩
    rw [← h]
    exact hkey.own _

end Validation

/-- **Honest handshakes are accepted when both ends stay within a second.**  The challenge that a
client makes, and the answer that a server makes, are accepted by the other end exactly when the
clock is read twice in the same second. -/
theorem honest_handshakes_accepted_iff {recoverMessage : Bytes → String → PyResult String}
    {account : EthAccount} {binding : Bytes} {validAddresses : List String}
    (hkey : account.Recovers recoverMessage validAddresses)
    (hlisted : account.address ∈ validAddresses) (readings : Readings) :
    (∀ data, initialChallenge account binding readings.signedAt readings.sentAt = .ok data →
      (validateMessage recoverMessage data binding validAddresses readings.validatedAt = .ok () ↔
        readings.InOneSecond)) ∧
    ∀ data moment addresses answer addresses',
      validateHandshake recoverMessage account binding data moment readings.signedAt
        readings.sentAt addresses = .ok (answer, addresses') →
      (validateMessage recoverMessage answer binding validAddresses readings.validatedAt = .ok () ↔
        readings.InOneSecond) := by
  constructor
  · intro data hdata
    exact validateMessage_handshakeMessage hkey hlisted readings hdata
  · intro data moment addresses answer addresses' hanswer
    simp only [validateHandshake, bind_eq_ok, exists_unit, pure_eq_ok] at hanswer
    obtain ⟨⟨valid, cached⟩, -, -, answer', hanswer, heq⟩ := hanswer
    obtain ⟨rfl, -⟩ := Prod.mk.inj heq
    exact validateMessage_handshakeMessage hkey hlisted readings hanswer

/-! ## Examples -/

namespace ExampleHandshake

lemma account_recovers (node : Char) :
    (account node).Recovers ExampleNode.recover addresses where
  own message := by
    show ExampleNode.recover message (ExampleNode.sign node message) = _
    rw [recover_sign, if_pos rfl]
    rfl
  other message message' a hrecover ha := by
    rw [show (account node).signMessage message = ⟨"", ExampleNode.sign node message⟩ from rfl,
      recover_sign] at hrecover
    split at hrecover
    · rename_i htext
      exact (textOf_injective htext).symm
    · obtain rfl := Except.ok.inj hrecover
      exact absurd ha (by decide)

/-- Half a second passes. -/
def withinSecond : Readings :=
  ⟨1001 / 10, 1004 / 10, 1006 / 10, by norm_num, by norm_num, by norm_num⟩

/-- A second begins between the readings. -/
def acrossSeconds : Readings :=
  ⟨1009 / 10, 1010 / 10, 1011 / 10, by norm_num, by norm_num, by norm_num⟩

/-- The message is made at any time after 1970. -/
lemma initialChallenge_isOk (node : Char) (readings : Readings)
    (h : Decimals.truncate readings.signedAt = 100) :
    ∃ data, initialChallenge (account node) channel.binding readings.signedAt readings.sentAt =
      .ok data :=
  ⟨_, handshakeMessage_eq_ok.2 ⟨by omega, rfl⟩⟩

end ExampleHandshake

theorem honest_handshakes_accepted_example : ∃ data,
    initialChallenge (ExampleHandshake.account '4') ExampleHandshake.channel.binding
      ExampleHandshake.withinSecond.signedAt ExampleHandshake.withinSecond.sentAt = .ok data ∧
    validateMessage ExampleNode.recover data ExampleHandshake.channel.binding
      ExampleHandshake.addresses ExampleHandshake.withinSecond.validatedAt = .ok () := by
  obtain ⟨data, hdata⟩ := ExampleHandshake.initialChallenge_isOk '4'
    ExampleHandshake.withinSecond (by decide +kernel)
  exact ⟨data, hdata, ((honest_handshakes_accepted_iff (ExampleHandshake.account_recovers '4')
    (by decide) ExampleHandshake.withinSecond).1 data hdata).2 (by decide +kernel)⟩

/-- **A second that begins between two readings.**  The message is sent at the instant it was made,
a tenth of a second after it was signed, and the other end rejects it a tenth of a second later. -/
theorem honest_handshake_rejected : ∃ data,
    initialChallenge (ExampleHandshake.account '4') ExampleHandshake.channel.binding
      ExampleHandshake.acrossSeconds.signedAt ExampleHandshake.acrossSeconds.sentAt = .ok data ∧
    (ExampleHandshake.account '4').address ∈ ExampleHandshake.addresses ∧
    ExampleHandshake.acrossSeconds.validatedAt ≤ ExampleHandshake.acrossSeconds.sentAt + 60 ∧
    validateMessage ExampleNode.recover data ExampleHandshake.channel.binding
      ExampleHandshake.addresses ExampleHandshake.acrossSeconds.validatedAt ≠ .ok () := by
  obtain ⟨data, hdata⟩ := ExampleHandshake.initialChallenge_isOk '4'
    ExampleHandshake.acrossSeconds (by decide +kernel)
  refine ⟨data, hdata, by decide, by decide +kernel, fun hvalid => ?_⟩
  have hsecond := (validateMessage_handshakeMessage (ExampleHandshake.account_recovers '4')
    (by decide) ExampleHandshake.acrossSeconds hdata).1 hvalid
  have hdifferent : Decimals.truncate ExampleHandshake.acrossSeconds.signedAt ≠
      Decimals.truncate ExampleHandshake.acrossSeconds.sentAt := by decide +kernel
  exact hdifferent hsecond

end NbteBridge
