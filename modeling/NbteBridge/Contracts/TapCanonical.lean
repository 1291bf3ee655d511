import NbteBridge.Contracts.TapAddressRoundTrip
import NbteBridge.Contracts.TapBridge

/-!
# Canonical addresses

Whether the string of a decoded address is the one its records are encoded as.  The checksum layer
leaves no choice, so it is a matter of the numbers in the payload: the types, the lengths and the
amount, each of which `readBigSize` reads from any of its forms.  The string is canonical exactly
where none of them is overlong, and `transferToTap` takes the others too.
-/

namespace NbteBridge

open Checked Packed

namespace TapUtils

/-- The records whose value is a number. -/
def isAmount (type_ : ℕ) : Bool := type_ = 10

/-- The string is the one made of the records that are read from it, with every number in its
shortest form. -/
def Canonical (u : TapUtils) (s : Bytes) : Prop :=
  ∀ words rs, decodeBech32Address u.tapAddressPrefix s BECH32M_CHECKSUM_CONSTANT = .ok words →
    Tlv.Reads words rs [] → u.addressString (rs.map (Tlv.Record.shortest isAmount)) = s

/-- The string is canonical if it is decoded, or tokens are taken for it. -/
structure OnlyCanonical (u : TapUtils) (s : Bytes) : Prop where
  decoded : ∀ v, u.decodeTapAddress s = .ok v → u.Canonical s
  transferred : ∀ (w w' : TapWorld) (sender : Address), w.bridge.tapUtils = u →
    w.transferToTap sender s = .ok w' → u.Canonical s

/-- A type, a length or the amount in the payload of the string is overlong. -/
def OverlongAddress (u : TapUtils) (s : Bytes) : Prop :=
  ∃ words, s = bech32String u.tapAddressPrefix BECH32M_CHECKSUM_CONSTANT words ∧
    Tlv.HasOverlong isAmount words

/-! ## What is decoded -/

lemma addressString_eq (u : TapUtils) (rs : List Tlv.Record) :
    u.addressString rs = bech32String u.tapAddressPrefix BECH32M_CHECKSUM_CONSTANT
      (rs.flatMap Tlv.Record.encode) := by
  rw [addressString, bech32String, bech32mConst_eq]

/-- The amount of a decoded address fills its record. -/
lemma holdNumbers_of_foldlM {rs : List Tlv.Record} {ret v : TapAddress}
    (h : rs.foldlM enter ret = some v) : Tlv.HoldNumbers isAmount rs := by
  induction rs generalizing ret with
  | nil => simp [Tlv.HoldNumbers]
  | cons r rs ih =>
      simp only [List.foldlM_cons, Option.bind_eq_bind, Option.bind_eq_some_iff] at h
      obtain ⟨ret₁, henter, hrest⟩ := h
      refine List.forall_mem_cons.2 ⟨?_, ih hrest⟩
      intro hamount
      have htype : r.type = 10 := by simpa [isAmount] using hamount
      rw [enter, if_pos htype] at henter
      split at henter
      · rename_i amt hread
        exact ⟨amt, hread⟩
      · exact absurd henter (by simp)

/-- **The string of a decoded address** is canonical exactly where no number of it is overlong. -/
lemma canonical_iff {u : TapUtils} {s : Bytes} {v : TapAddress} (h : u.decodeTapAddress s = .ok v) :
    u.Canonical s ↔ ¬ u.OverlongAddress s := by
  obtain ⟨words, hwords, rs, hreads, -, hfold⟩ := decodeTapAddress_eq_ok.1 h
  have hone := not_mem_of_decodeBech32Address hwords
  have hconst : BECH32M_CHECKSUM_CONSTANT.toNat < 2 ^ 30 := by decide
  have hs := (decodeBech32Address_eq_ok hone hconst).1 hwords
  have hcanonical : u.Canonical s ↔
      (rs.map (Tlv.Record.shortest isAmount)).flatMap Tlv.Record.encode = words := by
    constructor
    · intro hcanonical
      have hstring := hcanonical words rs hwords hreads
      rw [addressString_eq, hs] at hstring
      exact bech32String_injective hone hconst hstring
    · intro hsame words' rs' hwords' hreads'
      obtain rfl := Except.ok.inj (hwords.symm.trans hwords')
      obtain rfl := hreads.unique hreads'
      rw [addressString_eq, hsame, hs]
  have hoverlong : u.OverlongAddress s ↔ Tlv.HasOverlong isAmount words := by
    constructor
    · rintro ⟨words', hs', hlong⟩
      rwa [bech32String_injective hone hconst (hs.symm.trans hs')]
    · intro hlong
      exact ⟨words, hs, hlong⟩
  rw [hcanonical, hoverlong]
  rcases Tlv.flatMap_encode_shortest hreads (holdNumbers_of_foldlM hfold) with
    ⟨hlong, hlt⟩ | ⟨hshort, hsame⟩
  · refine iff_of_false ?_ (not_not_intro hlong)
    intro hsame
    rw [hsame] at hlt
    exact lt_irrefl _ hlt
  · exact iff_of_true hsame hshort

/-- Tokens are taken only for addresses that are decoded. -/
lemma decoded_of_transferToTap {w w' : TapWorld} {sender : Address} {s : Bytes}
    (h : w.transferToTap sender s = .ok w') :
    ∃ v, w.bridge.tapUtils.decodeTapAddress s = .ok v := by
  simp only [TapWorld.transferToTap, TapWorld.decodeTransfer, bind_eq_ok] at h
  obtain ⟨-, ⟨v, hdecoded, -⟩, -⟩ := h
  exact ⟨v, hdecoded⟩

/-! ## The strings that are taken -/

/-- **Exactly the strings without an overlong number are taken only as they are encoded**: those
that are refused aside, a string is canonical when each type, each length and the amount in it is in
its shortest form. -/
theorem onlyCanonical_iff (u : TapUtils) (s : Bytes) :
    u.OnlyCanonical s ↔ ((∃ v, u.decodeTapAddress s = .ok v) → ¬ u.OverlongAddress s) := by
  constructor
  · rintro h ⟨v, hv⟩
    exact (canonical_iff hv).1 (h.decoded v hv)
  · intro h
    refine ⟨fun v hv => (canonical_iff hv).2 (h ⟨v, hv⟩), ?_⟩
    rintro w w' sender rfl htransfer
    obtain ⟨v, hv⟩ := decoded_of_transferToTap htransfer
    exact (canonical_iff hv).2 (h ⟨v, hv⟩)

namespace ExampleAddress

/-- A version, an asset, and the amount 5 as a marker and two bytes. -/
def payload : Bytes :=
  [0x00, 0x01, 0x00] ++ ([0x04, 0x20] ++ List.replicate 32 0x11) ++ [0x0a, 0x03, 0xfd, 0x00, 0x05]

def utils : TapUtils := ⟨ascii "tap"⟩

def string : Bytes := bech32String utils.tapAddressPrefix BECH32M_CHECKSUM_CONSTANT payload

def asset : BridgeableAsset :=
  ⟨0xc, BitVec.ofNat 256 (Tlv.numberBE (List.replicate 32 0x11)), 1, true, []⟩

/-- A bridge for the asset, whose token lets itself be taken. -/
def world : TapWorld where
  self := 0xb
  bridge := {
    owner := 0xa
    assetsByRskTokenAddress := Function.update (fun _ => .unset) asset.rskToken asset
    assetsByTaprootAssetId := Function.update (fun _ => .unset) asset.tapAssetId asset
    processedByBtcTxIdAndVout := fun _ _ => false
    assets := [asset]
    numRequiredSigners := 1
    federators := [0xf]
    numTransfersTotal := 0
    tapUtils := utils }
  externals := ⟨fun _ _ _ => true, fun _ _ _ => true⟩
  released := []
  logs := []

end ExampleAddress

open ExampleAddress in
/-- An amount of 5 in three bytes is decoded and paid for, in a string that the records with the
amount in one byte do not have. -/
theorem overlong_amount_taken :
    (∃ v, utils.decodeTapAddress string = .ok v) ∧
      (∃ w', world.transferToTap 0xd string = .ok w') ∧ ¬ utils.OnlyCanonical string := by
  have hdecoded : ∃ v, utils.decodeTapAddress string = .ok v :=
    exists_ok_of_isOk (by decide +kernel)
  refine ⟨hdecoded, exists_ok_of_isOk (by decide +kernel), ?_⟩
  rintro ⟨hcanonical, -⟩
  obtain ⟨v, hv⟩ := hdecoded
  apply (canonical_iff hv).1 (hcanonical v hv)
  refine ⟨payload, rfl, ?_⟩
  -- the amount is in the third record
  have hfirst : Tlv.readRecord payload = some (⟨0, [0x00]⟩, payload.drop 3) := by decide +kernel
  have hsecond : Tlv.readRecord (payload.drop 3) =
      some (⟨4, List.replicate 32 0x11⟩, payload.drop 37) := by decide +kernel
  have hthird : Tlv.readRecord (payload.drop 37) = some (⟨10, [0xfd, 0x00, 0x05]⟩, []) := by
    decide +kernel
  refine .later hfirst (.later hsecond (.here hthird (.inr (.inr ⟨by decide, ?_⟩))))
  exact ⟨5, [], .inl ⟨rfl, by decide, by decide⟩⟩

end TapUtils

end NbteBridge
