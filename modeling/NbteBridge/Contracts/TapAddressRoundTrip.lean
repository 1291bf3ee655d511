import NbteBridge.Contracts.TapStrings

/-!
# Decoding inverts encoding

An address as a stream of records: one for each field, those of empty byte strings left out at will,
and any others of unknown types between them, in increasing order of the types (`TapRecords`).
`addressString` lays such a stream out as a string.  Entering the records one by one fills in the
fields one by one (`enter_filled`), so a decoded stream gives back the address it was made of.

The decoder looks for the separator from the front, so it takes the first `1` of the string to be
it: exactly the prefixes without a `1` have addresses it decodes.
-/

namespace NbteBridge

open Checked Packed

namespace TapUtils

/-! ## The encoding -/

/-- The fields of an address as records. -/
def fieldRecords (v : TapAddress) : List Tlv.Record :=
  [⟨0, [v.addressVersion]⟩, ⟨2, [v.assetVersion]⟩, ⟨4, bytesBE 32 v.assetId.toNat⟩,
    ⟨5, v.groupKey⟩, ⟨6, v.scriptKey⟩, ⟨8, v.internalKey⟩, ⟨9, v.tapscriptSibling⟩,
    ⟨10, Tlv.bigSize v.amount.toNat⟩, ⟨11, v.assetType⟩]

/-- The types of the fields. -/
def fieldTypes : List ℕ := [0, 2, 4, 5, 6, 8, 9, 10, 11]

/-- The records of an address: its fields in increasing order of their types, with others of types
that are no field's, and without some of the fields that are empty. -/
structure TapRecords (v : TapAddress) (rs : List Tlv.Record) : Prop where
  increasing : rs.Pairwise fun a b => a.type < b.type
  encodable : ∀ r ∈ rs, r.type < 2 ^ 64 ∧ r.value.length < 2 ^ 64
  fields : ∀ r ∈ rs, r.type ∈ fieldTypes → r ∈ fieldRecords v
  complete : ∀ r ∈ fieldRecords v, r ∈ rs ∨ r.value = []

/-- The string of a stream of records: its bytes as five-bit values, under the prefix. -/
def addressString (u : TapUtils) (rs : List Tlv.Record) : Bytes :=
  Bech32.encode Bech32.bech32mConst u.tapAddressPrefix
    (Bits.regroup 5 (byteBits (rs.flatMap Tlv.Record.encode)))

/-- Decoding gives back the address a string was made of. -/
def Inverts (u : TapUtils) : Prop :=
  ∀ v rs, v.chainParamsHrp = u.tapAddressPrefix → TapRecords v rs →
    u.decodeTapAddress (u.addressString rs) = .ok v

/-- No string is accepted with records that do not increase, or that end within one. -/
def RejectsIllFormed (u : TapUtils) : Prop :=
  ∀ s words rs rest,
    decodeBech32Address u.tapAddressPrefix s BECH32M_CHECKSUM_CONSTANT = .ok words →
    Tlv.Reads words rs rest →
    (¬ rs.Pairwise (fun a b => a.type < b.type) ∨ rest ≠ [] ∧ Tlv.readRecord rest = none) →
    ∀ v, u.decodeTapAddress s ≠ .ok v

/-! ## Filling in the fields -/

/-- An address of which the fields of some types are entered. -/
def filled (v : TapAddress) (types : List ℕ) : TapAddress where
  chainParamsHrp := v.chainParamsHrp
  addressVersion := if 0 ∈ types then v.addressVersion else 0
  assetVersion := if 2 ∈ types then v.assetVersion else 0
  assetId := if 4 ∈ types then v.assetId else 0
  groupKey := if 5 ∈ types then v.groupKey else []
  scriptKey := if 6 ∈ types then v.scriptKey else []
  internalKey := if 8 ∈ types then v.internalKey else []
  tapscriptSibling := if 9 ∈ types then v.tapscriptSibling else []
  amount := if 10 ∈ types then v.amount else 0
  assetType := if 11 ∈ types then v.assetType else []

/-- **A record of the address fills in its field**, and one of another type nothing. -/
lemma enter_filled {v : TapAddress} {types : List ℕ} {r : Tlv.Record}
    (h : r.type ∈ fieldTypes → r ∈ fieldRecords v) :
    enter (filled v types) r = some (filled v (r.type :: types)) := by
  by_cases hfield : r.type ∈ fieldTypes
  · have hr := h hfield
    simp only [fieldRecords, List.mem_cons, List.not_mem_nil, or_false] at hr
    rcases hr with rfl | rfl | rfl | rfl | rfl | rfl | rfl | rfl | rfl
    case inr.inr.inl =>
      have hid : Tlv.numberBE (bytesBE 32 v.assetId.toNat) = v.assetId.toNat :=
        Tlv.numberBE_bytesBE (v.assetId.isLt.trans_eq (by norm_num))
      simp [enter, filled, hid]
    case inr.inr.inr.inr.inr.inr.inr.inl =>
      have hamount := Tlv.readBigSize_bigSize v.amount.isLt []
      rw [List.append_nil] at hamount
      simp [enter, filled, hamount]
    all_goals simp [enter, filled, oneByte]
  · have hne : ∀ t ∈ fieldTypes, r.type ≠ t := by
      rintro t ht rfl
      exact hfield ht
    simp only [fieldTypes, List.forall_mem_cons, List.not_mem_nil, false_imp_iff,
      implies_true, and_true] at hne
    obtain ⟨h0, h2, h4, h5, h6, h8, h9, h10, h11⟩ := hne
    simp [enter, filled, h0, h2, h4, h5, h6, h8, h9, h10, h11, h0.symm, h2.symm, h4.symm, h5.symm,
      h6.symm, h8.symm, h9.symm, h10.symm, h11.symm]

/-- Entering a stream fills in the fields it has. -/
lemma foldlM_enter {v : TapAddress} {rs : List Tlv.Record}
    (h : ∀ r ∈ rs, r.type ∈ fieldTypes → r ∈ fieldRecords v) (types : List ℕ) :
    rs.foldlM enter (filled v types) =
      some (filled v ((rs.map Tlv.Record.type).reverse ++ types)) := by
  induction rs generalizing types with
  | nil => simp
  | cons r rs ih =>
      rw [List.foldlM_cons, enter_filled (h r (by simp)), Option.bind_eq_bind, Option.bind_some,
        ih (fun r hr => h r (by simp [hr])), List.map_cons, List.reverse_cons, List.append_assoc,
        List.singleton_append]

/-- With every field entered or empty, the address is there. -/
lemma filled_eq {v : TapAddress} {types : List ℕ}
    (h : ∀ r ∈ fieldRecords v, r.type ∈ types ∨ r.value = []) : filled v types = v := by
  -- a byte string is entered, or empty
  have hbytes : ∀ t (value : Bytes), t ∈ types ∨ value = [] →
      (if t ∈ types then value else []) = value := by
    rintro t value (ht | rfl)
    · rw [if_pos ht]
    · simp
  simp only [fieldRecords, List.forall_mem_cons, List.not_mem_nil, false_imp_iff, implies_true,
    and_true] at h
  obtain ⟨h0, h2, h4, h5, h6, h8, h9, h10, h11⟩ := h
  have hid : bytesBE 32 v.assetId.toNat ≠ [] := by
    intro hnil
    have hlen := congrArg List.length hnil
    rw [length_bytesBE] at hlen
    exact absurd hlen (by norm_num)
  apply TapAddress.ext
  · rfl
  · exact if_pos (h0.resolve_right (by simp))
  · exact if_pos (h2.resolve_right (by simp))
  · exact if_pos (h4.resolve_right hid)
  · exact hbytes 5 _ h5
  · exact hbytes 6 _ h6
  · exact hbytes 8 _ h8
  · exact hbytes 9 _ h9
  · exact if_pos (h10.resolve_right (Tlv.bigSize_ne_nil _))
  · exact hbytes 11 _ h11

lemma TapRecords.foldlM_enter {v : TapAddress} {rs : List Tlv.Record} (h : TapRecords v rs) :
    rs.foldlM enter (emptyAddress v.chainParamsHrp) = some v := by
  have hempty : emptyAddress v.chainParamsHrp = filled v [] := by
    simp [emptyAddress, filled]
  rw [hempty, TapUtils.foldlM_enter h.fields, filled_eq]
  intro r hr
  refine (h.complete r hr).imp_left ?_
  intro hmem
  simpa using List.mem_map_of_mem hmem

/-! ## The round trip -/

lemma bech32mConst_eq : BECH32M_CHECKSUM_CONSTANT.toNat = Bech32.bech32mConst := by decide

/-- **Decoding inverts encoding** under a prefix without a `1`. -/
lemma inverts_of_no_separator {u : TapUtils} (hone : (0x31 : UInt8) ∉ u.tapAddressPrefix) :
    u.Inverts := by
  intro v rs hhrp h
  rw [decodeTapAddress_eq_ok]
  refine ⟨rs.flatMap Tlv.Record.encode, ?_, rs, Tlv.reads_encode h.encodable, h.increasing, ?_⟩
  · rw [addressString, ← bech32mConst_eq]
    exact decodeBech32Address_encode hone (by decide) _
  · rw [← hhrp]
    exact h.foldlM_enter

/-- **Nothing ill formed is accepted**, under any prefix. -/
lemma rejectsIllFormed (u : TapUtils) : u.RejectsIllFormed := by
  intro s words rs rest hwords hreads hbad v hok
  obtain ⟨words', hwords', all, hall, hincreasing, -⟩ := decodeTapAddress_eq_ok.1 hok
  obtain rfl := Except.ok.inj (hwords.symm.trans hwords')
  obtain ⟨more, rfl, hmore⟩ := hall.comparable hreads
  rcases hbad with hbad | ⟨hne, hnone⟩
  · exact hbad (List.pairwise_append.1 hincreasing).1
  · cases hmore with
    | nil => exact hne rfl
    | cons hread _ =>
        rw [hread] at hnone
        exact absurd hnone (by simp)

/-- An address with no empty field left out. -/
lemma tapRecords_fieldRecords (v : TapAddress) (h : ∀ r ∈ fieldRecords v, r.value.length < 2 ^ 64) :
    TapRecords v (fieldRecords v) := by
  refine ⟨?_, ?_, fun r hr _ => hr, fun r hr => .inl hr⟩
  · simp [fieldRecords]
  · intro r hr
    refine ⟨?_, h r hr⟩
    simp only [fieldRecords, List.mem_cons, List.not_mem_nil, or_false] at hr
    rcases hr with rfl | rfl | rfl | rfl | rfl | rfl | rfl | rfl | rfl
    all_goals norm_num

lemma tapRecords_emptyAddress (hrp : Bytes) :
    TapRecords (emptyAddress hrp) (fieldRecords (emptyAddress hrp)) := by
  apply tapRecords_fieldRecords
  intro r hr
  simp only [fieldRecords, emptyAddress, List.mem_cons, List.not_mem_nil, or_false] at hr
  rcases hr with rfl | rfl | rfl | rfl | rfl | rfl | rfl | rfl | rfl
  all_goals decide

/-- Under a prefix with a `1`, the address without any content is not decoded. -/
lemma not_inverts_of_separator {u : TapUtils} (hone : (0x31 : UInt8) ∈ u.tapAddressPrefix) :
    ¬ u.Inverts := by
  intro h
  have hok := h (emptyAddress u.tapAddressPrefix) _ rfl (tapRecords_emptyAddress _)
  obtain ⟨words, hwords, -⟩ := decodeTapAddress_eq_ok.1 hok
  exact not_mem_of_decodeBech32Address hwords hone

/-- **Decoding inverts encoding exactly under the prefixes without a `1`**, and accepts nothing ill
formed under any. -/
theorem decodeTapAddress_inverts_iff (u : TapUtils) :
    u.Inverts ∧ u.RejectsIllFormed ↔ (0x31 : UInt8) ∉ u.tapAddressPrefix := by
  constructor
  · rintro ⟨hinverts, -⟩ hone
    exact not_inverts_of_separator hone hinverts
  · intro hone
    exact ⟨inverts_of_no_separator hone, rejectsIllFormed u⟩

/-- Under the prefix `tap1` the address without any content is refused. -/
theorem decodeTapAddress_refuses_tap1 :
    ∃ u : TapUtils, ∃ v rs, v.chainParamsHrp = u.tapAddressPrefix ∧ TapRecords v rs ∧
      u.decodeTapAddress (u.addressString rs) = .error "invalid checksum length (too short)" ∧
      ¬ (u.Inverts ∧ u.RejectsIllFormed) := by
  have hrefused : (TapUtils.mk (ascii "tap1")).decodeTapAddress
      ((TapUtils.mk (ascii "tap1")).addressString
        (fieldRecords (emptyAddress (ascii "tap1")))) =
      .error "invalid checksum length (too short)" := by
    decide +kernel
  have hrecords := tapRecords_emptyAddress (ascii "tap1")
  refine ⟨⟨ascii "tap1"⟩, emptyAddress (ascii "tap1"), _, rfl, hrecords, hrefused, ?_⟩
  rintro ⟨hinverts, -⟩
  have hok := hinverts _ _ rfl hrecords
  rw [hrefused] at hok
  exact absurd hok (by simp)

end TapUtils

end NbteBridge
