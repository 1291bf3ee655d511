import NbteBridge.Contracts.TapAddresses

/-!
# The strings that are decoded

What `decodeBech32Address` accepts, layer by layer.  The prefix matcher lets no string pass but the
prefix with the separator after it; the table has no value for any character but the lower-case ones
of the format; the register ends at the constant only for one choice of the last six values; and the
regrouping succeeds only on values that hold whole bytes and fewer than five zeros.  So with
`bech32String` the string of some bytes, decoding is the inverse of encoding, on both sides
(`decodeBech32Address_eq_ok`).
-/

namespace NbteBridge

open Checked Packed

namespace TapUtils

/-- The lower-case string that carries some bytes under a prefix. -/
def bech32String (hrp : Bytes) (const : Uint256) (bytes : Bytes) : Bytes :=
  Bech32.encode const.toNat hrp (Bits.regroup 5 (byteBits bytes))

/-! ## The checksum layer -/

/-- A string that the prefix matcher is through with begins with the prefix and a separator. -/
lemma separator_of_parsePrefix {before rest s : Bytes} {chk chk' : Uint256}
    (h : parsePrefix (before ++ rest) before.length chk s = .ok ((before ++ rest).length, chk'))
    (hlen : rest.length < s.length) : ∃ data, s = rest ++ 0x31 :: data := by
  induction s generalizing before rest chk with
  | nil => exact absurd hlen (by simp)
  | cons c s ih =>
      simp only [parsePrefix, bind_eq_ok, exists_unit, require_eq_ok] at h
      obtain ⟨-, h⟩ := h
      by_cases hc : c = 0x31
      · rw [if_pos hc, pure_eq_ok, Prod.mk.injEq, List.length_append] at h
        have hrest : rest = [] := List.length_eq_zero_iff.1 (by omega)
        exact ⟨s, by rw [hrest, hc, List.nil_append]⟩
      · rw [if_neg hc] at h
        simp only [bind_eq_ok, exists_unit, require_eq_ok] at h
        obtain ⟨valid, hindex, rfl, h⟩ := h
        rw [index_eq_ok, List.getElem?_append_right le_rfl, Nat.sub_self] at hindex
        obtain ⟨rest, rfl⟩ : ∃ rest', rest = c :: rest' := by
          cases rest with
          | nil => exact absurd hindex (by simp)
          | cons d rest => exact ⟨rest, by rw [← Option.some.inj hindex]⟩
        have happend : before ++ c :: rest = (before ++ [c]) ++ rest := by simp
        have hbefore : (before ++ [c]).length = before.length + 1 := by simp
        rw [happend, ← hbefore] at h
        obtain ⟨data, rfl⟩ := ih h (by simpa using hlen)
        exact ⟨data, rfl⟩

/-- A character with a value in the table is that value's. -/
lemma eq_valueChar_of_index {c mapped : UInt8} (hord : BECH32_FIRST_ORD ≤ c ∧ c ≤ BECH32_LAST_ORD)
    (hindex : index BECH32_ALPHABET_MAP (c - BECH32_FIRST_ORD).toNat = .ok mapped)
    (hmapped : mapped ≤ BECH32_MAX_VALID_MAPPED) :
    mapped.toNat < 32 ∧ c = Bech32.valueChar mapped.toNat := by
  have hall : ∀ p ∈ BECH32_ALPHABET_MAP.zipIdx, p.1 ≤ BECH32_MAX_VALID_MAPPED →
      p.1.toNat < 32 ∧ BECH32_FIRST_ORD.toNat + p.2 = (Bech32.valueChar p.1.toNat).toNat := by
    decide +kernel
  have hmem : (mapped, (c - BECH32_FIRST_ORD).toNat) ∈ BECH32_ALPHABET_MAP.zipIdx :=
    List.mk_mem_zipIdx_iff_getElem?.2 (index_eq_ok.1 hindex)
  obtain ⟨hlt, hchar⟩ := hall _ hmem hmapped
  refine ⟨hlt, UInt8.toNat_inj.1 ?_⟩
  have hle : BECH32_FIRST_ORD.toNat ≤ c.toNat := UInt8.le_iff_toNat_le.1 hord.1
  rw [← hchar, UInt8.toNat_sub_of_le _ _ hord.1]
  omega

/-- The loop over the characters is through only with characters of values. -/
lemma values_of_readCharacters {cs words : Bytes} {chk chk' : Uint256}
    (h : readCharacters chk cs = .ok (words, chk')) :
    ∃ values : List ℕ, (∀ v ∈ values, v < 32) ∧ cs = values.map Bech32.valueChar := by
  induction cs generalizing words chk chk' with
  | nil => exact ⟨[], by simp, rfl⟩
  | cons c cs ih =>
      simp only [readCharacters, bind_eq_ok, exists_unit, require_eq_ok, Prod.exists] at h
      obtain ⟨hord, mapped, hindex, hmapped, words', chk₁, hrest, -⟩ := h
      obtain ⟨hlt, hc⟩ := eq_valueChar_of_index hord hindex hmapped
      obtain ⟨values, hvalues, hcs⟩ := ih hrest
      refine ⟨mapped.toNat :: values, List.forall_mem_cons.2 ⟨hlt, hvalues⟩, ?_⟩
      rw [List.map_cons, ← hc, ← hcs]

/-- **The checksum layer accepts only what it encodes.** -/
lemma eq_encode_of_decodeBech32 {hrp s words : Bytes} {const : Uint256}
    (hone : (0x31 : UInt8) ∉ hrp) (h : decodeBech32 hrp s const = .ok words) :
    (∀ w ∈ words, w.toNat < 32) ∧
      s = Bech32.encode const.toNat hrp (words.map UInt8.toNat) := by
  simp only [decodeBech32, bind_eq_ok, exists_unit, require_eq_ok, Prod.exists, pure_eq_ok] at h
  obtain ⟨i, chk, hhead, rfl, hlen, words', chk', hread, rfl, rfl⟩ := h
  obtain ⟨cs, rfl⟩ := @separator_of_parsePrefix [] hrp s 1 chk hhead
    (by rw [BECH32_CHECKSUM_LENGTH] at hlen; omega)
  have hpassed := parsePrefix_append hone [] cs
  rw [List.append_nil, hhead] at hpassed
  obtain ⟨-, rfl⟩ := Prod.mk.inj (Except.ok.inj hpassed)
  have hdrop : (hrp ++ 0x31 :: cs).drop (hrp.length + 1) = cs := by
    rw [List.drop_append, List.drop_of_length_le (by omega)]
    simp
  rw [hdrop, List.take_left] at hread
  obtain ⟨values, hvalues, rfl⟩ := values_of_readCharacters hread
  obtain ⟨chk₁, hrun, hchk⟩ := readCharacters_map hvalues
    (hrp.foldl (fun chk (c : UInt8) => polymodStep chk ^^^ Uint256.ofByte (c &&& 0x1f))
      (polymodStep
        (hrp.foldl (fun chk (c : UInt8) => polymodStep chk ^^^ Uint256.ofByte (c >>> 5)) 1)))
  rw [hread] at hrun
  obtain ⟨rfl, rfl⟩ := Prod.mk.inj (Except.ok.inj hrun)
  -- the last six values are the checksum, there being no others that fit
  obtain ⟨data, last, rfl, hlast⟩ : ∃ data last, values = data ++ last ∧ last.length = 6 := by
    refine ⟨values.take (values.length - 6), values.drop (values.length - 6),
      (List.take_append_drop _ _).symm, ?_⟩
    rw [List.length_append, List.length_cons, List.length_map, BECH32_CHECKSUM_LENGTH] at hlen
    rw [List.length_drop]
    omega
  have hdata (v : ℕ) (hv : v ∈ data) : v < 32 := hvalues v (List.mem_append_left _ hv)
  have htake : (data ++ last).take ((data ++ last).length - 6) = data := by
    rw [List.length_append, hlast, Nat.add_sub_cancel, List.take_left]
  rw [isPolymodStep_polymodStep.expand, Bech32.polymod, ← List.foldl_append, ← Bech32.polymod,
    ← List.append_assoc] at hchk
  have hsum := Bech32.eq_checksum_of_polymod hrp data hlast fun v hv =>
    hvalues v (List.mem_append_right _ hv)
  rw [← hchk] at hsum
  rw [htake, map_toNat_ofNat hdata]
  refine ⟨?_, ?_⟩
  · intro w hw
    obtain ⟨v, hv, rfl⟩ := List.mem_map.1 hw
    rw [UInt8.toNat_ofNat_of_lt' ((hdata v hv).trans (by norm_num [UInt8.size]))]
    exact hdata v hv
  · rw [Bech32.encode, ← hsum, ascii_one]
    simp

/-! ## Regrouping -/

/-- **The regrouping accepts only what it encodes**: values that hold whole bytes and fewer than
five zeros. -/
lemma regroup_of_convertBits {words bytes : Bytes} (hwords : ∀ w ∈ words, w.toNat < 32)
    (h : convertBits words 5 8 false = .ok bytes) :
    words.map UInt8.toNat = Bits.regroup 5 (byteBits bytes) := by
  obtain ⟨acc, bits, ret, hrun, hbits, hkeep⟩ := @convertWords_bits (words.length * 5 / 8)
    0 0 words [] (by norm_num) hwords (by simp; omega)
  rw [convertBits] at h
  simp only [hrun, ok_bind, Bool.false_eq_true, if_false, bind_eq_ok, exists_unit, require_eq_ok,
    pure_eq_ok] at h
  obtain ⟨hpad, ret', hret, rfl⟩ := h
  subst hret
  have hall : byteBits ret ++ Bits.bitsBE bits acc = Bits.toBits 5 (words.map UInt8.toNat) := by
    rw [hkeep]
    simp [byteBits, Bits.bitsBE]
  have hlens := congrArg List.length hall
  simp only [byteBits, List.length_append, Bits.length_toBits, List.length_map,
    Bits.length_bitsBE] at hlens
  have hshort : bits < 5 := by omega
  have hmask : (acc <<< (8 - bits)) &&& (2 ^ 8 - 1) = 0 := by
    by_contra hne
    exact hpad (.inr hne)
  have hzeros : Bits.bitsBE bits acc = List.replicate bits false := by
    have hbit (i : ℕ) (hi : i < bits) : acc.testBit i = Nat.testBit 0 i := by
      have hat := congrArg (fun n => n.testBit (i + (8 - bits))) hmask
      simp only [Nat.testBit_and, Nat.testBit_shiftLeft, Nat.testBit_two_pow_sub_one,
        Nat.zero_testBit] at hat
      simpa [show i + (8 - bits) < 8 by omega] using hat
    rw [Bits.bitsBE_congr hbit, Bits.bitsBE_zero]
  have hfull : words.length * 5 / 8 - ret.length = 0 := by omega
  rw [hfull, List.replicate_zero, List.append_nil]
  obtain ⟨k, hk, hregroup⟩ := Bits.toBits_regroup (w := 5) (by norm_num) (byteBits ret)
  have hlen := congrArg List.length hregroup
  simp only [byteBits, List.length_append, Bits.length_toBits, List.length_map,
    List.length_replicate] at hlen
  obtain rfl : k = bits := by omega
  refine Bits.toBits_injective (w := 5) (by norm_num) ?_ (fun n hn => Bits.regroup_lt hn) ?_
  · intro n hn
    obtain ⟨w, hw, rfl⟩ := List.mem_map.1 hn
    exact hwords w hw
  · rw [← hall, hzeros, hregroup]

/-! ## Both -/

/-- **Decoding is the inverse of encoding**: a string is decoded to some bytes exactly when it is
their string. -/
lemma decodeBech32Address_eq_ok {hrp s bytes : Bytes} (hone : (0x31 : UInt8) ∉ hrp)
    {const : Uint256} (hconst : const.toNat < 2 ^ 30) :
    decodeBech32Address hrp s const = .ok bytes ↔ s = bech32String hrp const bytes := by
  constructor
  · intro h
    rw [decodeBech32Address, bind_eq_ok] at h
    obtain ⟨words, hwords, hbytes⟩ := h
    obtain ⟨hlt, rfl⟩ := eq_encode_of_decodeBech32 hone hwords
    rw [bech32String, regroup_of_convertBits hlt hbytes]
  · rintro rfl
    exact decodeBech32Address_encode hone hconst bytes

/-- Under a prefix with a separator in it nothing is decoded. -/
lemma not_mem_of_decodeBech32Address {hrp s words : Bytes} {const : Uint256}
    (h : decodeBech32Address hrp s const = .ok words) : (0x31 : UInt8) ∉ hrp := by
  simp only [decodeBech32Address, decodeBech32, bind_eq_ok, exists_unit, require_eq_ok,
    Prod.exists] at h
  obtain ⟨-, ⟨i, chk, hhead, rfl, hlen, -⟩, -⟩ := h
  obtain ⟨cs, rfl⟩ := @separator_of_parsePrefix [] hrp s 1 chk hhead
    (by rw [BECH32_CHECKSUM_LENGTH] at hlen; omega)
  -- the matcher stops at the first separator
  intro hone
  obtain ⟨before, after, rfl, hbefore⟩ := List.eq_append_cons_of_mem hone
  rw [List.append_assoc, List.cons_append, parsePrefix_append hbefore] at hhead
  have hstop := (Prod.mk.inj (Except.ok.inj hhead)).1
  simp at hstop

lemma bech32String_injective {hrp a b : Bytes} {const : Uint256} (hone : (0x31 : UInt8) ∉ hrp)
    (hconst : const.toNat < 2 ^ 30) (h : bech32String hrp const a = bech32String hrp const b) :
    a = b := by
  have ha : decodeBech32Address hrp (bech32String hrp const a) const = .ok a :=
    decodeBech32Address_encode hone hconst a
  rw [h, (decodeBech32Address_eq_ok hone hconst).2 rfl] at ha
  exact (Except.ok.inj ha).symm

/-- **Decoding and encoding invert each other**, under every prefix without a separator and for
every constant of thirty bits; what is no encoding is refused. -/
theorem decodeBech32Address_inverse :
    ∀ hrp : Bytes, hrp ≠ [] → (0x31 : UInt8) ∉ hrp → ∀ const : Uint256, const.toNat < 2 ^ 30 →
      (∀ bytes, decodeBech32Address hrp (bech32String hrp const bytes) const = .ok bytes) ∧
      (∀ s bytes, decodeBech32Address hrp s const = .ok bytes → s = bech32String hrp const bytes) ∧
      ∀ s, (∀ bytes, s ≠ bech32String hrp const bytes) →
        ∃ e, decodeBech32Address hrp s const = .error e := by
  intro hrp _ hone const hconst
  refine ⟨fun bytes => (decodeBech32Address_eq_ok hone hconst).2 rfl,
    fun s bytes h => (decodeBech32Address_eq_ok hone hconst).1 h, ?_⟩
  intro s hs
  cases hresult : decodeBech32Address hrp s const with
  | error e => exact ⟨e, rfl⟩
  | ok bytes => exact absurd ((decodeBech32Address_eq_ok hone hconst).1 hresult) (hs bytes)

theorem decodeBech32Address_inverse_example :
    ascii "tap1qqqsy5zlyfy" =
      bech32String (ascii "tap") BECH32M_CHECKSUM_CONSTANT [0x00, 0x01, 0x02] :=
  (decodeBech32Address_inverse (ascii "tap") (by decide) (by decide) BECH32M_CHECKSUM_CONSTANT
    (by decide)).2.1 _ _ (by decide +kernel)

end TapUtils

end NbteBridge
