import NbteBridge.Contracts.ChecksumRegister
import NbteBridge.Contracts.TapUtils
import NbteBridge.Foundations.Bits
import NbteBridge.Foundations.Tlv

/-!
# What the address decoder reads

The layers of `decodeTapAddress`, each with what it computes.  The register and the table of the
contract are those of the format, so a string with its checksum gives back its values
(`decodeBech32_encode`); the regrouping keeps the bits, so five-bit values give back their bytes
(`convertBits_of_bits`).  The readers with their offsets read what stands in the rest of the stream
(`readBigSize_eq_ok`, `readValue_eq_ok`), a round of the loop is one record (`readRecord_eq_ok`), and
the loop is the whole rest in records of increasing types (`readRecords_eq_ok`), whatever fuel it
has been given above the length of the stream.
-/

namespace NbteBridge

open Checked Packed

namespace TapUtils

/-! ## The checksum layer -/

lemma isPolymodStep_polymodStep : IsPolymodStep polymodStep := by
  -- a shift brings the bit to the lowest place
  have hbit : ∀ (b : Uint256) (i : ℕ), (b >>> i) &&& 1 ≠ 0 ↔ b.toNat.testBit i = true := by
    intro b i
    rw [ne_eq, ← BitVec.toNat_inj, BitVec.toNat_and, BitVec.toNat_ushiftRight]
    change ¬ (b.toNat >>> i &&& 1 = 0) ↔ _
    rw [Nat.and_one_is_mod, Nat.testBit_eq_decide_div_mod_eq, Nat.shiftRight_eq_div_pow,
      decide_eq_true_eq]
    omega
  intro pre
  simp only [polymodStep, Bech32.polymodStep, Bech32.generator, List.zipIdx_cons,
    List.zipIdx_nil, List.foldl_cons, List.foldl_nil, Nat.xor_zero]
  rw [toNat_overlay (hbit _ 4), toNat_overlay (hbit _ 3), toNat_overlay (hbit _ 2),
    toNat_overlay (hbit _ 1), toNat_overlay (hbit _ 0), toNat_low, BitVec.toNat_ushiftRight]
  rfl

/-- The loop over the prefix stops at the first separator of the string. -/
lemma parsePrefix_append {hrp : Bytes} (hone : (0x31 : UInt8) ∉ hrp) (rest data : Bytes) :
    parsePrefix (hrp ++ rest) 0 1 (hrp ++ 0x31 :: data) =
      .ok (hrp.length,
        hrp.foldl (fun chk (c : UInt8) => polymodStep chk ^^^ Uint256.ofByte (c >>> 5)) 1) := by
  -- from any point of it on
  have hfrom : ∀ (before : Bytes) (chk : Uint256),
      parsePrefix (before ++ (hrp ++ rest)) before.length chk (hrp ++ 0x31 :: data) =
        .ok ((before ++ hrp).length, hrp.foldl
          (fun chk (c : UInt8) => polymodStep chk ^^^ Uint256.ofByte (c >>> 5)) chk) := by
    induction hrp with
    | nil =>
        intro before chk
        rw [List.nil_append, List.nil_append, parsePrefix, require_of (by simp), ok_bind,
          if_pos rfl, List.append_nil, List.foldl_nil]
        rfl
    | cons c hrp ih =>
        intro before chk
        have hc : c ≠ 0x31 := fun h => hone (by simp [h])
        have hindex : index (before ++ (c :: hrp ++ rest)) before.length = .ok c := by
          rw [index_eq_ok, List.getElem?_append_right le_rfl]
          simp
        have hrest := ih (fun h => hone (by simp [h])) (before ++ [c])
          (polymodStep chk ^^^ Uint256.ofByte (c >>> 5))
        change parsePrefix (before ++ (c :: hrp ++ rest)) before.length chk
          (c :: (hrp ++ 0x31 :: data)) = _
        rw [parsePrefix, require_of (by simp), ok_bind, if_neg hc, hindex, ok_bind,
          require_of rfl, ok_bind, List.foldl_cons]
        simpa using hrest
  simpa using hfrom [] 1

/-- The table has the value of each character. -/
lemma index_alphabetMap : ∀ v < 32,
    (BECH32_FIRST_ORD ≤ Bech32.valueChar v ∧ Bech32.valueChar v ≤ BECH32_LAST_ORD) ∧
      index BECH32_ALPHABET_MAP (Bech32.valueChar v - BECH32_FIRST_ORD).toNat =
        .ok (UInt8.ofNat v) ∧ UInt8.ofNat v ≤ BECH32_MAX_VALID_MAPPED := by
  decide +kernel

/-- The loop over the characters reads the values back, and runs the register over them. -/
lemma readCharacters_map {values : List ℕ} (hvalues : ∀ v ∈ values, v < 32) (chk : Uint256) :
    ∃ chk', readCharacters chk (values.map Bech32.valueChar) =
        .ok ((values.take (values.length - 6)).map UInt8.ofNat, chk') ∧
      chk'.toNat = values.foldl Bech32.polymodStep chk.toNat := by
  induction values generalizing chk with
  | nil => exact ⟨chk, rfl, rfl⟩
  | cons v values ih =>
      have hv := hvalues v (by simp)
      obtain ⟨hord, hindex, hmapped⟩ := index_alphabetMap v hv
      obtain ⟨chk', hrun, hchk⟩ := ih (fun w hw => hvalues w (by simp [hw]))
        (polymodStep chk ^^^ Uint256.ofByte (UInt8.ofNat v))
      refine ⟨chk', ?_, ?_⟩
      · rw [List.map_cons, readCharacters, require_of hord, ok_bind, hindex, ok_bind,
          require_of hmapped, ok_bind, hrun, ok_bind, List.length_cons, List.length_map,
          List.length_cons]
        by_cases hlen : BECH32_CHECKSUM_LENGTH < values.length + 1
        · have hsucc : values.length + 1 - 6 = (values.length - 6) + 1 := by
            unfold BECH32_CHECKSUM_LENGTH at hlen
            omega
          simp only [if_pos hlen, hsucc, List.take_succ_cons, List.map_cons, pure_eq_ok]
        · have hnone : values.length + 1 - 6 = 0 ∧ values.length - 6 = 0 := by
            unfold BECH32_CHECKSUM_LENGTH at hlen
            omega
          simp only [if_neg hlen, hnone, List.take_zero, List.map_nil, pure_eq_ok]
      · have hsize : v < UInt8.size := hv.trans (by norm_num [UInt8.size])
        rw [hchk, isPolymodStep_polymodStep.xor, UInt8.toNat_ofNat_of_lt' hsize, List.foldl_cons]

lemma ascii_one : ascii "1" = [0x31] := by decide

/-- **The checksum layer is undone**, for a prefix without a separator in it. -/
lemma decodeBech32_encode {hrp : Bytes} (hone : (0x31 : UInt8) ∉ hrp) {const : Uint256}
    (hconst : const.toNat < 2 ^ 30) {data : List ℕ} (hdata : ∀ v ∈ data, v < 32) :
    decodeBech32 hrp (Bech32.encode const.toNat hrp data) const =
      .ok (data.map UInt8.ofNat) := by
  have hvalues : ∀ v ∈ data ++ Bech32.checksum const.toNat hrp data, v < 32 := by
    intro v hv
    rcases List.mem_append.1 hv with hv | hv
    · exact hdata v hv
    · exact Bech32.checksum_lt hv
  obtain ⟨chk, hrun, hchk⟩ := readCharacters_map hvalues
    (hrp.foldl (fun chk (c : UInt8) => polymodStep chk ^^^ Uint256.ofByte (c &&& 0x1f))
      (polymodStep
        (hrp.foldl (fun chk (c : UInt8) => polymodStep chk ^^^ Uint256.ofByte (c >>> 5)) 1)))
  rw [isPolymodStep_polymodStep.expand, Bech32.polymod, ← List.foldl_append, ← Bech32.polymod,
    ← List.append_assoc, Bech32.polymod_checksum hconst] at hchk
  have hchars : Bech32.encode const.toNat hrp data = hrp ++ 0x31 ::
      (data ++ Bech32.checksum const.toNat hrp data).map Bech32.valueChar := by
    rw [Bech32.encode, ascii_one]
    simp
  have hhead := parsePrefix_append hone []
    ((data ++ Bech32.checksum const.toNat hrp data).map Bech32.valueChar)
  rw [List.append_nil] at hhead
  have htake : (data ++ Bech32.checksum const.toNat hrp data).take
      ((data ++ Bech32.checksum const.toNat hrp data).length - 6) = data := by
    rw [List.length_append, Bech32.length_checksum, Nat.add_sub_cancel, List.take_left]
  rw [htake] at hrun
  have hlen : hrp.length + 1 + BECH32_CHECKSUM_LENGTH ≤ (hrp ++ 0x31 ::
      (data ++ Bech32.checksum const.toNat hrp data).map Bech32.valueChar).length := by
    simp [BECH32_CHECKSUM_LENGTH]
    omega
  have hdrop : (hrp ++ 0x31 :: (data ++ Bech32.checksum const.toNat hrp data).map
      Bech32.valueChar).drop (hrp.length + 1) =
      (data ++ Bech32.checksum const.toNat hrp data).map Bech32.valueChar := by
    rw [List.drop_append, List.drop_of_length_le (by omega)]
    simp
  have hfinal : chk = const := BitVec.eq_of_toNat_eq hchk
  simp only [decodeBech32, hchars, hhead, ok_bind, List.take_left, hdrop, hrun, require_of hlen,
    require_of hfinal, require_of True.intro, pure_eq_ok]

/-! ## Regrouping -/

/-- The bits of a byte string. -/
def byteBits (bytes : Bytes) : List Bool := Bits.toBits 8 (bytes.map UInt8.toNat)

lemma byteBits_append (as bs : Bytes) : byteBits (as ++ bs) = byteBits as ++ byteBits bs := by
  simp [byteBits]

/-- The group of eight taken off at a place has the bits from there. -/
lemma byteBits_group (acc place : ℕ) :
    byteBits [UInt8.ofNat ((acc >>> place) &&& (2 ^ 8 - 1))] = Bits.bitsBE 8 (acc >>> place) := by
  rw [byteBits, List.map_singleton, Bits.toBits_cons, Bits.toBits_nil, List.append_nil]
  apply Bits.bitsBE_congr
  intro i hi
  rw [UInt8.toNat_ofNat', Nat.testBit_mod_two_pow, Nat.testBit_and, Nat.testBit_two_pow_sub_one]
  simp [hi]

/-- The inner loop moves whole bytes from the accumulator to the output. -/
lemma takeGroups_bits (retSize acc : ℕ) {fuel bits : ℕ} (ret : Bytes) (hfuel : bits ≤ fuel)
    (hroom : 8 * ret.length + bits < 8 * (retSize + 1)) :
    ∃ bits' ret', takeGroups 8 retSize acc fuel bits ret = .ok (bits', ret') ∧ bits' < 8 ∧
      byteBits ret' ++ Bits.bitsBE bits' acc = byteBits ret ++ Bits.bitsBE bits acc := by
  induction fuel generalizing bits ret with
  | zero => exact ⟨bits, ret, rfl, by omega, rfl⟩
  | succ fuel ih =>
      by_cases hbits : 8 ≤ bits
      · obtain ⟨bits', ret', hrun, hlt, hkeep⟩ := @ih (bits - 8)
          (ret ++ [UInt8.ofNat ((acc >>> (bits - 8)) &&& (2 ^ 8 - 1))]) (by omega) (by
            rw [List.length_append, List.length_singleton]
            omega)
        refine ⟨bits', ret', ?_, hlt, ?_⟩
        · rw [takeGroups, if_pos hbits, require_of (by omega), ok_bind]
          exact hrun
        · have hsplit := Bits.bitsBE_add 8 (bits - 8) acc
          rw [show 8 + (bits - 8) = bits by omega] at hsplit
          rw [hkeep, byteBits_append, byteBits_group, hsplit, List.append_assoc]
      · exact ⟨bits, ret, by rw [takeGroups, if_neg hbits]; rfl, by omega, rfl⟩

/-- A value shifted into the accumulator follows the bits that were waiting there. -/
lemma bitsBE_shiftIn {acc bits value : ℕ} (hbits : bits < 8) (hvalue : value < 2 ^ 5) :
    Bits.bitsBE (bits + 5) (((acc <<< 5) ||| value) &&& (2 ^ (5 + 8 - 1) - 1)) =
      Bits.bitsBE bits acc ++ Bits.bitsBE 5 value := by
  rw [Bits.bitsBE_add]
  congr 1
  · apply Bits.bitsBE_congr
    intro i hi
    have hhigh : value.testBit (5 + i) = false :=
      Nat.testBit_lt_two_pow (hvalue.trans_le (Nat.pow_le_pow_right (by norm_num) (by omega)))
    rw [Nat.testBit_shiftRight, Nat.testBit_and, Nat.testBit_or, Nat.testBit_shiftLeft,
      Nat.testBit_two_pow_sub_one, hhigh]
    simp [show 5 + i < 5 + 8 - 1 by omega]
  · apply Bits.bitsBE_congr
    intro i hi
    rw [Nat.testBit_and, Nat.testBit_or, Nat.testBit_shiftLeft, Nat.testBit_two_pow_sub_one]
    simp [show i < 5 + 8 - 1 by omega, hi]

/-- The outer loop keeps the bits in their order. -/
lemma convertWords_bits {retSize : ℕ} (acc : ℕ) {bits : ℕ} {words : Bytes} (ret : Bytes)
    (hbits : bits < 8)
    (hwords : ∀ w ∈ words, w.toNat < 2 ^ 5)
    (hroom : 8 * ret.length + bits + 5 * words.length < 8 * (retSize + 1)) :
    ∃ acc' bits' ret', convertWords 5 8 retSize acc bits ret words = .ok (acc', bits', ret') ∧
      bits' < 8 ∧ byteBits ret' ++ Bits.bitsBE bits' acc' =
        byteBits ret ++ Bits.bitsBE bits acc ++ Bits.toBits 5 (words.map UInt8.toNat) := by
  induction words generalizing acc bits ret with
  | nil => exact ⟨acc, bits, ret, rfl, hbits, by simp⟩
  | cons word words ih =>
      have hword := hwords word (by simp)
      rw [List.length_cons] at hroom
      have hzero : word.toNat >>> 5 = 0 := by
        rw [Nat.shiftRight_eq_div_pow]
        exact Nat.div_eq_of_lt hword
      obtain ⟨bits₁, ret₁, htake, hbits₁, hkeep₁⟩ := takeGroups_bits retSize
        (((acc <<< 5) ||| word.toNat) &&& (2 ^ (5 + 8 - 1) - 1)) ret (le_refl (bits + 5)) (by omega)
      have hlen := congrArg List.length hkeep₁
      simp only [byteBits, List.length_append, Bits.length_toBits, List.length_map,
        Bits.length_bitsBE] at hlen
      obtain ⟨acc', bits', ret', hrun, hbits', hkeep⟩ := ih
        (((acc <<< 5) ||| word.toNat) &&& (2 ^ (5 + 8 - 1) - 1)) ret₁ hbits₁
        (fun w hw => hwords w (by simp [hw])) (by omega)
      refine ⟨acc', bits', ret', ?_, hbits', ?_⟩
      · simp only [convertWords, require_of hzero, ok_bind, htake, hrun]
      · rw [hkeep, hkeep₁, bitsBE_shiftIn hbits hword, List.map_cons, Bits.toBits_cons]
        simp only [List.append_assoc]

/-- **The regrouping is undone.**  Five-bit values that hold the bits of a byte string, followed by
fewer than five zeros, are converted to it. -/
lemma convertBits_of_bits {words bytes : Bytes} {k : ℕ} (hwords : ∀ w ∈ words, w.toNat < 2 ^ 5)
    (hk : k < 5) (h : Bits.toBits 5 (words.map UInt8.toNat) =
      byteBits bytes ++ List.replicate k false) :
    convertBits words 5 8 false = .ok bytes := by
  have hlen := congrArg List.length h
  simp only [byteBits, List.length_append, Bits.length_toBits, List.length_map,
    List.length_replicate] at hlen
  have hsize : words.length * 5 / 8 = bytes.length := by omega
  obtain ⟨acc, bits, ret, hrun, hbits, hkeep⟩ := @convertWords_bits bytes.length
    0 0 words [] (by norm_num) hwords (by simp; omega)
  have hall : byteBits ret ++ Bits.bitsBE bits acc = byteBits bytes ++ List.replicate k false := by
    rw [hkeep, h]
    simp [byteBits, Bits.bitsBE]
  have hlens := congrArg List.length hall
  simp only [byteBits, List.length_append, Bits.length_toBits, List.length_map,
    Bits.length_bitsBE, List.length_replicate] at hlens
  obtain ⟨hbytes, hzeros⟩ := List.append_inj hall (by simp [byteBits]; omega)
  obtain rfl : bits = k := by omega
  have hret : ret = bytes := by
    refine List.map_injective_iff.2 (fun a b => UInt8.toNat_inj.1) ?_
    refine Bits.toBits_injective (by norm_num) ?_ ?_ hbytes
    all_goals
      intro n hn
      obtain ⟨c, -, rfl⟩ := List.mem_map.1 hn
      exact c.toNat_lt
  have hpad : ¬ (5 ≤ bits ∨ (acc <<< (8 - bits)) &&& (2 ^ 8 - 1) ≠ 0) := by
    rintro (hle | hne)
    · omega
    · apply hne
      apply Nat.eq_of_testBit_eq
      intro i
      have hzero := Bits.testBit_of_bitsBE_zero hzeros (i - (8 - bits))
      rw [Nat.testBit_and, Nat.testBit_shiftLeft, Nat.testBit_two_pow_sub_one, Nat.zero_testBit]
      by_cases hi : 8 - bits ≤ i ∧ i < 8
      · rw [hzero (by omega)]
        simp
      · simp
        omega
  rw [convertBits]
  simp only [hsize, hrun, ok_bind, hret, require_of hpad, pure_bind, Nat.sub_self,
    List.replicate_zero, List.append_nil, Bool.false_eq_true, if_false, pure_eq_ok]

/-- Bytes of values below 32 are those values. -/
lemma map_toNat_ofNat {values : List ℕ} (h : ∀ v ∈ values, v < 32) :
    (values.map UInt8.ofNat).map UInt8.toNat = values := by
  rw [List.map_map]
  refine (List.map_congr_left fun v hv => ?_).trans (List.map_id _)
  exact UInt8.toNat_ofNat_of_lt' ((h v hv).trans (by norm_num [UInt8.size]))

/-- The checksum layer and the regrouping, undone together. -/
lemma decodeBech32Address_encode {hrp : Bytes} (hone : (0x31 : UInt8) ∉ hrp) {const : Uint256}
    (hconst : const.toNat < 2 ^ 30) (bytes : Bytes) :
    decodeBech32Address hrp
      (Bech32.encode const.toNat hrp (Bits.regroup 5 (byteBits bytes))) const = .ok bytes := by
  have hdata : ∀ v ∈ Bits.regroup 5 (byteBits bytes), v < 32 := by
    intro v hv
    exact Bits.regroup_lt hv
  obtain ⟨k, hk, hbits⟩ := Bits.toBits_regroup (w := 5) (by norm_num) (byteBits bytes)
  rw [decodeBech32Address, decodeBech32_encode hone hconst hdata, ok_bind]
  refine convertBits_of_bits ?_ hk (by rw [map_toNat_ofNat hdata, hbits])
  intro w hw
  obtain ⟨v, hv, rfl⟩ := List.mem_map.1 hw
  have hsize : v < UInt8.size := (hdata v hv).trans (by norm_num [UInt8.size])
  rw [UInt8.toNat_ofNat_of_lt' hsize]
  exact hdata v hv

/-! ## The readers -/

lemma bigEndian_toNat {w : ℕ} {bytes : Bytes} (h : 8 * bytes.length ≤ w) :
    (bigEndian w bytes).toNat = Tlv.numberBE bytes := by
  induction bytes using List.reverseRecOn with
  | nil => simp [bigEndian, Tlv.numberBE]
  | append_singleton bytes c ih =>
      rw [List.length_append, List.length_singleton] at h
      have hlt : Tlv.numberBE bytes < 2 ^ (w - 8) :=
        (Tlv.numberBE_lt bytes).trans_le (by
          rw [show (256 : ℕ) = 2 ^ 8 by norm_num, ← pow_mul]
          exact Nat.pow_le_pow_right (by norm_num) (by omega))
      have hpow : 2 ^ w = 2 ^ (w - 8) * 256 := by
        rw [show (256 : ℕ) = 2 ^ 8 by norm_num, ← pow_add]
        congr 1
        omega
      have hc := c.toNat_lt
      have hbyte : c.toNat < 2 ^ w :=
        hc.trans_le (Nat.pow_le_pow_right (by norm_num) (by omega))
      have hfold : bigEndian w (bytes ++ [c]) =
          (bigEndian w bytes <<< 8) ||| BitVec.ofNat w c.toNat := by
        simp [bigEndian]
      rw [hfold, BitVec.toNat_or, BitVec.toNat_shiftLeft, ih (by omega), BitVec.toNat_ofNat,
        Nat.mod_eq_of_lt hbyte, Tlv.numberBE_append, Nat.shiftLeft_eq, Nat.mod_eq_of_lt (by omega),
        ← Nat.shiftLeft_eq, ← Nat.shiftLeft_add_eq_or_of_lt (by omega), Nat.shiftLeft_eq]
      ring

/-- A marker's branch, against the number after the marker. -/
lemma readWide_drop {words : Bytes} {offset width : ℕ} (error : String) (hpos : 0 < width)
    (hwidth : 8 * width ≤ 64) :
    (∃ e, readWide words offset width error = .error e ∧
      Tlv.readNumber width (words.drop (offset + 1)) = none) ∨
    ∃ n next, readWide words offset width error = .ok (n, next) ∧
      Tlv.readNumber width (words.drop (offset + 1)) = some (n.toNat, words.drop next) ∧
      offset < next ∧ next ≤ words.length := by
  by_cases hlen : offset + 1 + width ≤ words.length
  · right
    refine ⟨_, _, by rw [readWide, require_of hlen, ok_bind]; rfl, ?_, by omega, hlen⟩
    have hshort : ¬ (words.drop (offset + 1)).length < width := by
      rw [List.length_drop]
      omega
    rw [Tlv.readNumber, if_neg hshort, List.drop_drop, bigEndian_toNat]
    rw [List.length_take_of_le (Nat.le_of_not_lt hshort)]
    exact hwidth
  · left
    have hshort : (words.drop (offset + 1)).length < width := by
      rw [List.length_drop]
      omega
    refine ⟨error, ?_, by rw [Tlv.readNumber, if_pos hshort]⟩
    rw [readWide, bind_eq_error]
    exact .inl (require_eq_error.2 ⟨hlen, rfl⟩)

/-- **The reader of numbers** reads what stands at its offset, or both find the stream ended. -/
lemma readBigSize_drop (words : Bytes) (offset : ℕ) :
    (∃ e, readBigSize words offset = .error e ∧ Tlv.readBigSize (words.drop offset) = none) ∨
    ∃ n next, readBigSize words offset = .ok (n, next) ∧
      Tlv.readBigSize (words.drop offset) = some (n.toNat, words.drop next) ∧
      offset < next ∧ next ≤ words.length := by
  by_cases hlen : offset < words.length
  · have hdrop : words.drop offset = words[offset] :: words.drop (offset + 1) :=
      List.drop_eq_getElem_cons hlen
    have hindex : index words offset = .ok words[offset] :=
      index_eq_ok.2 (List.getElem?_eq_getElem hlen)
    rw [readBigSize, require_of hlen, ok_bind, hindex, ok_bind, hdrop, Tlv.readBigSize]
    split_ifs
    · exact readWide_drop _ (by norm_num) (by norm_num)
    · exact readWide_drop _ (by norm_num) (by norm_num)
    · exact readWide_drop _ (by norm_num) (by norm_num)
    · right
      refine ⟨_, _, rfl, ?_, Nat.lt_succ_self offset, hlen⟩
      have hc := words[offset].toNat_lt
      rw [BitVec.toNat_ofNat, Nat.mod_eq_of_lt (by omega)]
  · left
    refine ⟨"EOF when reading BigSize", ?_, ?_⟩
    · rw [readBigSize, bind_eq_error]
      exact .inl (require_eq_error.2 ⟨hlen, rfl⟩)
    · rw [List.drop_of_length_le (by omega), Tlv.readBigSize]

/-- The reader of numbers, where it succeeds. -/
lemma readBigSize_eq_ok {words : Bytes} {offset next : ℕ} {n : Uint64} :
    readBigSize words offset = .ok (n, next) ↔
      Tlv.readBigSize (words.drop offset) = some (n.toNat, words.drop next) ∧
        offset < next ∧ next ≤ words.length := by
  rcases readBigSize_drop words offset with ⟨e, herror, hnone⟩ | ⟨m, next', hok, hsome, hrange⟩
  · rw [herror, hnone]
    simp
  · rw [hok, hsome]
    constructor
    · intro h
      obtain ⟨rfl, rfl⟩ := Prod.mk.inj (Except.ok.inj h)
      exact ⟨rfl, hrange⟩
    · rintro ⟨h, hlt, hle⟩
      obtain ⟨hn, hrest⟩ := Prod.mk.inj (Option.some.inj h)
      have hlens := congrArg List.length hrest
      rw [List.length_drop, List.length_drop] at hlens
      rw [BitVec.eq_of_toNat_eq hn, show next' = next by omega]

/-! ## Records -/

/-- The byte of a value of length one. -/
def oneByte : Bytes → Option UInt8
  | [c] => some c
  | _ => none

lemma oneByte_eq_some {bytes : Bytes} {c : UInt8} : oneByte bytes = some c ↔ bytes = [c] := by
  constructor
  · intro h
    unfold oneByte at h
    split at h
    · rw [Option.some.inj h]
    · exact absurd h (by simp)
  · rintro rfl
    rfl

/-- A record entered into an address: what each type must hold, and where it goes.  Records of
other types are passed over. -/
def enter (ret : TapAddress) (r : Tlv.Record) : Option TapAddress :=
  if r.type = 10 then
    match Tlv.readBigSize r.value with
    | some (amt, []) => some { ret with amount := BitVec.ofNat 64 amt }
    | _ => none
  else if r.type = 4 then
    if r.value.length = 32 then
      some { ret with assetId := BitVec.ofNat 256 (Tlv.numberBE r.value) }
    else none
  else if r.type = 0 then
    (oneByte r.value).map fun version => { ret with addressVersion := version }
  else if r.type = 2 then
    (oneByte r.value).map fun version => { ret with assetVersion := version }
  else if r.type = 5 then some { ret with groupKey := r.value }
  else if r.type = 6 then some { ret with scriptKey := r.value }
  else if r.type = 8 then some { ret with internalKey := r.value }
  else if r.type = 9 then some { ret with tapscriptSibling := r.value }
  else if r.type = 11 then some { ret with assetType := r.value }
  else some ret

/-- The amount's branch: a number that fills its value. -/
lemma readAmount_eq_ok {words : Bytes} {length amt : Uint64} {offset next : ℕ} :
    readBigSize words offset = .ok (amt, next) ∧ next - offset = length.toNat ↔
      next = offset + length.toNat ∧ next ≤ words.length ∧
        Tlv.readBigSize ((words.drop offset).take length.toNat) = some (amt.toNat, []) := by
  have hsplit : (words.drop offset).take length.toNat ++ words.drop (offset + length.toNat) =
      words.drop offset := by
    rw [← List.drop_drop, List.take_append_drop]
  rw [readBigSize_eq_ok]
  constructor
  · rintro ⟨⟨hread, hlt, hle⟩, hlen⟩
    obtain rfl : next = offset + length.toNat := by omega
    obtain ⟨used, -, hused, hagain⟩ := Tlv.readBigSize_split hread
    have hequal : used = (words.drop offset).take length.toNat :=
      List.append_cancel_right (hused.symm.trans hsplit.symm)
    refine ⟨rfl, hle, ?_⟩
    rw [← hequal]
    simpa using hagain []
  · rintro ⟨rfl, hle, hread⟩
    obtain ⟨used, hne, hused, hagain⟩ := Tlv.readBigSize_split hread
    rw [List.append_nil] at hused
    have hpos : 0 < length.toNat := by
      by_contra hzero
      have hzero' : length.toNat = 0 := by omega
      rw [hzero', List.take_zero] at hused
      exact hne hused.symm
    refine ⟨⟨?_, by omega, hle⟩, by omega⟩
    rw [← hsplit, hused]
    exact hagain _

/-- What is read fits its word. -/
lemma exists_toNat_of_readBigSize {bytes rest : Bytes} {n : ℕ}
    (h : Tlv.readBigSize bytes = some (n, rest)) : ∃ m : Uint64, n = m.toNat := by
  rcases readBigSize_drop bytes 0 with ⟨e, -, hnone⟩ | ⟨m, next, -, hsome, -⟩
  · rw [List.drop_zero, h] at hnone
    exact absurd hnone (by simp)
  · rw [List.drop_zero, h] at hsome
    exact ⟨m, (Prod.mk.inj (Option.some.inj hsome)).1⟩

/-- The branches that take the value's bytes as they are. -/
lemma readBytes_eq_ok {words data : Bytes} {offset length next : ℕ} :
    readBytes words offset length = .ok (data, next) ↔
      data = (words.drop offset).take length ∧ next = offset + length ∧ next ≤ words.length := by
  simp only [readBytes, bind_eq_ok, exists_unit, require_eq_ok, pure_eq_ok, Prod.mk.injEq]
  constructor
  · rintro ⟨hle, rfl, rfl⟩
    exact ⟨rfl, rfl, hle⟩
  · rintro ⟨rfl, rfl, hle⟩
    exact ⟨hle, rfl, rfl⟩

/-- A field of one byte. -/
lemma one_byte_eq_ok {data : Bytes} {error : String} {f : UInt8 → TapAddress} {next : ℕ}
    {out : TapAddress × ℕ} :
    (do
      require (data.length = 1) error
      let version ← index data 0
      (pure (f version, next) : Result (TapAddress × ℕ))) = .ok out ↔
      ∃ version, data = [version] ∧ out = (f version, next) := by
  simp only [bind_eq_ok, exists_unit, require_eq_ok, index_eq_ok, pure_eq_ok]
  constructor
  · rintro ⟨hlen, version, hversion, rfl⟩
    obtain ⟨b, rfl⟩ := List.length_eq_one_iff.1 hlen
    obtain rfl := Option.some.inj hversion
    exact ⟨b, rfl, rfl⟩
  · rintro ⟨version, rfl, rfl⟩
    exact ⟨rfl, version, rfl, rfl⟩

/-- **One value**: the reader takes the bytes of the length, and enters them. -/
lemma readValue_eq_ok {words : Bytes} {type_ length : Uint64} {ret ret' : TapAddress}
    {offset next : ℕ} :
    readValue words type_ length ret offset = .ok (ret', next) ↔
      next = offset + length.toNat ∧ next ≤ words.length ∧
        enter ret ⟨type_.toNat, (words.drop offset).take length.toNat⟩ = some ret' := by
  have h10 : type_ = 10 ↔ type_.toNat = 10 := BitVec.toNat_inj.symm
  have h4 : type_ = 4 ↔ type_.toNat = 4 := BitVec.toNat_inj.symm
  have h0 : type_ = 0 ↔ type_.toNat = 0 := BitVec.toNat_inj.symm
  have h2 : type_ = 2 ↔ type_.toNat = 2 := BitVec.toNat_inj.symm
  have h5 : type_ = 5 ↔ type_.toNat = 5 := BitVec.toNat_inj.symm
  have h6 : type_ = 6 ↔ type_.toNat = 6 := BitVec.toNat_inj.symm
  have h8 : type_ = 8 ↔ type_.toNat = 8 := BitVec.toNat_inj.symm
  have h9 : type_ = 9 ↔ type_.toNat = 9 := BitVec.toNat_inj.symm
  have h11 : type_ = 11 ↔ type_.toNat = 11 := BitVec.toNat_inj.symm
  unfold readValue enter
  simp only [h10, h4, h0, h2, h5, h6, h8, h9, h11]
  split
  · -- the amount
    simp only [bind_eq_ok, exists_unit, require_eq_ok, pure_eq_ok, Prod.exists, Prod.mk.injEq]
    constructor
    · rintro ⟨amt, next', hread, hlen, rfl, rfl⟩
      obtain ⟨hnext, hle, hvalue⟩ := readAmount_eq_ok.1 ⟨hread, hlen⟩
      refine ⟨hnext, hle, ?_⟩
      rw [hvalue]
      simp
    · rintro ⟨hnext, hle, henter⟩
      split at henter
      · rename_i amt hvalue
        obtain ⟨n, rfl⟩ := exists_toNat_of_readBigSize hvalue
        obtain ⟨hread, hlen⟩ := readAmount_eq_ok.2 ⟨hnext, hle, hvalue⟩
        refine ⟨n, next, hread, hlen, ?_, rfl⟩
        simpa using henter
      · exact absurd henter (by simp)
  split
  · -- the asset id
    have h32 : length = 32 ↔ length.toNat = 32 := BitVec.toNat_inj.symm
    simp only [readBytes32, h32, bind_eq_ok, exists_unit, require_eq_ok, pure_eq_ok, Prod.exists,
      Prod.mk.injEq]
    constructor
    · rintro ⟨hlen, assetId, next', ⟨hle, rfl, rfl⟩, rfl, rfl⟩
      rw [hlen]
      have hvalue : ((words.drop offset).take 32).length = 32 := by
        rw [List.length_take_of_le]
        rw [List.length_drop]
        omega
      refine ⟨rfl, hle, ?_⟩
      rw [if_pos hvalue, ← bigEndian_toNat (w := 256) (by rw [hvalue])]
      simp
    · rintro ⟨rfl, hle, henter⟩
      split at henter
      · rename_i hvalue
        have hlen : length.toNat = 32 := by
          rw [List.length_take_of_le] at hvalue
          · exact hvalue
          · rw [List.length_drop]
            omega
        rw [hlen] at hle henter hvalue ⊢
        rw [← bigEndian_toNat (w := 256) (by rw [hvalue])] at henter
        exact ⟨rfl, _, _, ⟨hle, rfl, rfl⟩, by simpa using henter, rfl⟩
      · exact absurd henter (by simp)
  -- the rest of the types take the bytes
  simp only [bind_eq_ok, Prod.exists, readBytes_eq_ok]
  split_ifs
  case pos | pos =>
    simp only [one_byte_eq_ok, Option.map_eq_some_iff, oneByte_eq_some, Prod.mk.injEq]
    constructor
    · rintro ⟨data, next', ⟨rfl, rfl, hle⟩, version, hvalue, rfl, rfl⟩
      exact ⟨rfl, hle, version, hvalue, rfl⟩
    · rintro ⟨rfl, hle, version, hvalue, rfl⟩
      exact ⟨_, _, ⟨rfl, rfl, hle⟩, version, hvalue, rfl, rfl⟩
  all_goals
    simp only [pure_eq_ok, Prod.mk.injEq, Option.some.injEq]
    constructor
    · rintro ⟨data, next', ⟨rfl, rfl, hle⟩, rfl, rfl⟩
      exact ⟨rfl, hle, rfl⟩
    · rintro ⟨rfl, hle, rfl⟩
      exact ⟨_, _, ⟨rfl, rfl, hle⟩, rfl, rfl⟩

/-- **One round of the loop**: a record of a greater type stands at the offset, and is entered. -/
lemma readRecord_eq_ok {words : Bytes} {prevType type_ : ℤ} {ret ret' : TapAddress}
    {offset next : ℕ} :
    readRecord words prevType ret offset = .ok (type_, ret', next) ↔
      offset < next ∧ next ≤ words.length ∧
        ∃ r, Tlv.readRecord (words.drop offset) = some (r, words.drop next) ∧
          prevType < r.type ∧ type_ = r.type ∧ enter ret r = some ret' := by
  simp only [readRecord, bind_eq_ok, exists_unit, require_eq_ok, pure_eq_ok, Prod.exists,
    Prod.mk.injEq, readBigSize_eq_ok, readValue_eq_ok]
  constructor
  · rintro ⟨type, offset₁, ⟨htype, hlt₁, hle₁⟩, horder, length, offset₂, ⟨hlength, hlt₂, hle₂⟩,
      out, next', ⟨rfl, hle, henter⟩, rfl, rfl, rfl⟩
    refine ⟨by omega, hle, _, ?_, horder, rfl, henter⟩
    have hvalue : ((words.drop offset₂).take length.toNat).length = length.toNat := by
      rw [List.length_take_of_le]
      rw [List.length_drop]
      omega
    rw [Tlv.readRecord_eq_some]
    refine ⟨_, htype, ?_⟩
    rw [hvalue, ← List.drop_drop, List.take_append_drop]
    exact hlength
  · rintro ⟨hlt, hle, r, hread, horder, rfl, henter⟩
    obtain ⟨bytes, htype, hlength⟩ := Tlv.readRecord_eq_some.1 hread
    -- each number is read by the reader of the contract, up to some offset
    have hstep : ∀ (offset n : ℕ) (rest : Bytes),
        Tlv.readBigSize (words.drop offset) = some (n, rest) →
        ∃ (m : Uint64) (next : ℕ), n = m.toNat ∧ rest = words.drop next ∧
          Tlv.readBigSize (words.drop offset) = some (m.toNat, words.drop next) ∧
          offset < next ∧ next ≤ words.length := by
      intro offset n rest h
      rcases readBigSize_drop words offset with ⟨e, -, hnone⟩ | ⟨m, next, -, hsome, hrange⟩
      · rw [h] at hnone
        exact absurd hnone (by simp)
      · obtain ⟨rfl, rfl⟩ := Prod.mk.inj (Option.some.inj (h.symm.trans hsome))
        exact ⟨m, next, rfl, rfl, hsome, hrange⟩
    obtain ⟨type, offset₁, htype', rfl, htypeRead, hrange₁⟩ := hstep _ _ _ htype
    obtain ⟨length, offset₂, hlength', hrest, hlengthRead, hlt₂, hle₂⟩ := hstep _ _ _ hlength
    have hlens := congrArg List.length hrest
    rw [List.length_append, List.length_drop, List.length_drop] at hlens
    have hnext : next = offset₂ + length.toNat := by omega
    have hvalue : (words.drop offset₂).take length.toNat = r.value := by
      rw [← hrest, ← hlength', List.take_left]
    refine ⟨type, offset₁, ⟨htypeRead, hrange₁⟩, by omega, length, offset₂,
      ⟨hlengthRead, hlt₂, hle₂⟩, ret', next, ⟨hnext, hle, ?_⟩, by omega, rfl, rfl⟩
    rw [hvalue, ← htype']
    exact henter

/-- The rest of the stream from an offset on, in records of types above `prevType`, and what they
make of an address. -/
def RestEnters (words : Bytes) (prevType : ℤ) (ret : TapAddress) (offset : ℕ)
    (ret' : TapAddress) : Prop :=
  ∃ rs, Tlv.Reads (words.drop offset) rs [] ∧
    (prevType :: rs.map fun r => (r.type : ℤ)).Pairwise (· < ·) ∧ rs.foldlM enter ret = some ret'

/-- At the end of the stream there is no record. -/
lemma restEnters_end {words : Bytes} {prevType : ℤ} {ret ret' : TapAddress} {offset : ℕ}
    (hle : words.length ≤ offset) : RestEnters words prevType ret offset ret' ↔ ret = ret' := by
  rw [RestEnters, List.drop_of_length_le hle]
  constructor
  · rintro ⟨rs, hreads, -, hfold⟩
    cases hreads with
    | nil => exact Option.some.inj hfold
    | cons hread _ => simp [Tlv.readRecord, Tlv.readBigSize] at hread
  · rintro rfl
    exact ⟨[], .nil _, by simp, rfl⟩

/-- Before the end there is one, and then the rest. -/
lemma restEnters_step {words : Bytes} {prevType : ℤ} {ret ret' : TapAddress} {offset : ℕ}
    (hlt : offset < words.length) :
    RestEnters words prevType ret offset ret' ↔
      ∃ type_ ret₁ next, readRecord words prevType ret offset = .ok (type_, ret₁, next) ∧
        RestEnters words type_ ret₁ next ret' := by
  constructor
  · rintro ⟨rs, hreads, hpairwise, hfold⟩
    generalize hbytes : words.drop offset = bytes at hreads
    cases hreads with
    | nil =>
        have hlen := congrArg List.length hbytes
        rw [List.length_drop, List.length_nil] at hlen
        omega
    | @cons _ rest _ r rs hread htail =>
        obtain ⟨used, hne, rfl⟩ := Tlv.readRecord_split hread
        have hrest : rest = words.drop (offset + used.length) := by
          rw [← List.drop_drop, hbytes, List.drop_left]
        have hlen := congrArg List.length hbytes
        rw [List.length_drop, List.length_append] at hlen
        have hpos := List.length_pos_iff.2 hne
        simp only [List.foldlM_cons, Option.bind_eq_bind, Option.bind_eq_some_iff] at hfold
        obtain ⟨ret₁, henter, hfold⟩ := hfold
        rw [List.map_cons, List.pairwise_cons] at hpairwise
        refine ⟨r.type, ret₁, offset + used.length, ?_, rs, hrest ▸ htail, hpairwise.2, hfold⟩
        refine readRecord_eq_ok.2 ⟨by omega, by omega, r, ?_, ?_, rfl, henter⟩
        · rw [hbytes, ← hrest]
          exact hread
        · exact hpairwise.1 _ (by simp)
  · rintro ⟨type_, ret₁, next, hstep, rs, hreads, hpairwise, hfold⟩
    obtain ⟨-, -, r, hread, horder, rfl, henter⟩ := readRecord_eq_ok.1 hstep
    refine ⟨r :: rs, .cons hread hreads, ?_, ?_⟩
    · rw [List.map_cons, List.pairwise_cons]
      refine ⟨?_, hpairwise⟩
      intro t ht
      rcases List.mem_cons.1 ht with rfl | ht
      · exact horder
      · exact horder.trans ((List.pairwise_cons.1 hpairwise).1 t ht)
    · rw [List.foldlM_cons, henter]
      exact hfold

/-- **The loop.**  It returns what the records of the rest of the stream make of the address, and
only where they are all there, in increasing order of their types. -/
lemma readRecords_eq_ok {words : Bytes} {fuel : ℕ} {prevType : ℤ} {ret ret' : TapAddress}
    {offset : ℕ} (hfuel : words.length ≤ offset + fuel) :
    readRecords words fuel prevType ret offset = .ok ret' ↔
      RestEnters words prevType ret offset ret' := by
  induction fuel generalizing prevType ret offset with
  | zero =>
      rw [restEnters_end (by omega), readRecords, require_of (by omega), ok_bind, pure_eq_ok]
  | succ fuel ih =>
      by_cases hlt : offset < words.length
      · rw [readRecords, if_pos hlt, restEnters_step hlt]
        simp only [bind_eq_ok, Prod.exists]
        constructor
        · rintro ⟨type_, ret₁, next, hstep, hrest⟩
          have hrange := (readRecord_eq_ok.1 hstep).1
          exact ⟨type_, ret₁, next, hstep, (ih (by omega)).1 hrest⟩
        · rintro ⟨type_, ret₁, next, hstep, hrest⟩
          have hrange := (readRecord_eq_ok.1 hstep).1
          exact ⟨type_, ret₁, next, hstep, (ih (by omega)).2 hrest⟩
      · rw [readRecords, if_neg hlt, pure_eq_ok, restEnters_end (by omega)]

/-- **What is accepted.**  An address is the payload of its string, read as records of increasing
types to its end. -/
lemma decodeTapAddress_eq_ok {u : TapUtils} {s : Bytes} {ret : TapAddress} :
    u.decodeTapAddress s = .ok ret ↔
      ∃ words, decodeBech32Address u.tapAddressPrefix s BECH32M_CHECKSUM_CONSTANT = .ok words ∧
        ∃ rs, Tlv.Reads words rs [] ∧ rs.Pairwise (fun a b => a.type < b.type) ∧
          rs.foldlM enter (emptyAddress u.tapAddressPrefix) = some ret := by
  have horder : ∀ rs : List Tlv.Record,
      ((-1 : ℤ) :: rs.map fun r => (r.type : ℤ)).Pairwise (· < ·) ↔
        rs.Pairwise fun a b => a.type < b.type := by
    intro rs
    rw [List.pairwise_cons, List.pairwise_map]
    simp only [Int.ofNat_lt, and_iff_right_iff_imp]
    intro _ t ht
    obtain ⟨r, -, rfl⟩ := List.mem_map.1 ht
    omega
  simp only [decodeTapAddress, bind_eq_ok]
  refine exists_congr fun words => and_congr_right fun _ => ?_
  rw [readRecords_eq_ok (by omega), RestEnters, List.drop_zero]
  simp only [horder]

end TapUtils

end NbteBridge
