import NbteBridge.Contracts.BTCAddressValidator
import NbteBridge.Contracts.ChecksumRegister
import NbteBridge.Contracts.Reference

/-!
# The validator against the reference check

The validator's shortcuts, each with what it computes: the word step is the step of the checksum
register (`isPolymodStep_polymodStep`), the start stored with a prefix is the register after its expansion
(`checksumStart_toNat`), the table is the alphabet (`index_alphabetMap`), and the loop over the
characters runs the register on (`mapCharacters_eq`).  `WellConfigured` holds after the constructor
and is kept by every setter, so in every configuration reached an address under the prefix is
accepted exactly when it passes the reference check, and the check never reads out of bounds.
-/

namespace NbteBridge

open Checked Packed

namespace BTCAddressValidator

/-! ## The register on words -/

/-- **The word step is the step of the register.** -/
lemma isPolymodStep_polymodStep : IsPolymodStep polymodStep := by
  -- a mask of one bit picks it
  have hbit : ∀ (b mask : Uint256) (i : ℕ), mask.toNat = 2 ^ i →
      (b &&& mask ≠ 0 ↔ b.toNat.testBit i = true) := by
    intro b mask i hmask
    rw [ne_eq, ← BitVec.toNat_inj, BitVec.toNat_and, hmask, Nat.and_two_pow]
    cases b.toNat.testBit i <;> simp
  intro pre
  simp only [polymodStep, Bech32.polymodStep, Bech32.generator, List.zipIdx_cons,
    List.zipIdx_nil, List.foldl_cons, List.foldl_nil, Nat.xor_zero]
  rw [toNat_overlay (hbit _ 0x10 4 (by decide)), toNat_overlay (hbit _ 0x08 3 (by decide)),
    toNat_overlay (hbit _ 0x04 2 (by decide)), toNat_overlay (hbit _ 0x02 1 (by decide)),
    toNat_overlay (hbit _ 0x01 0 (by decide)), toNat_low, BitVec.toNat_ushiftRight]
  rfl

/-- The start computed from a prefix is the register after its expansion. -/
lemma checksumStart_toNat (hrp : Bytes) :
    (checksumStart hrp).toNat = Bech32.polymod (Bech32.hrpExpand hrp) :=
  isPolymodStep_polymodStep.expand hrp

/-! ## The table -/

/-- The table, byte by byte. -/
lemma alphabetMap_eq : BECH32_ALPHABET_MAP = (List.range 256).map fun n =>
    (Bech32.charValue (UInt8.ofNat n)).elim 0xff UInt8.ofNat := by
  decide +kernel

/-- The table has the value of each lower-case character, and `0xff` for every other byte. -/
lemma index_alphabetMap (c : UInt8) :
    (Bech32.charValue c = none ∧ index BECH32_ALPHABET_MAP c.toNat = .ok 0xff) ∨
      ∃ v, v < 32 ∧ Bech32.charValue c = some v ∧
        index BECH32_ALPHABET_MAP c.toNat = .ok (UInt8.ofNat v) := by
  have htable : BECH32_ALPHABET_MAP[c.toNat]? =
      some ((Bech32.charValue c).elim 0xff UInt8.ofNat) := by
    rw [alphabetMap_eq, List.getElem?_map, List.getElem?_range c.toNat_lt, Option.map_some,
      UInt8.ofNat_toNat]
  cases hvalue : Bech32.charValue c with
  | none =>
      rw [hvalue] at htable
      exact .inl ⟨rfl, index_eq_ok.2 htable⟩
  | some v =>
      rw [hvalue] at htable
      exact .inr ⟨v, Bech32.charValue_lt hvalue, rfl, index_eq_ok.2 htable⟩

lemma mapM_charValue_cons (c : UInt8) (cs : Bytes) :
    (c :: cs).mapM Bech32.charValue =
      (Bech32.charValue c).bind fun v => (cs.mapM Bech32.charValue).map (v :: ·) := by
  rw [List.mapM_cons]
  cases Bech32.charValue c with
  | none => rfl
  | some v => cases cs.mapM Bech32.charValue <;> rfl

/-- What the loop over the characters computes. -/
lemma mapCharacters_eq (chk : Uint256) (cs : Bytes) :
    (cs.mapM Bech32.charValue = none ∧ mapCharacters chk cs = .ok none) ∨
      ∃ values chk', cs.mapM Bech32.charValue = some values ∧
        mapCharacters chk cs = .ok (some chk') ∧
        chk'.toNat = values.foldl Bech32.polymodStep chk.toNat := by
  induction cs generalizing chk with
  | nil => exact .inr ⟨[], chk, rfl, rfl, rfl⟩
  | cons c cs ih =>
      rcases index_alphabetMap c with ⟨hvalue, hmapped⟩ | ⟨v, hv, hvalue, hmapped⟩
      · left
        constructor
        · rw [mapM_charValue_cons, hvalue, Option.bind_none]
        · rw [mapCharacters, hmapped]
          rfl
      · have hsize : v < UInt8.size := hv.trans (by norm_num [UInt8.size])
        have hle : ¬ (0x1f : UInt8) < UInt8.ofNat v := by
          rw [UInt8.not_lt, UInt8.le_iff_toNat_le, UInt8.toNat_ofNat_of_lt' hsize]
          exact Nat.le_of_lt_succ hv
        have hrun : mapCharacters chk (c :: cs) =
            mapCharacters (polymodStep chk ^^^ Uint256.ofByte (UInt8.ofNat v)) cs := by
          rw [mapCharacters, hmapped, ok_bind, if_neg hle]
        rw [mapM_charValue_cons, hvalue, Option.bind_some, hrun]
        rcases ih (polymodStep chk ^^^ Uint256.ofByte (UInt8.ofNat v)) with
          ⟨hnone, hmap⟩ | ⟨values, chk', hsome, hmap, hchk⟩
        · left
          exact ⟨by rw [hnone]; rfl, hmap⟩
        · right
          refine ⟨v :: values, chk', by rw [hsome]; rfl, hmap, ?_⟩
          rw [hchk, isPolymodStep_polymodStep.xor, UInt8.toNat_ofNat_of_lt' hsize, List.foldl_cons]

/-! ## Configurations -/

/-- What every setter keeps. -/
structure WellConfigured (s : BTCAddressValidator) : Prop where
  /-- The minimum length leaves room for the version. -/
  room : s.bech32Prefix.length + 1 < s.bech32MinLength.toNat
  /-- The prefix ends in the separator, and the start is the register after it. -/
  separated : ∃ hrp, s.bech32Prefix = hrp ++ ascii "1" ∧
    s.precomputedBech32ChecksumStart.toNat = Bech32.polymod (Bech32.hrpExpand hrp)
  version : s.maxSegwitVersion.toNat ≤ 31

lemma doSetBech32Prefix_wellConfigured {s s' : BTCAddressValidator} {prefix_ : Bytes}
    (hversion : s.maxSegwitVersion.toNat ≤ 31) (h : s.doSetBech32Prefix prefix_ = .ok s') :
    s'.WellConfigured := by
  simp only [doSetBech32Prefix, bind_eq_ok, exists_unit, require_eq_ok, index_eq_ok,
    pure_eq_ok] at h
  obtain ⟨hroom, hpos, last, hlast, hone, rfl⟩ := h
  have hsplit : prefix_ = prefix_.take (prefix_.length - 1) ++ ascii "1" := by
    have hdrop : prefix_.drop (prefix_.length - 1) = [last] := by
      obtain ⟨hlt, hget⟩ := List.getElem?_eq_some_iff.1 hlast
      rw [List.drop_eq_getElem_cons hlt, hget, List.drop_of_length_le (by omega)]
    calc prefix_ = prefix_.take (prefix_.length - 1) ++ prefix_.drop (prefix_.length - 1) :=
          (List.take_append_drop _ _).symm
      _ = prefix_.take (prefix_.length - 1) ++ ascii "1" := by
          rw [hdrop, hone]
          rfl
  exact ⟨hroom, ⟨_, hsplit, checksumStart_toNat _⟩, hversion⟩

lemma construct_wellConfigured {s : BTCAddressValidator} {prefix_ : Bytes} {prefixes : List Bytes}
    (h : construct prefix_ prefixes = .ok s) : s.WellConfigured := by
  simp only [construct, bind_eq_ok, pure_eq_ok] at h
  obtain ⟨s₀, hset, rfl⟩ := h
  have h₀ := doSetBech32Prefix_wellConfigured (by decide) hset
  exact ⟨h₀.room, h₀.separated, h₀.version⟩

variable {R : Type} [AccessControlEnumerable R]

/-- **A setter keeps the configuration well formed.** -/
lemma WellConfigured.call {s s' : BTCAddressValidator} {ac : NBTEBridgeAccessControl R}
    {sender : Address} {c : BTCAddressValidatorCall} (hs : s.WellConfigured)
    (h : s.call ac sender c = .ok s') : s'.WellConfigured := by
  cases c with
  | setBech32Prefix prefix_ =>
      simp only [BTCAddressValidator.call, bind_eq_ok, exists_unit] at h
      exact doSetBech32Prefix_wellConfigured hs.version h.2
  | setNonBech32Prefixes prefixes =>
      simp only [BTCAddressValidator.call, bind_eq_ok, exists_unit, pure_eq_ok] at h
      obtain ⟨-, rfl⟩ := h
      exact ⟨hs.room, hs.separated, hs.version⟩
  | setBech32MinAndMaxLengths minLength maxLength =>
      simp only [BTCAddressValidator.call, setBech32MinAndMaxLengths, bind_eq_ok, exists_unit,
        require_eq_ok, pure_eq_ok] at h
      obtain ⟨-, -, hroom, rfl⟩ := h
      exact ⟨hroom, hs.separated, hs.version⟩
  | setNonBech32MinAndMaxLengths minLength maxLength =>
      simp only [BTCAddressValidator.call, setNonBech32MinAndMaxLengths, bind_eq_ok, exists_unit,
        require_eq_ok, pure_eq_ok] at h
      obtain ⟨-, -, rfl⟩ := h
      exact ⟨hs.room, hs.separated, hs.version⟩
  | setMaxSegwitVersion version =>
      simp only [BTCAddressValidator.call, setMaxSegwitVersion, bind_eq_ok, exists_unit,
        require_eq_ok, pure_eq_ok] at h
      obtain ⟨-, hversion, rfl⟩ := h
      exact ⟨hs.room, hs.separated, hversion⟩

/-- A setter called by someone, under the access control as it is then. -/
structure SetterCall (R : Type) where
  accessControl : NBTEBridgeAccessControl R
  sender : Address
  call : BTCAddressValidatorCall

/-- The runs of a validator from its deployment: the setter calls that succeed. -/
abbrev ValidatorRun : List (SetterCall R) → BTCAddressValidator → Prop :=
  Runs.Run (fun s => ∃ prefix_ prefixes, construct prefix_ prefixes = .ok s)
    fun s a s' => s.call a.accessControl a.sender a.call = .ok s'

lemma wellConfigured_of_run {tr : List (SetterCall R)} {s : BTCAddressValidator}
    (h : ValidatorRun tr s) : s.WellConfigured := by
  refine Runs.Run.stateInvariant ?_ ?_ h
  · rintro s ⟨prefix_, prefixes, hconstruct⟩
    exact construct_wellConfigured hconstruct
  · intro s a s' hs hcall
    exact hs.call hcall

/-! ## The reference check -/

/-- What an address under the prefix must be: within the lengths, its data values of the alphabet,
the first of them a supported version, and the checksum that of the version's format. -/
def ReferenceValid (s : BTCAddressValidator) (a : Bytes) : Prop :=
  ∃ hrp d v values, s.bech32Prefix = hrp ++ ascii "1" ∧ a = s.bech32Prefix ++ d ∧
    s.bech32MinLength.toNat ≤ a.length ∧ a.length ≤ s.bech32MaxLength.toNat ∧
    d.mapM Bech32.charValue = some (v :: values) ∧ v ≤ s.maxSegwitVersion.toNat ∧
    Bech32.polymod (Bech32.hrpExpand hrp ++ (v :: values)) =
      if v = 0 then Bech32.bech32Const else Bech32.bech32mConst

lemma startsWith_eq_true {string prefix_ : Bytes} :
    startsWith string prefix_ = true ↔ prefix_ <+: string := by
  have hzip : ∀ string : Bytes, prefix_.length ≤ string.length →
      ((string.zip prefix_).all (fun c => c.1 = c.2) = true ↔ prefix_ <+: string) := by
    induction prefix_ with
    | nil => simp
    | cons p prefix_ ih =>
        intro string hlen
        cases string with
        | nil => simp at hlen
        | cons c string =>
            rw [List.zip_cons_cons, List.all_cons, Bool.and_eq_true, decide_eq_true_eq,
              ih string (by simpa using hlen), List.cons_prefix_cons, eq_comm]
  unfold startsWith
  split
  · rename_i hlt
    simp only [Bool.false_eq_true, false_iff]
    intro hhead
    exact absurd hhead.length_le (by omega)
  · exact hzip string (by omega)

/-- The reference check of an address under the prefix, on its data part. -/
lemma referenceValid_append {s : BTCAddressValidator} {hrp : Bytes}
    (hhead : s.bech32Prefix = hrp ++ ascii "1") (d : Bytes) :
    s.ReferenceValid (s.bech32Prefix ++ d) ↔ ∃ v values,
      s.bech32MinLength.toNat ≤ (s.bech32Prefix ++ d).length ∧
      (s.bech32Prefix ++ d).length ≤ s.bech32MaxLength.toNat ∧
      d.mapM Bech32.charValue = some (v :: values) ∧ v ≤ s.maxSegwitVersion.toNat ∧
      Bech32.polymod (Bech32.hrpExpand hrp ++ (v :: values)) =
        if v = 0 then Bech32.bech32Const else Bech32.bech32mConst := by
  constructor
  · rintro ⟨hrp', d', v, values, hhead', hd, hrest⟩
    obtain rfl := List.append_cancel_left hd
    obtain rfl := List.append_cancel_right (hhead.symm.trans hhead')
    exact ⟨v, values, hrest⟩
  · rintro ⟨v, values, hrest⟩
    exact ⟨hrp, d, v, values, hhead, rfl, hrest⟩

/-- The constant a version is checked against. -/
lemma checksumConstant_toNat {version : UInt8} {v : ℕ} (hbyte : version.toNat = v) :
    (if 1 ≤ version then SEGWIT_V1_BECH32_CHECKSUM_CONSTANT
      else SEGWIT_V0_BECH32_CHECKSUM_CONSTANT).toNat =
      if v = 0 then Bech32.bech32Const else Bech32.bech32mConst := by
  have hone : 1 ≤ version ↔ ¬ v = 0 := by
    rw [UInt8.le_iff_toNat_le, hbyte, UInt8.toNat_one]
    omega
  by_cases hzero : v = 0
  · rw [if_pos hzero, if_neg fun h => hone.1 h hzero]
    decide
  · rw [if_neg hzero, if_pos (hone.2 hzero)]
    decide

/-- The check of an address under the prefix, on its data part. -/
lemma WellConfigured.validateBech32Address_eq {s : BTCAddressValidator} (hs : s.WellConfigured)
    (d : Bytes) :
    ∃ valid, s.validateBech32Address (s.bech32Prefix ++ d) = .ok valid ∧
      (valid = true ↔ s.ReferenceValid (s.bech32Prefix ++ d)) := by
  obtain ⟨hrp, hhead, hstart⟩ := hs.separated
  rw [referenceValid_append hhead]
  by_cases hlen : (s.bech32Prefix ++ d).length < s.bech32MinLength.toNat ∨
      s.bech32MaxLength.toNat < (s.bech32Prefix ++ d).length
  · refine ⟨false, by rw [validateBech32Address, if_pos hlen]; rfl, ?_⟩
    simp only [Bool.false_eq_true, false_iff]
    rintro ⟨v, values, hmin, hmax, -⟩
    omega
  have hroom := hs.room
  cases d with
  | nil =>
      rw [List.append_nil] at hlen
      omega
  | cons c cs =>
      have hindex : index (s.bech32Prefix ++ c :: cs) s.bech32Prefix.length = .ok c := by
        rw [index_eq_ok, List.getElem?_append_right le_rfl]
        simp
      have hdrop : (s.bech32Prefix ++ c :: cs).drop (s.bech32Prefix.length + 1) = cs := by
        rw [List.drop_append, List.drop_of_length_le (by omega)]
        simp
      rw [validateBech32Address, if_neg hlen]
      simp only [hindex, hdrop, ok_bind, mapM_charValue_cons]
      have hmaxVersion := hs.version
      rcases index_alphabetMap c with ⟨hvalue, hmapped⟩ | ⟨v, hv, hvalue, hmapped⟩
      · -- the first character is not of the alphabet: its entry is above every version
        have hversion : s.maxSegwitVersion.toNat < (0xff : UInt8).toNat :=
          hmaxVersion.trans_lt (by decide)
        refine ⟨false, by rw [hmapped, ok_bind, if_pos hversion]; rfl, ?_⟩
        simp [hvalue]
      have hsize : v < UInt8.size := hv.trans (by norm_num [UInt8.size])
      have hbyte : (UInt8.ofNat v).toNat = v := UInt8.toNat_ofNat_of_lt' hsize
      simp only [hmapped, ok_bind, hbyte, hvalue, Option.bind_some]
      by_cases hversion : s.maxSegwitVersion.toNat < v
      · refine ⟨false, by rw [if_pos hversion]; rfl, ?_⟩
        simp only [Bool.false_eq_true, false_iff]
        rintro ⟨v', values, -, -, hvalues, hle, -⟩
        obtain ⟨rest, -, hcons⟩ := Option.map_eq_some_iff.1 hvalues
        obtain ⟨rfl, -⟩ := List.cons.inj hcons
        omega
      simp only [if_neg hversion]
      rcases mapCharacters_eq
        (polymodStep s.precomputedBech32ChecksumStart ^^^ Uint256.ofByte (UInt8.ofNat v)) cs with
        ⟨hnone, hmap⟩ | ⟨values, chk, hsome, hmap, hchk⟩
      · refine ⟨false, by rw [hmap, ok_bind]; rfl, ?_⟩
        simp [hnone]
      refine ⟨_, by rw [hmap, ok_bind]; rfl, ?_⟩
      rw [isPolymodStep_polymodStep.xor, hstart, hbyte] at hchk
      have hpolymod : chk.toNat = Bech32.polymod (Bech32.hrpExpand hrp ++ (v :: values)) := by
        rw [hchk, Bech32.polymod, Bech32.polymod, List.foldl_append, List.foldl_cons]
      rw [decide_eq_true_eq, ← BitVec.toNat_inj, checksumConstant_toNat hbyte, hpolymod, hsome]
      constructor
      · intro hequal
        exact ⟨v, values, by omega, by omega, rfl, by omega, hequal⟩
      · rintro ⟨v', values', -, -, hvalues, -, hequal⟩
        obtain ⟨rfl, rfl⟩ := List.cons.inj (Option.some.inj hvalues)
        exact hequal

/-- **The validator is the reference check.** -/
theorem isValidBtcAddress_eq_reference {tr : List (SetterCall R)} {s : BTCAddressValidator}
    (h : ValidatorRun tr s) {a : Bytes} (ha : s.bech32Prefix <+: a) :
    ∃ valid, s.isValidBtcAddress a = .ok valid ∧ (valid = true ↔ s.ReferenceValid a) := by
  have hstarts := startsWith_eq_true.2 ha
  obtain ⟨d, rfl⟩ := ha
  rw [isValidBtcAddress, if_pos hstarts]
  exact (wellConfigured_of_run h).validateBech32Address_eq d

/-- Mainnet addresses, after the admin at 3 restricted them to version 0. -/
theorem isValidBtcAddress_eq_reference_mainnet :
    ∃ s : BTCAddressValidator, s.bech32Prefix = ascii "bc1" ∧ s.maxSegwitVersion = 0 ∧
      ∃ valid, s.isValidBtcAddress (ascii "bc1qw508d6qejxtdg4y5r3zarvary0c5xw7kv8f3t4") = .ok valid ∧
        (valid = true ↔
          s.ReferenceValid (ascii "bc1qw508d6qejxtdg4y5r3zarvary0c5xw7kv8f3t4")) := by
  let ac : NBTEBridgeAccessControl RoleLists := NBTEBridgeAccessControl.construct 3
  have heval : (do
      let s ← construct (ascii "bc1") [ascii "1", ascii "3"]
      let s ← s.call ac 3 (.setMaxSegwitVersion 0)
      pure (s.bech32Prefix, s.maxSegwitVersion)) = .ok (ascii "bc1", 0) := by
    decide +kernel
  simp only [bind_eq_ok, pure_eq_ok] at heval
  obtain ⟨s₀, hs₀, s, hs, hshape⟩ := heval
  obtain ⟨hhead, hversion⟩ := Prod.mk.inj hshape
  have hrun : ValidatorRun ([] ++ [⟨ac, 3, .setMaxSegwitVersion 0⟩]) s :=
    .step (.init ⟨_, _, hs₀⟩) hs
  refine ⟨s, hhead, hversion, isValidBtcAddress_eq_reference hrun ?_⟩
  rw [hhead]
  decide +kernel

end BTCAddressValidator

end NbteBridge
