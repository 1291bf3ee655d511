import NbteBridge.Contracts.AddressReference

/-!
# Garbled addresses

An accepted address that is garbled within six places after its version is not accepted: the prefix
and the version are still there, so the same format is checked against, and the checksum register
tells the two apart.
-/

namespace NbteBridge

open Checked Packed

namespace BTCAddressValidator

/-- `b` is `a` but for what stands in six places from `i` on. -/
structure Garbled (i : ℕ) (a b : Bytes) : Prop where
  length : b.length = a.length
  same : ∀ j, j < i ∨ i + 6 ≤ j → b[j]? = a[j]?
  ne : b ≠ a

/-! ## Values -/

/-- The values of a text, character by character. -/
lemma getElem?_of_mapM_charValue {cs : Bytes} {values : List ℕ}
    (h : cs.mapM Bech32.charValue = some values) (j : ℕ) :
    values[j]? = cs[j]?.bind Bech32.charValue := by
  induction cs generalizing values j with
  | nil =>
      obtain rfl : [] = values := Option.some.inj h
      rfl
  | cons c cs ih =>
      rw [mapM_charValue_cons] at h
      obtain ⟨v, hv, h⟩ := Option.bind_eq_some_iff.1 h
      obtain ⟨values', hvalues, rfl⟩ := Option.map_eq_some_iff.1 h
      cases j with
      | zero => exact hv.symm
      | succ j => exact ih hvalues j

lemma length_of_mapM_charValue {cs : Bytes} {values : List ℕ}
    (h : cs.mapM Bech32.charValue = some values) : values.length = cs.length := by
  induction cs generalizing values with
  | nil =>
      obtain rfl : [] = values := Option.some.inj h
      rfl
  | cons c cs ih =>
      rw [mapM_charValue_cons] at h
      obtain ⟨v, hv, h⟩ := Option.bind_eq_some_iff.1 h
      obtain ⟨values', hvalues, rfl⟩ := Option.map_eq_some_iff.1 h
      rw [List.length_cons, List.length_cons, ih hvalues]

lemma lt_of_mapM_charValue {cs : Bytes} {values : List ℕ}
    (h : cs.mapM Bech32.charValue = some values) : ∀ v ∈ values, v < 32 := by
  intro v hv
  obtain ⟨j, hj⟩ := List.mem_iff_getElem?.1 hv
  rw [getElem?_of_mapM_charValue h] at hj
  obtain ⟨c, -, hc⟩ := Option.bind_eq_some_iff.1 hj
  exact Bech32.charValue_lt hc

/-- A value has one character. -/
lemma charValue_inj {c c' : UInt8} {v : ℕ} (h : Bech32.charValue c = some v)
    (h' : Bech32.charValue c' = some v) : c = c' := by
  obtain ⟨hlt, hc, -⟩ := List.idxOf?_eq_some_iff.1 h
  obtain ⟨hlt', hc', -⟩ := List.idxOf?_eq_some_iff.1 h'
  exact hc.symm.trans hc'

/-- Texts with the same values are the same. -/
lemma mapM_charValue_inj {cs cs' : Bytes} {values : List ℕ}
    (h : cs.mapM Bech32.charValue = some values) (h' : cs'.mapM Bech32.charValue = some values) :
    cs = cs' := by
  have hlength := (length_of_mapM_charValue h).symm.trans (length_of_mapM_charValue h')
  apply List.ext_getElem hlength
  intro j hj hj'
  have hvalue : j < values.length := by
    rw [length_of_mapM_charValue h]
    exact hj
  have hv := getElem?_of_mapM_charValue h j
  have hv' := getElem?_of_mapM_charValue h' j
  rw [List.getElem?_eq_getElem hvalue, List.getElem?_eq_getElem hj, Option.bind_some] at hv
  rw [List.getElem?_eq_getElem hvalue, List.getElem?_eq_getElem hj', Option.bind_some] at hv'
  exact charValue_inj hv.symm hv'.symm

/-! ## The reference check -/

/-- Of two texts that are garbled from each other after the version, at most one passes the
check. -/
lemma not_referenceValid_of_garbled {s : BTCAddressValidator} {c : UInt8} {cs cs' : Bytes} {i : ℕ}
    (hvalid : s.ReferenceValid (s.bech32Prefix ++ c :: cs)) (hgarbled : Garbled i cs cs') :
    ¬ s.ReferenceValid (s.bech32Prefix ++ c :: cs') := by
  intro hvalid'
  have hhead : ∃ hrp, s.bech32Prefix = hrp ++ ascii "1" := by
    obtain ⟨hrp, -, -, -, hhead, -⟩ := hvalid
    exact ⟨hrp, hhead⟩
  obtain ⟨hrp, hhead⟩ := hhead
  obtain ⟨v, values, -, -, hall, -, hregister⟩ := (referenceValid_append hhead _).1 hvalid
  obtain ⟨v', values', -, -, hall', -, hregister'⟩ := (referenceValid_append hhead _).1 hvalid'
  rw [mapM_charValue_cons] at hall hall'
  obtain ⟨w, hw, hrest⟩ := Option.bind_eq_some_iff.1 hall
  obtain ⟨w', hw', hrest'⟩ := Option.bind_eq_some_iff.1 hall'
  obtain ⟨_, hvalues, hcons⟩ := Option.map_eq_some_iff.1 hrest
  obtain ⟨_, hvalues', hcons'⟩ := Option.map_eq_some_iff.1 hrest'
  obtain ⟨rfl, rfl⟩ := List.cons.inj hcons
  obtain ⟨rfl, rfl⟩ := List.cons.inj hcons'
  obtain rfl : w = w' := Option.some.inj (hw.symm.trans hw')
  -- the version is the same, and so is the constant
  have hends := hregister.trans hregister'.symm
  rw [Bech32.polymod, Bech32.polymod, List.foldl_append, List.foldl_append, List.foldl_cons,
    List.foldl_cons] at hends
  refine Bech32.foldl_polymodStep_ne_of_burst (i := i) (lt_of_mapM_charValue hvalues)
    (lt_of_mapM_charValue hvalues') ?_ ?_ ?_ hends
  · rw [length_of_mapM_charValue hvalues, length_of_mapM_charValue hvalues', hgarbled.length]
  · intro j hj
    rw [getElem?_of_mapM_charValue hvalues, getElem?_of_mapM_charValue hvalues',
      hgarbled.same j hj]
  · rintro rfl
    exact hgarbled.ne (mapM_charValue_inj hvalues' hvalues)

lemma WellConfigured.isValidBtcAddress_eq {s : BTCAddressValidator} (hs : s.WellConfigured)
    (d : Bytes) :
    ∃ valid, s.isValidBtcAddress (s.bech32Prefix ++ d) = .ok valid ∧
      (valid = true ↔ s.ReferenceValid (s.bech32Prefix ++ d)) := by
  rw [isValidBtcAddress, if_pos (startsWith_eq_true.2 (List.prefix_append _ d))]
  exact hs.validateBech32Address_eq d

/-- What is left of a text that is garbled after its prefix and version. -/
lemma Garbled.split {head a b : Bytes} {c : UInt8} {cs : Bytes} {i : ℕ} (ha : a = head ++ c :: cs)
    (hi : head.length + 1 ≤ i) (h : Garbled i a b) :
    ∃ cs', b = head ++ c :: cs' ∧ Garbled (i - (head.length + 1)) cs cs' := by
  have hlength : (head ++ [c]).length = head.length + 1 := by simp
  have hassoc : a = (head ++ [c]) ++ cs := by simp [ha]
  have htake : b.take (head.length + 1) = head ++ [c] := by
    have heq : b.take (head.length + 1) = a.take (head.length + 1) := by
      apply List.ext_getElem?
      intro j
      rw [List.getElem?_take, List.getElem?_take]
      by_cases hj : j < head.length + 1
      · rw [if_pos hj, if_pos hj, h.same j (.inl (by omega))]
      · rw [if_neg hj, if_neg hj]
    rw [heq, hassoc, List.take_left' hlength]
  have hdrop : a.drop (head.length + 1) = cs := by
    rw [hassoc, List.drop_left' hlength]
  have hb : b = head ++ c :: b.drop (head.length + 1) := by
    conv_lhs => rw [← List.take_append_drop (head.length + 1) b, htake]
    simp
  refine ⟨b.drop (head.length + 1), hb, ?_, ?_, ?_⟩
  · rw [List.length_drop, h.length, ← hdrop, List.length_drop]
  · intro j hj
    rw [← hdrop, List.getElem?_drop, List.getElem?_drop]
    exact h.same _ (by omega)
  · intro heq
    apply h.ne
    rw [hb, ha, heq]

variable {R : Type} [AccessControlEnumerable R]

/-- **Garbled addresses are refused.**  In every configuration reached, an address under the prefix
that is accepted is refused when it is garbled within six places after its version. -/
theorem garbled_address_refused {tr : List (SetterCall R)} {s : BTCAddressValidator}
    (h : ValidatorRun tr s) {a b : Bytes} {i : ℕ} (ha : s.bech32Prefix <+: a)
    (hvalid : s.isValidBtcAddress a = .ok true) (hi : s.bech32Prefix.length + 1 ≤ i)
    (hgarbled : Garbled i a b) : s.isValidBtcAddress b = .ok false := by
  have hs := wellConfigured_of_run h
  obtain ⟨d, rfl⟩ := ha
  obtain ⟨valid, heval, hiff⟩ := hs.isValidBtcAddress_eq d
  obtain rfl := Except.ok.inj (heval.symm.trans hvalid)
  have hreference := hiff.1 rfl
  have hcons : ∃ c cs, d = c :: cs := by
    apply List.exists_cons_of_ne_nil
    rintro rfl
    obtain ⟨hrp, hhead, -⟩ := hs.separated
    obtain ⟨v, values, -, -, hvalues, -⟩ := (referenceValid_append hhead []).1 hreference
    exact absurd (length_of_mapM_charValue hvalues) (by simp)
  obtain ⟨c, cs, rfl⟩ := hcons
  obtain ⟨cs', rfl, hgarbled'⟩ := hgarbled.split rfl hi
  obtain ⟨valid', heval', hiff'⟩ := hs.isValidBtcAddress_eq (c :: cs')
  have hrefused := not_referenceValid_of_garbled hreference hgarbled'
  cases valid' with
  | true => exact absurd (hiff'.1 rfl) hrefused
  | false => exact heval'

/-- Two neighbouring characters of a mainnet address are swapped. -/
theorem garbled_address_refused_mainnet :
    ∃ s : BTCAddressValidator,
      s.isValidBtcAddress (ascii "bc1qw508d6qejxtdg4y5r3zarvary0c5xw7kv8f3t4") = .ok true ∧
      s.isValidBtcAddress (ascii "bc1qw508d6qejxtdg4y5r3zarvary0c5xw7kv83ft4") = .ok false := by
  have heval : (do
      let s ← construct (ascii "bc1") [ascii "1", ascii "3"]
      let valid ← s.isValidBtcAddress (ascii "bc1qw508d6qejxtdg4y5r3zarvary0c5xw7kv8f3t4")
      pure (s.bech32Prefix, valid)) = .ok (ascii "bc1", true) := by
    decide +kernel
  simp only [bind_eq_ok, pure_eq_ok] at heval
  obtain ⟨s, hs, valid, hvalid, hshape⟩ := heval
  obtain ⟨hhead, rfl⟩ := Prod.mk.inj hshape
  have hrun : ValidatorRun (R := RoleLists) [] s := .init ⟨_, _, hs⟩
  refine ⟨s, hvalid, garbled_address_refused hrun (i := 36) ?_ hvalid ?_ ⟨?_, ?_, ?_⟩⟩
  · rw [hhead]
    decide +kernel
  · rw [hhead]
    decide +kernel
  · decide +kernel
  · intro j hj
    have hbefore : ∀ j < 36, (ascii "bc1qw508d6qejxtdg4y5r3zarvary0c5xw7kv83ft4")[j]? =
        (ascii "bc1qw508d6qejxtdg4y5r3zarvary0c5xw7kv8f3t4")[j]? := by
      decide +kernel
    rcases hj with hj | hj
    · exact hbefore j hj
    · have hlength : (ascii "bc1qw508d6qejxtdg4y5r3zarvary0c5xw7kv83ft4").length = 42 ∧
          (ascii "bc1qw508d6qejxtdg4y5r3zarvary0c5xw7kv8f3t4").length = 42 := by
        decide +kernel
      rw [List.getElem?_eq_none (by omega), List.getElem?_eq_none (by omega)]
  · decide +kernel

end BTCAddressValidator

end NbteBridge
