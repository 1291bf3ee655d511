import NbteBridge.Foundations.Packed

/-!
# The bech32 checksum

The checksum of the bech32 and bech32m address formats: a register of thirty bits, into which the
five-bit values of a string are shifted one at a time.  A string is valid when the register ends at
a fixed constant.

A step is linear in exclusive or, so a run over six last values is the run over six zeros with the
values themselves laid over it (`foldl_polymodStep`).  Hence a string whose last six values are
`checksum` ends at the constant it was made for (`polymod_checksum`).
-/

namespace Bech32

open Packed

/-- The coefficients of the generator polynomial. -/
def generator : List ℕ := [0x3b6a57b2, 0x26508e6d, 0x1ea119fa, 0x3d4233dd, 0x2a1462b3]

/-- One step of the register: the top five bits choose the coefficients laid over the rest. -/
def polymodStep (chk value : ℕ) : ℕ :=
  generator.zipIdx.foldl
    (fun acc g => if (chk >>> 25).testBit g.2 then acc ^^^ g.1 else acc)
    (((chk &&& 0x1ffffff) <<< 5) ^^^ value)

def polymod (values : List ℕ) : ℕ := values.foldl polymodStep 1

/-- The human-readable part as values: the high bits of its characters, a zero, the low bits. -/
def hrpExpand (hrp : List UInt8) : List ℕ :=
  hrp.map (fun c => c.toNat >>> 5) ++ [0] ++ hrp.map (fun c => c.toNat &&& 31)

/-- The character of each value. -/
def charset : List UInt8 := ascii "qpzry9x8gf2tvdw0s3jn54khce6mua7l"

/-- The value of a lower-case character. -/
def charValue (c : UInt8) : Option ℕ := charset.idxOf? c

def valueChar (v : ℕ) : UInt8 := charset.getD v 0

/-- What the checksum of the first format ends at, and that of the second. -/
def bech32Const : ℕ := 1

def bech32mConst : ℕ := 0x2bc830a3

/-- The last `k` base-32 digits of `n`, most significant first. -/
def digits : ℕ → ℕ → List ℕ
  | 0, _ => []
  | k + 1, n => digits k (n >>> 5) ++ [n &&& 31]

/-- The six values that make the register end at `const`. -/
def checksum (const : ℕ) (hrp : List UInt8) (data : List ℕ) : List ℕ :=
  digits 6 (polymod (hrpExpand hrp ++ data ++ List.replicate 6 0) ^^^ const)

/-- The string that carries `data` under `hrp`. -/
def encode (const : ℕ) (hrp : List UInt8) (data : List ℕ) : List UInt8 :=
  hrp ++ ascii "1" ++ (data ++ checksum const hrp data).map valueChar

/-! ## One step -/

/-- `g` where the bit is set. -/
private def pick (b : Bool) (g : ℕ) : ℕ := bif b then g else 0

private lemma pick_xor (a b : Bool) (g : ℕ) : pick (a ^^ b) g = pick a g ^^^ pick b g := by
  cases a <;> cases b <;> simp [pick]

private lemma pick_lt {g n : ℕ} (b : Bool) (h : g < 2 ^ n) : pick b g < 2 ^ n := by
  cases b
  · exact Nat.two_pow_pos n
  · exact h

private lemma ite_xor (b : Bool) (a g : ℕ) :
    (if b = true then a ^^^ g else a) = a ^^^ pick b g := by
  cases b <;> simp [pick]

/-- The step as one exclusive or. -/
private lemma polymodStep_eq (chk value : ℕ) :
    polymodStep chk value = ((chk &&& 0x1ffffff) <<< 5) ^^^ value ^^^
      pick (chk.testBit 25) 0x3b6a57b2 ^^^ pick (chk.testBit 26) 0x26508e6d ^^^
      pick (chk.testBit 27) 0x1ea119fa ^^^ pick (chk.testBit 28) 0x3d4233dd ^^^
      pick (chk.testBit 29) 0x2a1462b3 := by
  simp only [polymodStep, generator, List.zipIdx_cons, List.zipIdx_nil, List.foldl_cons,
    List.foldl_nil, Nat.testBit_shiftRight, Nat.reduceAdd, ite_xor]

/-- The value is laid over the step. -/
lemma polymodStep_value (chk value : ℕ) :
    polymodStep chk value = polymodStep chk 0 ^^^ value := by
  rw [polymodStep_eq, polymodStep_eq, Nat.xor_zero]
  ac_rfl

lemma polymodStep_xor (a b : ℕ) :
    polymodStep (a ^^^ b) 0 = polymodStep a 0 ^^^ polymodStep b 0 := by
  simp only [polymodStep_eq, Nat.testBit_xor, pick_xor, Nat.xor_zero,
    Nat.and_xor_distrib_right, Nat.shiftLeft_xor_distrib]
  ac_rfl

lemma polymodStep_lt (chk : ℕ) {value : ℕ} (h : value < 2 ^ 30) :
    polymodStep chk value < 2 ^ 30 := by
  have hlow : (chk &&& 0x1ffffff) <<< 5 < 2 ^ 30 := by
    have hand : chk &&& 0x1ffffff ≤ 0x1ffffff := Nat.and_le_right
    rw [Nat.shiftLeft_eq]
    omega
  rw [polymodStep_eq]
  refine Nat.xor_lt_two_pow (Nat.xor_lt_two_pow (Nat.xor_lt_two_pow (Nat.xor_lt_two_pow
    (Nat.xor_lt_two_pow (Nat.xor_lt_two_pow hlow h) ?_) ?_) ?_) ?_) ?_
  all_goals exact pick_lt _ (by norm_num)

/-- A register whose top bits are clear only moves up. -/
lemma polymodStep_of_lt {chk : ℕ} (h : chk < 2 ^ 25) : polymodStep chk 0 = chk <<< 5 := by
  have hbit : ∀ i, 25 ≤ i → chk.testBit i = false := fun i hi =>
    Nat.testBit_lt_two_pow (h.trans_le (Nat.pow_le_pow_right (by norm_num) hi))
  have hmask : chk &&& 0x1ffffff = chk := by
    have hand := Nat.and_two_pow_sub_one_eq_mod chk 25
    norm_num at hand
    rw [hand]
    exact Nat.mod_eq_of_lt h
  rw [polymodStep_eq, hmask, hbit 25 (by omega), hbit 26 (by omega), hbit 27 (by omega),
    hbit 28 (by omega), hbit 29 (by omega)]
  simp [pick]

/-! ## Runs of the register -/

lemma foldl_polymodStep_lt {chk : ℕ} {values : List ℕ} (hchk : chk < 2 ^ 30)
    (hvalues : ∀ v ∈ values, v < 2 ^ 30) : values.foldl polymodStep chk < 2 ^ 30 := by
  induction values generalizing chk with
  | nil => exact hchk
  | cons v values ih =>
      exact ih (polymodStep_lt chk (hvalues v (by simp))) fun w hw =>
        hvalues w (by simp [hw])

/-- The number with the given base-32 digits. -/
def pack (values : List ℕ) : ℕ := values.foldl (fun acc v => (acc <<< 5) ^^^ v) 0

lemma pack_append (values : List ℕ) (v : ℕ) : pack (values ++ [v]) = (pack values <<< 5) ^^^ v := by
  simp [pack]

lemma pack_lt {values : List ℕ} (h : ∀ v ∈ values, v < 32) :
    pack values < 2 ^ (5 * values.length) := by
  induction values using List.reverseRecOn with
  | nil => simp [pack]
  | append_singleton values v ih =>
      have hpack := ih fun w hw => h w (by simp [hw])
      have hv : v < 2 ^ 5 := h v (by simp)
      rw [pack_append, List.length_append, List.length_singleton, mul_add, mul_one]
      apply Nat.xor_lt_two_pow
      · rw [Nat.shiftLeft_eq, pow_add]
        exact Nat.mul_lt_mul_of_pos_right hpack (by norm_num)
      · exact hv.trans_le (Nat.pow_le_pow_right (by norm_num) (by omega))

/-- **Linearity over the last values.**  Up to six values shifted in at the end lie over the run
with zeros in their place. -/
lemma foldl_polymodStep {chk : ℕ} {values : List ℕ} (hlen : values.length ≤ 6)
    (h : ∀ v ∈ values, v < 32) :
    values.foldl polymodStep chk =
      (List.replicate values.length 0).foldl polymodStep chk ^^^ pack values := by
  induction values using List.reverseRecOn with
  | nil => simp [pack]
  | append_singleton values v ih =>
      rw [List.length_append, List.length_singleton] at hlen ⊢
      have hvalues : ∀ w ∈ values, w < 32 := fun w hw => h w (by simp [hw])
      have hpack : pack values < 2 ^ 25 :=
        (pack_lt hvalues).trans_le (Nat.pow_le_pow_right (by norm_num) (by omega))
      rw [List.foldl_append, List.foldl_cons, List.foldl_nil, ih (by omega) hvalues,
        List.replicate_succ', List.foldl_append, List.foldl_cons, List.foldl_nil,
        polymodStep_value, polymodStep_xor, polymodStep_of_lt hpack, pack_append, Nat.xor_assoc]

/-! ## The checksum -/

@[simp] lemma length_digits (k n : ℕ) : (digits k n).length = k := by
  induction k generalizing n with
  | zero => simp [digits]
  | succ k ih => simp [digits, ih]

lemma digits_lt {k n v : ℕ} (h : v ∈ digits k n) : v < 32 := by
  induction k generalizing n with
  | zero => simp [digits] at h
  | succ k ih =>
      rcases List.mem_append.1 h with h | h
      · exact ih h
      · rw [List.mem_singleton.1 h]
        exact Nat.lt_succ_of_le Nat.and_le_right

lemma pack_digits {k n : ℕ} (h : n < 2 ^ (5 * k)) : pack (digits k n) = n := by
  induction k generalizing n with
  | zero =>
      simp only [mul_zero, pow_zero, Nat.lt_one_iff] at h
      simp [pack, digits, h]
  | succ k ih =>
      have hhigh : n >>> 5 < 2 ^ (5 * k) := by
        rw [Nat.shiftRight_eq_div_pow]
        apply Nat.div_lt_of_lt_mul
        rw [← pow_add, show 5 + 5 * k = 5 * (k + 1) by ring]
        exact h
      rw [digits, pack_append, ih hhigh]
      apply Nat.eq_of_testBit_eq
      intro i
      rw [Nat.testBit_xor, Nat.testBit_shiftLeft, Nat.testBit_shiftRight, Nat.testBit_and,
        show (31 : ℕ) = 2 ^ 5 - 1 by norm_num, Nat.testBit_two_pow_sub_one]
      by_cases hi : 5 ≤ i
      · simp [hi, Nat.not_lt.2 hi]
      · simp [hi, Nat.lt_of_not_le hi]

@[simp] lemma length_checksum (const : ℕ) (hrp : List UInt8) (data : List ℕ) :
    (checksum const hrp data).length = 6 := length_digits _ _

lemma checksum_lt {const v : ℕ} {hrp : List UInt8} {data : List ℕ}
    (h : v ∈ checksum const hrp data) : v < 32 := digits_lt h

/-- A run of the register followed by six zeros fits thirty bits, whatever came before. -/
lemma polymod_zeros_lt (values : List ℕ) : polymod (values ++ List.replicate 6 0) < 2 ^ 30 := by
  rw [polymod, List.foldl_append, List.replicate_succ, List.foldl_cons]
  apply foldl_polymodStep_lt (polymodStep_lt _ (by norm_num))
  intro v hv
  rw [List.eq_of_mem_replicate hv]
  norm_num

/-- **The checksum fits.**  The register of a string with its checksum ends at the constant. -/
theorem polymod_checksum {const : ℕ} (hconst : const < 2 ^ 30) (hrp : List UInt8)
    (data : List ℕ) :
    polymod (hrpExpand hrp ++ data ++ checksum const hrp data) = const := by
  have hzeros := polymod_zeros_lt (hrpExpand hrp ++ data)
  have hpack : pack (checksum const hrp data) =
      polymod (hrpExpand hrp ++ data ++ List.replicate 6 0) ^^^ const :=
    pack_digits (Nat.xor_lt_two_pow hzeros hconst)
  rw [polymod, List.foldl_append, foldl_polymodStep (by simp) fun v hv => checksum_lt hv, hpack,
    length_checksum, ← List.foldl_append]
  change polymod _ ^^^ (polymod _ ^^^ const) = const
  rw [← Nat.xor_assoc, Nat.xor_self, Nat.zero_xor]

/-! ## Burst errors -/

/-- **No difference vanishes.**  The low digits of the coefficients are independent, so a step takes
no register but zero to zero. -/
lemma eq_zero_of_polymodStep {chk : ℕ} (hchk : chk < 2 ^ 30) (h : polymodStep chk 0 = 0) :
    chk = 0 := by
  rw [polymodStep_eq, Nat.xor_zero] at h
  have hindependent : ∀ b₀ b₁ b₂ b₃ b₄ : Bool,
      (pick b₀ 0x3b6a57b2 ^^^ pick b₁ 0x26508e6d ^^^ pick b₂ 0x1ea119fa ^^^ pick b₃ 0x3d4233dd ^^^
        pick b₄ 0x2a1462b3) % 32 = 0 →
      b₀ = false ∧ b₁ = false ∧ b₂ = false ∧ b₃ = false ∧ b₄ = false := by
    decide
  have hsplit : (chk &&& 0x1ffffff) <<< 5 =
      pick (chk.testBit 25) 0x3b6a57b2 ^^^ pick (chk.testBit 26) 0x26508e6d ^^^
      pick (chk.testBit 27) 0x1ea119fa ^^^ pick (chk.testBit 28) 0x3d4233dd ^^^
      pick (chk.testBit 29) 0x2a1462b3 := by
    rw [← Nat.xor_eq_zero_iff]
    simpa only [Nat.xor_assoc] using h
  have hmod : ((chk &&& 0x1ffffff) <<< 5) % 32 = 0 := by
    rw [Nat.shiftLeft_eq]
    exact Nat.mul_mod_left _ _
  obtain ⟨h₀, h₁, h₂, h₃, h₄⟩ := hindependent _ _ _ _ _ (hsplit ▸ hmod)
  -- the top bits are clear, and the rest is only moved up
  have hlow : chk &&& 0x1ffffff = 0 := by
    rw [h₀, h₁, h₂, h₃, h₄, Nat.shiftLeft_eq] at hsplit
    simpa [pick] using hsplit
  apply Nat.eq_of_testBit_eq
  intro i
  rw [Nat.zero_testBit]
  by_cases hi : i < 25
  · rw [show (0x1ffffff : ℕ) = 2 ^ 25 - 1 by norm_num] at hlow
    have hbit := congrArg (fun n => n.testBit i) hlow
    simpa only [Nat.testBit_and, Nat.testBit_two_pow_sub_one, decide_eq_true hi, Bool.and_true,
      Nat.zero_testBit] using hbit
  · by_cases hi' : i < 30
    · have hcases : i = 25 ∨ i = 26 ∨ i = 27 ∨ i = 28 ∨ i = 29 := by omega
      rcases hcases with rfl | rfl | rfl | rfl | rfl
      · exact h₀
      · exact h₁
      · exact h₂
      · exact h₃
      · exact h₄
    · exact Nat.testBit_lt_two_pow (hchk.trans_le (Nat.pow_le_pow_right (by norm_num) (by omega)))

private lemma xor_xor_xor_cancel (a b c : ℕ) : (a ^^^ b) ^^^ (a ^^^ c) = b ^^^ c := by
  rw [Nat.xor_comm a b, Nat.xor_assoc, Nat.xor_xor_cancel_left]

/-- The same values keep registers apart. -/
lemma foldl_polymodStep_ne {chk chk' : ℕ} {values : List ℕ} (hxor : chk ^^^ chk' < 2 ^ 30)
    (hne : chk ≠ chk') : values.foldl polymodStep chk ≠ values.foldl polymodStep chk' := by
  induction values generalizing chk chk' with
  | nil => exact hne
  | cons v values ih =>
      have hdiff : polymodStep chk v ^^^ polymodStep chk' v = polymodStep (chk ^^^ chk') 0 := by
        rw [polymodStep_value chk v, polymodStep_value chk' v, polymodStep_xor, Nat.xor_comm _ v,
          Nat.xor_comm _ v, xor_xor_xor_cancel]
      apply ih
      · rw [hdiff]
        exact polymodStep_lt _ (by norm_num)
      · intro heq
        rw [heq, Nat.xor_self] at hdiff
        exact hne (Nat.xor_eq_zero_iff.1 (eq_zero_of_polymodStep hxor hdiff.symm))

lemma digits_pack {values : List ℕ} (h : ∀ v ∈ values, v < 32) :
    digits values.length (pack values) = values := by
  induction values using List.reverseRecOn with
  | nil => rfl
  | append_singleton values v ih =>
      have hv : v < 2 ^ 5 := h v (by simp)
      have hhigh : ((pack values <<< 5) ^^^ v) >>> 5 = pack values := by
        rw [Nat.shiftRight_xor_distrib, Nat.shiftLeft_shiftRight, Nat.shiftRight_eq_zero v 5 hv,
          Nat.xor_zero]
      have hlow : ((pack values <<< 5) ^^^ v) &&& 31 = v := by
        rw [show (31 : ℕ) = 2 ^ 5 - 1 by norm_num, Nat.and_two_pow_sub_one_eq_mod,
          Nat.xor_mod_two_pow, Nat.mod_eq_of_lt hv, Nat.shiftLeft_eq, Nat.mul_mod_left,
          Nat.zero_xor]
      rw [List.length_append, List.length_singleton, pack_append, digits, hhigh, hlow,
        ih fun w hw => h w (by simp [hw])]

/-- **No other six values fit.** -/
theorem eq_checksum_of_polymod (hrp : List UInt8) (data : List ℕ) {values : List ℕ}
    (hlen : values.length = 6) (hvalues : ∀ v ∈ values, v < 32) :
    values = checksum (polymod (hrpExpand hrp ++ data ++ values)) hrp data := by
  have hpack : pack values = polymod (hrpExpand hrp ++ data ++ List.replicate 6 0) ^^^
      polymod (hrpExpand hrp ++ data ++ values) := by
    simp only [polymod, List.foldl_append]
    rw [foldl_polymodStep hlen.le hvalues, hlen, Nat.xor_xor_cancel_left]
  rw [checksum, ← hpack, ← hlen, digits_pack hvalues]

/-- **Bursts are detected.**  Values that differ, and only within six places, lead the register to
different ends. -/
theorem foldl_polymodStep_ne_of_burst {chk i : ℕ} {values values' : List ℕ}
    (h : ∀ v ∈ values, v < 32) (h' : ∀ v ∈ values', v < 32)
    (hlen : values.length = values'.length)
    (hsame : ∀ j, j < i ∨ i + 6 ≤ j → values[j]? = values'[j]?) (hne : values ≠ values') :
    values.foldl polymodStep chk ≠ values'.foldl polymodStep chk := by
  have hbefore : values.take i = values'.take i := by
    apply List.ext_getElem?
    intro j
    rw [List.getElem?_take, List.getElem?_take]
    by_cases hj : j < i
    · rw [if_pos hj, if_pos hj, hsame j (.inl hj)]
    · rw [if_neg hj, if_neg hj]
  have hafter : (values.drop i).drop 6 = (values'.drop i).drop 6 := by
    apply List.ext_getElem?
    intro j
    rw [List.drop_drop, List.drop_drop, List.getElem?_drop, List.getElem?_drop,
      hsame _ (.inr (by omega))]
  have hsplit (vs : List ℕ) : vs = vs.take i ++ ((vs.drop i).take 6 ++ (vs.drop i).drop 6) := by
    rw [List.take_append_drop, List.take_append_drop]
  have hwindow : (values.drop i).take 6 ≠ (values'.drop i).take 6 := by
    intro heq
    apply hne
    rw [hsplit values, hsplit values', hbefore, heq, hafter]
  have hlength : ((values.drop i).take 6).length = ((values'.drop i).take 6).length := by
    rw [List.length_take, List.length_take, List.length_drop, List.length_drop, hlen]
  have hsmall : ∀ v ∈ (values.drop i).take 6, v < 32 := fun v hv =>
    h v (List.mem_of_mem_drop (List.mem_of_mem_take hv))
  have hsmall' : ∀ v ∈ (values'.drop i).take 6, v < 32 := fun v hv =>
    h' v (List.mem_of_mem_drop (List.mem_of_mem_take hv))
  have hbound (vs : List ℕ) : (vs.take 6).length ≤ 6 := List.length_take_le 6 vs
  have hpackLt (vs : List ℕ) (hvs : ∀ v ∈ vs.take 6, v < 32) : pack (vs.take 6) < 2 ^ 30 :=
    (pack_lt hvs).trans_le (Nat.pow_le_pow_right (by norm_num) (by have := hbound vs; omega))
  have hpack : pack ((values.drop i).take 6) ≠ pack ((values'.drop i).take 6) := by
    intro heq
    apply hwindow
    rw [← digits_pack hsmall, heq, hlength, digits_pack hsmall']
  rw [hsplit values, hsplit values', List.foldl_append, List.foldl_append, List.foldl_append,
    List.foldl_append, ← hbefore, ← hafter, foldl_polymodStep (hbound _) hsmall,
    foldl_polymodStep (hbound _) hsmall', hlength]
  apply foldl_polymodStep_ne
  · rw [xor_xor_xor_cancel]
    exact Nat.xor_lt_two_pow (hpackLt _ hsmall) (hpackLt _ hsmall')
  · intro heq
    exact hpack (Nat.xor_right_injective heq)

/-! ## Characters -/

lemma charValue_lt {c : UInt8} {v : ℕ} (h : charValue c = some v) : v < 32 := by
  obtain ⟨hlt, -⟩ := List.idxOf?_eq_some_iff.1 h
  exact hlt

end Bech32
