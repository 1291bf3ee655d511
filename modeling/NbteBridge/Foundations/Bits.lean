import Mathlib

/-!
# Regrouping bits

Lists of `w`-bit numbers as bit strings, most significant bit first.  `toBits` lays the numbers
out, `ofBits` groups a bit string into numbers again and pads the last with zeros.  Two lists of
numbers of one width are equal when their bits are (`toBits_injective`), so a conversion between
widths is correct as soon as it keeps the bits.
-/

namespace Bits

/-- The low `w` bits of a number, most significant first. -/
def bitsBE : ℕ → ℕ → List Bool
  | 0, _ => []
  | w + 1, n => bitsBE w (n / 2) ++ [n.testBit 0]

/-- The bits of a list of `w`-bit numbers. -/
def toBits (w : ℕ) (ns : List ℕ) : List Bool := ns.flatMap (bitsBE w)

/-- The number with the given bits. -/
def numberBE (bits : List Bool) : ℕ := bits.foldl (fun n b => 2 * n + b.toNat) 0

/-- The first `count` numbers of `w` bits in a bit string, continued with zeros. -/
def ofBits (w : ℕ) : ℕ → List Bool → List ℕ
  | 0, _ => []
  | count + 1, bits =>
      numberBE ((bits ++ List.replicate w false).take w) :: ofBits w count (bits.drop w)

/-- The numbers of `w` bits that hold a bit string, the last padded with zeros. -/
def regroup (w : ℕ) (bits : List Bool) : List ℕ := ofBits w ((bits.length + (w - 1)) / w) bits

/-! ## One number -/

@[simp] lemma length_bitsBE (w n : ℕ) : (bitsBE w n).length = w := by
  induction w generalizing n with
  | zero => simp [bitsBE]
  | succ w ih => simp [bitsBE, ih]

/-- The high bits of a number, then the low ones. -/
lemma bitsBE_add (v w n : ℕ) : bitsBE (v + w) n = bitsBE v (n >>> w) ++ bitsBE w n := by
  induction w generalizing n with
  | zero => simp [bitsBE]
  | succ w ih =>
      rw [← add_assoc, bitsBE, ih, bitsBE, ← List.append_assoc, Nat.shiftRight_succ_inside]

/-- Bits above the width do not show. -/
lemma bitsBE_congr {w m n : ℕ} (h : ∀ i < w, m.testBit i = n.testBit i) :
    bitsBE w m = bitsBE w n := by
  induction w generalizing m n with
  | zero => simp [bitsBE]
  | succ w ih =>
      rw [bitsBE, bitsBE, h 0 (Nat.succ_pos w)]
      congr 1
      apply ih
      intro i hi
      rw [Nat.testBit_div_two, Nat.testBit_div_two]
      exact h (i + 1) (by omega)

lemma bitsBE_zero (w : ℕ) : bitsBE w 0 = List.replicate w false := by
  induction w with
  | zero => rfl
  | succ w ih => rw [bitsBE, Nat.zero_div, ih, Nat.zero_testBit, List.replicate_succ']

/-- Zeros laid out are zeros of the number. -/
lemma testBit_of_bitsBE_zero {w n : ℕ} (h : bitsBE w n = List.replicate w false) :
    ∀ i < w, n.testBit i = false := by
  induction w generalizing n with
  | zero =>
      intro i hi
      omega
  | succ w ih =>
      rw [bitsBE, List.replicate_succ'] at h
      obtain ⟨hhigh, hlow⟩ := List.append_inj' h rfl
      intro i hi
      cases i with
      | zero => exact (List.cons.inj hlow).1
      | succ i =>
          rw [← Nat.testBit_div_two]
          exact ih hhigh i (by omega)

lemma numberBE_append (bits : List Bool) (b : Bool) :
    numberBE (bits ++ [b]) = 2 * numberBE bits + b.toNat := by
  simp [numberBE]

lemma numberBE_bitsBE {w n : ℕ} (h : n < 2 ^ w) : numberBE (bitsBE w n) = n := by
  induction w generalizing n with
  | zero =>
      rw [pow_zero, Nat.lt_one_iff] at h
      simp [bitsBE, numberBE, h]
  | succ w ih =>
      have hhalf : n / 2 < 2 ^ w := by
        rw [pow_succ] at h
        omega
      rw [bitsBE, numberBE_append, ih hhalf, Nat.toNat_testBit]
      omega

lemma bitsBE_numberBE (bits : List Bool) : bitsBE bits.length (numberBE bits) = bits := by
  induction bits using List.reverseRecOn with
  | nil => simp [bitsBE]
  | append_singleton bits b ih =>
      have hhalf : (2 * numberBE bits + b.toNat) / 2 = numberBE bits := by
        have hb := Bool.toNat_le b
        omega
      have hlow : (2 * numberBE bits + b.toNat).testBit 0 = b := by
        cases b <;> simp [Bool.toNat]
      rw [List.length_append, List.length_singleton, bitsBE, numberBE_append, hhalf, hlow, ih]

lemma numberBE_lt (bits : List Bool) : numberBE bits < 2 ^ bits.length := by
  induction bits using List.reverseRecOn with
  | nil => simp [numberBE]
  | append_singleton bits b ih =>
      rw [numberBE_append, List.length_append, List.length_singleton, pow_succ]
      have hb := Bool.toNat_le b
      omega

/-! ## Lists of numbers -/

@[simp] lemma toBits_nil (w : ℕ) : toBits w [] = [] := by simp [toBits]

@[simp] lemma toBits_cons (w n : ℕ) (ns : List ℕ) :
    toBits w (n :: ns) = bitsBE w n ++ toBits w ns := by simp [toBits]

@[simp] lemma toBits_append (w : ℕ) (ms ns : List ℕ) :
    toBits w (ms ++ ns) = toBits w ms ++ toBits w ns := by simp [toBits]

@[simp] lemma length_toBits (w : ℕ) (ns : List ℕ) : (toBits w ns).length = w * ns.length := by
  induction ns with
  | nil => simp
  | cons n ns ih =>
      rw [toBits_cons, List.length_append, length_bitsBE, ih, List.length_cons]
      ring

/-- **Bits determine the numbers** of one width. -/
lemma toBits_injective {w : ℕ} {ms ns : List ℕ} (hw : 0 < w) (hms : ∀ m ∈ ms, m < 2 ^ w)
    (hns : ∀ n ∈ ns, n < 2 ^ w) (h : toBits w ms = toBits w ns) : ms = ns := by
  have hlen : ms.length = ns.length := by
    have h' := congrArg List.length h
    rw [length_toBits, length_toBits] at h'
    exact Nat.eq_of_mul_eq_mul_left hw h'
  induction ms generalizing ns with
  | nil => exact (List.length_eq_zero_iff.1 hlen.symm).symm
  | cons m ms ih =>
      cases ns with
      | nil => simp at hlen
      | cons n ns =>
          rw [toBits_cons, toBits_cons] at h
          obtain ⟨hhead, htail⟩ := List.append_inj h (by simp)
          have hmn : m = n := by
            rw [← numberBE_bitsBE (hms m (by simp)), hhead, numberBE_bitsBE (hns n (by simp))]
          rw [hmn, ih (fun m hm => hms m (by simp [hm])) (fun n hn => hns n (by simp [hn])) htail
            (by simpa using hlen)]

lemma ofBits_lt {w count n : ℕ} {bits : List Bool} (h : n ∈ ofBits w count bits) :
    n < 2 ^ w := by
  induction count generalizing bits with
  | zero => simp [ofBits] at h
  | succ count ih =>
      rcases List.mem_cons.1 h with rfl | h
      · have hlt := numberBE_lt ((bits ++ List.replicate w false).take w)
        rwa [List.length_take_of_le (by simp)] at hlt
      · exact ih h

/-- Grouping keeps the bits, up to zeros at the end. -/
lemma toBits_ofBits {w count : ℕ} {bits : List Bool} (h : bits.length ≤ w * count) :
    toBits w (ofBits w count bits) =
      bits ++ List.replicate (w * count - bits.length) false := by
  induction count generalizing bits with
  | zero =>
      rw [mul_zero, Nat.le_zero, List.length_eq_zero_iff] at h
      simp [ofBits, h]
  | succ count ih =>
      have hrest : (bits.drop w).length ≤ w * count := by
        rw [List.length_drop]
        rw [mul_add, mul_one] at h
        omega
      have hhead : bitsBE w (numberBE ((bits ++ List.replicate w false).take w)) =
          (bits ++ List.replicate w false).take w := by
        have hlen : ((bits ++ List.replicate w false).take w).length = w :=
          List.length_take_of_le (by simp)
        have hback := bitsBE_numberBE ((bits ++ List.replicate w false).take w)
        rwa [hlen] at hback
      rw [ofBits, toBits_cons, hhead, ih hrest, List.length_drop]
      by_cases hw : w ≤ bits.length
      · rw [List.take_append_of_le_length hw, ← List.append_assoc, List.take_append_drop]
        congr 2
        rw [mul_add, mul_one]
        omega
      · rw [List.drop_of_length_le (by omega), List.nil_append, List.take_append,
          List.take_of_length_le (by omega), List.take_replicate, List.append_assoc,
          ← List.replicate_add]
        congr 2
        rw [mul_add, mul_one]
        omega

lemma regroup_lt {w n : ℕ} {bits : List Bool} (h : n ∈ regroup w bits) : n < 2 ^ w := ofBits_lt h

/-- **Regrouping keeps the bits**, up to fewer than `w` zeros. -/
lemma toBits_regroup {w : ℕ} (hw : 0 < w) (bits : List Bool) :
    ∃ k < w, toBits w (regroup w bits) = bits ++ List.replicate k false := by
  have hdiv := Nat.div_add_mod (bits.length + (w - 1)) w
  have hmod := Nat.mod_lt (bits.length + (w - 1)) hw
  refine ⟨_, ?_, toBits_ofBits ?_⟩
  all_goals omega

end Bits
