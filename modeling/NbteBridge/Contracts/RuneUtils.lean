import NbteBridge.Contracts.Evm
import NbteBridge.Foundations.BijectiveBase
import NbteBridge.Foundations.Lists

/-!
# RuneUtils

The contract that turns rune numbers into names and back.  A name writes the number plus one in
bijective base 26: the one loop writes the last letter first into a buffer of 28 bytes, the other
reads the first letter first with checked arithmetic.
-/

namespace NbteBridge

open Checked Packed BijectiveBase

abbrev Uint128 := BitVec 128

namespace RuneUtils

/-- A `uint128`, or an overflow. -/
def uint128 (n : ℕ) : Result ℕ := do
  require (n < 2 ^ 128) "panic: arithmetic overflow"
  pure n

def alphabet : Bytes := ascii "ABCDEFGHIJKLMNOPQRSTUVWXYZ"

/-- The name of the largest number, which is treated separately. -/
def maxName : Bytes := ascii "BCGDENLQRQWDSLRUGSNLBTMFIJAV"

/-- The loop that writes the letters of `number`, which is one more than the rune's. -/
def writeLetters (buffer : Bytes) (length number : ℕ) : Result (Bytes × ℕ) :=
  if number = 0 then pure (buffer, length)
  else do
    let letter ← index alphabet ((number - 1) % 26)
    require (length < buffer.length) "panic: array index out of bounds"
    writeLetters (buffer.set length letter) (length + 1) ((number - 1) / 26)
termination_by number
decreasing_by
  have hle := Nat.div_le_self (number - 1) 26
  omega

def runeNumberToName (number : Uint128) : Result Bytes :=
  if number.toNat = 2 ^ 128 - 1 then pure maxName
  else do
    let number ← uint128 (number.toNat + 1)
    let (buffer, length) ← writeLetters (List.replicate 28 0) 0 number
    (List.range length).mapM fun i => index buffer (length - i - 1)

/-- The loop over the characters from the one at `i` on. -/
def readLetters : ℕ → ℕ → Bytes → Result ℕ
  | _, num, [] => pure num
  | i, num, c :: cs => do
      let num ← (if 0 < i then uint128 (num + 1) else pure num)
      let num ← uint128 (num * 26)
      require (0x41 ≤ c ∧ c ≤ 0x5a) "Invalid character in rune name"
      let num ← uint128 (num + (c - 0x41).toNat)
      readLetters (i + 1) num cs

def runeNameToNumber (s : Bytes) : Result Uint128 := do
  let num ← readLetters 0 0 s
  pure (BitVec.ofNat 128 num)

/-! ## Letters -/

/-- `A` to `Z`. -/
def IsLetter (c : UInt8) : Prop := 0x41 ≤ c ∧ c ≤ 0x5a

instance (c : UInt8) : Decidable (IsLetter c) := inferInstanceAs (Decidable (_ ∧ _))

def letter (d : ℕ) : UInt8 := UInt8.ofNat (0x41 + d)

def digit (c : UInt8) : ℕ := (c - 0x41).toNat

lemma index_alphabet : ∀ d < 26, index alphabet d = .ok (letter d) := by decide

lemma isLetter_letter : ∀ d < 26, IsLetter (letter d) ∧ digit (letter d) = d := by decide

lemma letter_digit {c : UInt8} (h : IsLetter c) : digit c < 26 ∧ letter (digit c) = c := by
  have hall : ∀ c : UInt8, IsLetter c → digit c < 26 ∧ letter (digit c) = c := by decide +kernel
  exact hall c h

/-- The number of a name, its first letter first, in bijective base 26. -/
def nameValue (s : Bytes) : ℕ := value 26 (s.reverse.map digit) - 1

/-! ## The loops -/

/-- Writing leaves the letters in the buffer, the last one first. -/
lemma writeLetters_eq (number : ℕ) : ∀ (buffer : Bytes) (length : ℕ),
    length + (digits 26 number).length ≤ buffer.length →
      ∃ rest, writeLetters buffer length number = .ok
        (buffer.take length ++ (digits 26 number).map letter ++ rest,
          length + (digits 26 number).length) := by
  induction number using digits.induct 26 with
  | case1 =>
      intro buffer length hlen
      refine ⟨buffer.drop length, ?_⟩
      rw [writeLetters, if_pos rfl, digits_zero, List.map_nil, List.append_nil,
        List.take_append_drop]
      rfl
  | case2 number hne ih =>
      intro buffer length hlen
      rw [digits_of_ne_zero hne, List.length_cons] at hlen
      obtain ⟨rest, hrest⟩ := ih (buffer.set length (letter ((number - 1) % 26))) (length + 1) (by
        rw [List.length_set]
        omega)
      have hlt : length < buffer.length := by omega
      have htake := Lists.take_succ_set hlt (letter ((number - 1) % 26))
      refine ⟨rest, ?_⟩
      rw [writeLetters, if_neg hne, index_alphabet _ (Nat.mod_lt _ (by omega)), ok_bind,
        require_of hlt, ok_bind, hrest, htake, digits_of_ne_zero hne]
      simp only [List.map_cons, List.length_cons, List.append_assoc, List.cons_append,
        List.nil_append]
      congr 2
      omega

/-- The second loop reverses what was written. -/
lemma mapM_index_reverse (as rest : Bytes) :
    (List.range as.length).mapM (fun i => index (as ++ rest) (as.length - i - 1)) =
      .ok as.reverse := by
  have hread : (List.range as.reverse.length).mapM
      (fun i => index (as ++ rest) (as.length - i - 1)) = .ok as.reverse := by
    refine mapM_range_eq_ok fun i c hc => ?_
    have hlt : i < as.length := by
      have hlt' := (List.getElem?_eq_some_iff.1 hc).1
      rwa [List.length_reverse] at hlt'
    rw [index, List.getElem?_append_left (by omega), Nat.sub_right_comm,
      ← List.getElem?_reverse hlt, hc]
    rfl
  rwa [List.length_reverse] at hread

lemma uint128_eq_ok {n m : ℕ} : uint128 n = .ok m ↔ n < 2 ^ 128 ∧ n = m := by
  simp only [uint128, bind_eq_ok, exists_unit, require_eq_ok, pure_eq_ok]

/-- One more letter. -/
lemma value_concat (as : Bytes) (c : UInt8) :
    value 26 ((as ++ [c]).reverse.map digit) = 26 * value 26 (as.reverse.map digit) +
      (digit c + 1) := by
  rw [List.reverse_append, List.map_append]
  rfl

/-- What reading the rest of a name gives, the intermediate results being no larger than the last. -/
lemma readLetters_eq_ok {as cs : Bytes} {n : ℕ} :
    readLetters as.length (value 26 (as.reverse.map digit) - 1) cs = .ok n ↔
      (∀ c ∈ cs, IsLetter c) ∧ n = nameValue (as ++ cs) ∧
        (cs ≠ [] → value 26 ((as ++ cs).reverse.map digit) ≤ 2 ^ 128) := by
  induction cs generalizing as with
  | nil =>
      rw [readLetters, pure_eq_ok]
      simp [nameValue, eq_comm]
  | cons c cs ih =>
      have hconcat := value_concat as c
      have happend : (as ++ [c]) ++ cs = as ++ c :: cs := by simp
      have hshift (m : ℕ) : (if 0 < as.length then uint128 (value 26 (as.reverse.map digit) - 1 + 1)
          else pure (value 26 (as.reverse.map digit) - 1)) = .ok m ↔
            value 26 (as.reverse.map digit) < 2 ^ 128 ∧ value 26 (as.reverse.map digit) = m := by
        by_cases has : as = []
        · rw [has, if_neg (by simp), pure_eq_ok]
          simp
        · have hpos : 0 < value 26 (as.reverse.map digit) := value_pos (by simpa using has)
          rw [if_pos (List.length_pos_iff.2 has), uint128_eq_ok, Nat.sub_add_cancel hpos]
      have ih := @ih (as ++ [c])
      rw [happend, List.length_append, hconcat] at ih
      simp only [readLetters, bind_eq_ok, exists_unit, require_eq_ok, uint128_eq_ok, hshift]
      constructor
      · rintro ⟨m, ⟨-, rfl⟩, m', ⟨-, rfl⟩, hletter, m'', ⟨hlt, rfl⟩, hread⟩
        rw [mul_comm] at hlt hread
        obtain ⟨hletters, hn, hle⟩ := ih.1 hread
        refine ⟨List.forall_mem_cons.2 ⟨hletter, hletters⟩, hn, fun _ => ?_⟩
        by_cases hcs : cs = []
        · rw [hcs, hconcat]
          exact hlt
        · exact hle hcs
      · rintro ⟨hletters, hn, hle⟩
        obtain ⟨hletter, hletters⟩ := List.forall_mem_cons.1 hletters
        -- what was read so far is no larger than the whole
        have hpart : value 26 ((as ++ [c]).reverse.map digit) ≤ 2 ^ 128 := by
          refine le_trans ?_ (hle (by simp))
          rw [← happend, @List.reverse_append _ (as ++ [c]), List.map_append]
          exact value_le_append (by omega) _ _
        rw [hconcat] at hpart
        have hlt : 26 * value 26 (as.reverse.map digit) + digit c < 2 ^ 128 := hpart
        refine ⟨_, ⟨by omega, rfl⟩, _, ⟨by omega, rfl⟩, hletter, _, ⟨?_, rfl⟩, ?_⟩
        · rw [mul_comm]
          exact hlt
        · rw [mul_comm]
          exact ih.2 ⟨hletters, hn, fun _ => hle (by simp)⟩

/-! ## The two functions -/

/-- The name of a number. -/
def name (n : ℕ) : Bytes := ((digits 26 (n + 1)).map letter).reverse

lemma digit_letters {ds : List ℕ} (h : ∀ d ∈ ds, d < 26) : (ds.map letter).map digit = ds := by
  rw [List.map_map]
  conv_rhs => rw [← List.map_id ds]
  exact List.map_congr_left fun d hd => (isLetter_letter d (h d hd)).2

lemma value_name (n : ℕ) : value 26 ((name n).reverse.map digit) = n + 1 := by
  rw [name, List.reverse_reverse, digit_letters (digits_lt (by omega) _), value_digits]

lemma isLetter_name (n : ℕ) : ∀ c ∈ name n, IsLetter c := by
  intro c hc
  obtain ⟨d, hd, rfl⟩ := List.mem_map.1 (List.mem_reverse.1 hc)
  exact (isLetter_letter d (digits_lt (by omega) _ d hd)).1

lemma length_name (n : Uint128) : 1 ≤ (name n.toNat).length ∧ (name n.toNat).length ≤ 28 := by
  have hlen : (name n.toNat).length = (digits 26 (n.toNat + 1)).length := by
    rw [name, List.length_reverse, List.length_map]
  rw [hlen]
  constructor
  · rw [digits_of_ne_zero (by omega), List.length_cons]
    omega
  · apply length_digits_le (by omega)
    have hlt := n.isLt
    have hpow : (2 : ℕ) ^ 128 + 1 ≤ 26 ^ 28 := by norm_num
    omega

/-- A name is the name of its number. -/
lemma name_nameValue {s : Bytes} (hne : s ≠ []) (hletters : ∀ c ∈ s, IsLetter c) :
    name (nameValue s) = s := by
  have hpos : 0 < value 26 (s.reverse.map digit) := value_pos (by simpa using hne)
  have hdigits : ∀ d ∈ s.reverse.map digit, d < 26 := by
    intro d hd
    obtain ⟨c, hc, rfl⟩ := List.mem_map.1 hd
    exact (letter_digit (hletters c (List.mem_reverse.1 hc))).1
  have hmap : (s.reverse.map digit).map letter = s.reverse := by
    rw [List.map_map]
    conv_rhs => rw [← List.map_id s.reverse]
    exact List.map_congr_left fun c hc => (letter_digit (hletters c (List.mem_reverse.1 hc))).2
  rw [name, nameValue, Nat.sub_add_cancel hpos, digits_value hdigits, hmap, List.reverse_reverse]

lemma maxName_eq : maxName = name (2 ^ 128 - 1) := by
  have hvalue : nameValue maxName = 2 ^ 128 - 1 := by decide +kernel
  have hletters : ∀ c ∈ maxName, IsLetter c := by decide +kernel
  rw [← hvalue, name_nameValue (by decide +kernel) hletters]

lemma runeNumberToName_eq (n : Uint128) : runeNumberToName n = .ok (name n.toNat) := by
  unfold runeNumberToName
  by_cases hmax : n.toNat = 2 ^ 128 - 1
  · rw [if_pos hmax, hmax, ← maxName_eq]
    rfl
  · have hlt := n.isLt
    have hlen := (length_name n).2
    rw [name, List.length_reverse] at hlen
    obtain ⟨rest, hwrite⟩ := writeLetters_eq (n.toNat + 1) (List.replicate 28 0) 0 (by
      rw [List.length_replicate, Nat.zero_add, ← List.length_map letter]
      exact hlen)
    rw [List.take_zero, List.nil_append, Nat.zero_add, ← List.length_map letter] at hwrite
    rw [if_neg hmax, uint128_eq_ok.2 ⟨by omega, rfl⟩, ok_bind, hwrite, ok_bind]
    exact mapM_index_reverse _ rest

lemma runeNameToNumber_eq_ok {s : Bytes} (hne : s ≠ []) {n : Uint128} :
    runeNameToNumber s = .ok n ↔ (∀ c ∈ s, IsLetter c) ∧ nameValue s = n.toNat := by
  have hpos : 0 < value 26 (s.reverse.map digit) := value_pos (by simpa using hne)
  have hread (m : ℕ) : readLetters 0 0 s = .ok m ↔ _ := @readLetters_eq_ok [] s m
  simp only [runeNameToNumber, bind_eq_ok, hread, pure_eq_ok, List.nil_append]
  constructor
  · rintro ⟨m, ⟨hletters, rfl, hle⟩, rfl⟩
    have hle := hle hne
    rw [BitVec.toNat_ofNat, Nat.mod_eq_of_lt]
    · exact ⟨hletters, rfl⟩
    · rw [nameValue]
      omega
  · rintro ⟨hletters, hn⟩
    have hlt := n.isLt
    refine ⟨_, ⟨hletters, rfl, fun _ => ?_⟩, ?_⟩
    · rw [nameValue] at hn
      omega
    · rw [hn]
      exact BitVec.eq_of_toNat_eq (by rw [BitVec.toNat_ofNat, Nat.mod_eq_of_lt hlt])

end RuneUtils

/-- **Rune names and numbers correspond one to one.**  Every number has a name of 1 to 28 letters
that reads back as the number; a text reads as a number exactly when it is of letters and its value
fits, and then it is the name of that number. -/
theorem rune_names_numbers :
    (∀ n : Uint128, ∃ s, RuneUtils.runeNumberToName n = .ok s ∧ 1 ≤ s.length ∧ s.length ≤ 28 ∧
      (∀ c ∈ s, RuneUtils.IsLetter c) ∧ RuneUtils.runeNameToNumber s = .ok n) ∧
    ∀ s : Bytes, s ≠ [] →
      ((∃ n, RuneUtils.runeNameToNumber s = .ok n) ↔
        (∀ c ∈ s, RuneUtils.IsLetter c) ∧ RuneUtils.nameValue s ≤ 2 ^ 128 - 1) ∧
      ∀ n, RuneUtils.runeNameToNumber s = .ok n → RuneUtils.runeNumberToName n = .ok s := by
  constructor
  · intro n
    obtain ⟨hlow, hhigh⟩ := RuneUtils.length_name n
    refine ⟨_, RuneUtils.runeNumberToName_eq n, hlow, hhigh, RuneUtils.isLetter_name _, ?_⟩
    apply (RuneUtils.runeNameToNumber_eq_ok (List.length_pos_iff.1 hlow)).2
    refine ⟨RuneUtils.isLetter_name _, ?_⟩
    rw [RuneUtils.nameValue, RuneUtils.value_name, Nat.add_sub_cancel]
  · intro s hne
    constructor
    · constructor
      · rintro ⟨n, hn⟩
        obtain ⟨hletters, hvalue⟩ := (RuneUtils.runeNameToNumber_eq_ok hne).1 hn
        have hlt := n.isLt
        exact ⟨hletters, by omega⟩
      · rintro ⟨hletters, hle⟩
        refine ⟨BitVec.ofNat 128 (RuneUtils.nameValue s), ?_⟩
        apply (RuneUtils.runeNameToNumber_eq_ok hne).2
        rw [BitVec.toNat_ofNat, Nat.mod_eq_of_lt (by omega)]
        exact ⟨hletters, rfl⟩
    · intro n hn
      obtain ⟨hletters, hvalue⟩ := (RuneUtils.runeNameToNumber_eq_ok hne).1 hn
      rw [RuneUtils.runeNumberToName_eq, ← hvalue, RuneUtils.name_nameValue hne hletters]

theorem rune_names_numbers_example : RuneUtils.runeNumberToName 27 = .ok (ascii "AB") :=
  (rune_names_numbers.2 (ascii "AB") (by decide)).2 27 (by decide +kernel)

end NbteBridge
