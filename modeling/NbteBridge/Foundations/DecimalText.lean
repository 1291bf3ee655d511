import Mathlib

/-!
# Decimal numbers in writing

A decimal number that keeps its digits and its exponent is written in full where that is short and
with an exponent elsewhere, and is read back the same.  Digits and white space are those of ASCII.
-/

namespace Decimals

/-- A number as it is kept: zero has a sign, and trailing zeros count. -/
inductive Number
  | finite (negative : Bool) (coefficient : ℕ) (exponent : ℤ)
  | infinity (negative : Bool)
  | nan (negative signaling : Bool) (diagnostic : ℕ)
deriving DecidableEq, Repr

/-! ## Writing -/

def signText (negative : Bool) : List Char := if negative then ['-'] else []

def exponentText (e : ℤ) : List Char :=
  if e = 0 then [] else 'E' :: (if 0 ≤ e then '+' else '-') :: Nat.toDigits 10 e.natAbs

/-- Digits with a point after `dotplace` of them. -/
def mantissaText (digits : List Char) (dotplace : ℤ) : List Char :=
  if dotplace ≤ 0 then '0' :: '.' :: (List.replicate (-dotplace).toNat '0' ++ digits)
  else if digits.length ≤ dotplace then
    digits ++ List.replicate (dotplace - digits.length).toNat '0'
  else digits.take dotplace.toNat ++ '.' :: digits.drop dotplace.toNat

/-- The number of digits before the point. -/
def dotplace (exponent leftdigits : ℤ) : ℤ :=
  if exponent ≤ 0 ∧ -6 < leftdigits then leftdigits else 1

def unsignedText : Number → List Char
  | .finite _ coefficient exponent =>
      let digits := Nat.toDigits 10 coefficient
      let leftdigits := exponent + digits.length
      mantissaText digits (dotplace exponent leftdigits) ++
        exponentText (leftdigits - dotplace exponent leftdigits)
  | .infinity _ => ['I', 'n', 'f', 'i', 'n', 'i', 't', 'y']
  | .nan _ signaling diagnostic =>
      (if signaling then ['s', 'N', 'a', 'N'] else ['N', 'a', 'N']) ++
        if diagnostic = 0 then [] else Nat.toDigits 10 diagnostic

def Number.negative : Number → Bool
  | finite negative _ _ => negative
  | infinity negative => negative
  | nan negative _ _ => negative

def Number.text (d : Number) : List Char := signText d.negative ++ unsignedText d

/-! ## Reading -/

def readSign : List Char → Bool × List Char
  | '-' :: rest => (true, rest)
  | '+' :: rest => (false, rest)
  | rest => (false, rest)

def readExponent : List Char → Option ℤ
  | [] => some 0
  | c :: rest =>
      let (negative, digits) := readSign rest
      if (c = 'e' ∨ c = 'E') ∧ digits ≠ [] ∧ digits.all Char.isDigit then
        let e : ℤ := Nat.ofDigitChars 10 digits 0
        some (if negative then -e else e)
      else none

/-- The digits after a point, and what follows them. -/
def readFraction : List Char → List Char × List Char
  | '.' :: rest => (rest.takeWhile Char.isDigit, rest.dropWhile Char.isDigit)
  | rest => ([], rest)

def readFinite (negative : Bool) (text : List Char) : Option Number := do
  let int := text.takeWhile Char.isDigit
  let (frac, rest) := readFraction (text.dropWhile Char.isDigit)
  if int ++ frac = [] then none
  else
    let e ← readExponent rest
    pure (.finite negative (Nat.ofDigitChars 10 (int ++ frac) 0) (e - frac.length))

/-- The words for what is not finite, in small letters. -/
def readSpecial (negative : Bool) : List Char → Option Number
  | ['i', 'n', 'f'] => some (.infinity negative)
  | ['i', 'n', 'f', 'i', 'n', 'i', 't', 'y'] => some (.infinity negative)
  | 'n' :: 'a' :: 'n' :: digits =>
      if digits.all Char.isDigit then some (.nan negative false (Nat.ofDigitChars 10 digits 0))
      else none
  | 's' :: 'n' :: 'a' :: 'n' :: digits =>
      if digits.all Char.isDigit then some (.nan negative true (Nat.ofDigitChars 10 digits 0))
      else none
  | _ => none

/-- White space around the number and underscores are left out. -/
def strip (text : List Char) : List Char :=
  ((text.dropWhile Char.isWhitespace).rdropWhile Char.isWhitespace).filter (· ≠ '_')

def Number.read (text : List Char) : Option Number :=
  let (negative, rest) := readSign (strip text)
  readFinite negative rest <|> readSpecial negative (rest.map Char.toLower)

/-! ## Reading what was written -/

/-- A character that reading does not leave out. -/
def Kept (c : Char) : Prop := ¬ c.isWhitespace ∧ c ≠ '_'

lemma strip_of_kept {text : List Char} (h : ∀ c ∈ text, Kept c) : strip text = text := by
  have hleft : text.dropWhile Char.isWhitespace = text := by
    rw [List.dropWhile_eq_self_iff]
    intro hl
    exact (h _ (List.getElem_mem _)).1
  have hright : text.rdropWhile Char.isWhitespace = text := by
    rw [List.rdropWhile_eq_self_iff]
    intro hl
    exact (h _ (List.getLast_mem hl)).1
  rw [strip, hleft, hright, List.filter_eq_self]
  intro c hc
  exact decide_eq_true (h c hc).2

lemma kept_of_isAlphanum {c : Char} (h : c.isAlphanum) : Kept c := by
  constructor
  · intro hspace
    simp only [Char.isWhitespace, Bool.or_eq_true, decide_eq_true_eq] at hspace
    obtain ((rfl | rfl) | rfl) | rfl := hspace <;> exact absurd h (by decide)
  · rintro rfl
    exact absurd h (by decide)

lemma kept_of_isDigit {c : Char} (h : c.isDigit) : Kept c :=
  kept_of_isAlphanum (by rw [Char.isAlphanum, h, Bool.or_true])

lemma isDigit_of_mem_toDigits {n : ℕ} {c : Char} (h : c ∈ Nat.toDigits 10 n) : c.isDigit :=
  Nat.isDigit_of_mem_toDigits (by decide) (by decide) h

lemma readSign_signText (negative : Bool) {rest : List Char}
    (h : ∀ c ∈ rest.head?, c ≠ '-' ∧ c ≠ '+') : readSign (signText negative ++ rest) =
      (negative, rest) := by
  cases negative with
  | true => rfl
  | false =>
      rw [signText, if_neg (by decide), List.nil_append]
      cases rest with
      | nil => rfl
      | cons c rest =>
          obtain ⟨hminus, hplus⟩ := h c rfl
          rw [readSign]
          · exact fun _ heq => hminus (List.cons.inj heq).1
          · exact fun _ heq => hplus (List.cons.inj heq).1

lemma readExponent_exponentText (e : ℤ) : readExponent (exponentText e) = some e := by
  unfold exponentText
  split_ifs with hzero hsign
  · rw [readExponent, hzero]
  · have hdigits : (Nat.toDigits 10 e.natAbs).all Char.isDigit :=
      List.all_eq_true.2 fun c hc => isDigit_of_mem_toDigits hc
    have habs : (e.natAbs : ℤ) = e := by omega
    simp [readExponent, readSign, hdigits, Nat.toDigits_ne_nil, habs]
  · have hdigits : (Nat.toDigits 10 e.natAbs).all Char.isDigit :=
      List.all_eq_true.2 fun c hc => isDigit_of_mem_toDigits hc
    simp only [readExponent, readSign, hdigits, Nat.ofDigitChars_ten_toDigits]
    rw [if_pos ⟨by decide, Nat.toDigits_ne_nil, trivial⟩]
    rw [if_pos trivial]
    congr 1
    omega

/-- A fraction, with its point where there is one. -/
def fractionText (frac : List Char) : List Char := if frac = [] then [] else '.' :: frac

/-- Nothing that is written after digits begins with one. -/
lemma not_isDigit_of_mem_head? {frac : List Char} {e : ℤ} {c : Char}
    (h : c ∈ (fractionText frac ++ exponentText e).head?) : ¬ c.isDigit := by
  unfold fractionText exponentText at h
  split_ifs at h <;> simp_all <;> subst h <;> decide

lemma takeWhile_digits {digits rest : List Char} (hdigits : ∀ c ∈ digits, c.isDigit)
    (hrest : ∀ c ∈ rest.head?, ¬ c.isDigit) :
    (digits ++ rest).takeWhile Char.isDigit = digits ∧
      (digits ++ rest).dropWhile Char.isDigit = rest := by
  rw [List.takeWhile_append_of_pos hdigits, List.dropWhile_append_of_pos hdigits]
  cases rest with
  | nil => simp
  | cons c rest =>
      have hc := hrest c rfl
      simp [hc]

lemma readFraction_fractionText {frac : List Char} (hfrac : ∀ c ∈ frac, c.isDigit) (e : ℤ) :
    readFraction (fractionText frac ++ exponentText e) = (frac, exponentText e) := by
  have hexponent : ∀ c ∈ (exponentText e).head?, ¬ c.isDigit := by
    intro c hc
    exact @not_isDigit_of_mem_head? [] e c (by simpa [fractionText] using hc)
  unfold fractionText
  split_ifs with hnil
  · rw [hnil, List.nil_append]
    unfold exponentText
    split_ifs <;> rfl
  · obtain ⟨htake, hdrop⟩ := takeWhile_digits hfrac hexponent
    rw [List.cons_append, readFraction, htake, hdrop]

/-- Reading a number in its parts. -/
lemma readFinite_parts {int frac : List Char} (hne : int ≠ []) (hint : ∀ c ∈ int, c.isDigit)
    (hfrac : ∀ c ∈ frac, c.isDigit) (negative : Bool) (e : ℤ) :
    readFinite negative (int ++ fractionText frac ++ exponentText e) =
      some (.finite negative (Nat.ofDigitChars 10 (int ++ frac) 0) (e - frac.length)) := by
  obtain ⟨htake, hdrop⟩ := takeWhile_digits hint fun c hc => not_isDigit_of_mem_head? hc
  rw [List.append_assoc, readFinite, htake, hdrop, readFraction_fractionText hfrac]
  simp [hne, readExponent_exponentText]

/-- **The parts of a mantissa.** -/
lemma mantissaText_parts {digits : List Char} (hne : digits ≠ [])
    (hdigits : ∀ c ∈ digits, c.isDigit) {dotplace : ℤ} (hdot : dotplace ≤ digits.length) :
    ∃ int frac, mantissaText digits dotplace = int ++ fractionText frac ∧ int ≠ [] ∧
      (∀ c ∈ int, c.isDigit) ∧ (∀ c ∈ frac, c.isDigit) ∧
      Nat.ofDigitChars 10 (int ++ frac) 0 = Nat.ofDigitChars 10 digits 0 ∧
      (frac.length : ℤ) = digits.length - dotplace := by
  unfold mantissaText
  split_ifs with hzero hlength
  · have hfrac : List.replicate (-dotplace).toNat '0' ++ digits ≠ [] := by simp [hne]
    refine ⟨['0'], List.replicate (-dotplace).toNat '0' ++ digits, ?_, by simp, by simp, ?_, ?_, ?_⟩
    · rw [fractionText, if_neg hfrac]
      rfl
    · intro c hc
      rcases List.mem_append.1 hc with hc | hc
      · rw [List.eq_of_mem_replicate hc]
        decide
      · exact hdigits c hc
    · simp [Nat.ofDigitChars_append, Nat.ofDigitChars_cons]
    · simp only [List.length_append, List.length_replicate]
      omega
  · obtain rfl : dotplace = digits.length := by omega
    refine ⟨digits, [], by simp [fractionText], hne, hdigits, by simp, by simp, by simp⟩
  · have hlt : dotplace.toNat < digits.length := by omega
    have hdrop : digits.drop dotplace.toNat ≠ [] := by
      rw [Ne, List.drop_eq_nil_iff]
      omega
    refine ⟨digits.take dotplace.toNat, digits.drop dotplace.toNat, ?_, ?_, ?_, ?_, ?_, ?_⟩
    · rw [fractionText, if_neg hdrop]
    · rw [Ne, List.take_eq_nil_iff]
      rintro (h | h)
      · omega
      · exact hne h
    · exact fun c hc => hdigits c (List.mem_of_mem_take hc)
    · exact fun c hc => hdigits c (List.mem_of_mem_drop hc)
    · rw [List.take_append_drop]
    · rw [List.length_drop]
      omega

lemma dotplace_le (exponent : ℤ) {length : ℕ} (h : 0 < length) :
    dotplace exponent (exponent + length) ≤ length := by
  unfold dotplace
  split_ifs <;> omega

/-- **The parts of a finite number.** -/
lemma unsignedText_parts (negative : Bool) (coefficient : ℕ) (exponent : ℤ) :
    ∃ int frac e, unsignedText (.finite negative coefficient exponent) =
        int ++ fractionText frac ++ exponentText e ∧ int ≠ [] ∧
      (∀ c ∈ int, c.isDigit) ∧ (∀ c ∈ frac, c.isDigit) ∧
      Nat.ofDigitChars 10 (int ++ frac) 0 = coefficient ∧ e - frac.length = exponent := by
  have hne : Nat.toDigits 10 coefficient ≠ [] := Nat.toDigits_ne_nil
  have hdot := dotplace_le exponent (List.length_pos_of_ne_nil hne)
  obtain ⟨int, frac, hmantissa, hint, hintDigits, hfracDigits, hvalue, hlength⟩ :=
    mantissaText_parts hne (fun c hc => isDigit_of_mem_toDigits hc) hdot
  rw [Nat.ofDigitChars_ten_toDigits] at hvalue
  refine ⟨int, frac, exponent + (Nat.toDigits 10 coefficient).length -
    dotplace exponent (exponent + (Nat.toDigits 10 coefficient).length), ?_, hint, hintDigits,
    hfracDigits, hvalue, ?_⟩
  · show mantissaText _ _ ++ exponentText _ = _
    rw [hmantissa]
  · omega

lemma kept_of_mem_fractionText {frac : List Char} (h : ∀ c ∈ frac, c.isDigit) {c : Char}
    (hc : c ∈ fractionText frac) : Kept c := by
  unfold fractionText at hc
  split_ifs at hc
  · exact absurd hc List.not_mem_nil
  · rcases List.mem_cons.1 hc with rfl | hc
    · exact ⟨by decide, by decide⟩
    · exact kept_of_isDigit (h c hc)

lemma kept_of_mem_exponentText {e : ℤ} {c : Char} (hc : c ∈ exponentText e) : Kept c := by
  unfold exponentText at hc
  split_ifs at hc
  · exact absurd hc List.not_mem_nil
  all_goals
    rcases List.mem_cons.1 hc with rfl | hc
    · exact ⟨by decide, by decide⟩
    · rcases List.mem_cons.1 hc with rfl | hc
      · exact ⟨by decide, by decide⟩
      · exact kept_of_isDigit (isDigit_of_mem_toDigits hc)

/-- Nothing that is written is left out. -/
lemma kept_of_mem_text {d : Number} {c : Char} (h : c ∈ d.text) : Kept c := by
  rcases List.mem_append.1 h with h | h
  · unfold signText at h
    split_ifs at h
    · rw [List.mem_singleton.1 h]
      exact ⟨by decide, by decide⟩
    · exact absurd h List.not_mem_nil
  · cases d with
    | finite negative coefficient exponent =>
        obtain ⟨int, frac, e, htext, -, hint, hfrac, -, -⟩ :=
          unsignedText_parts negative coefficient exponent
        rw [htext] at h
        rcases List.mem_append.1 h with h | h
        · rcases List.mem_append.1 h with h | h
          · exact kept_of_isDigit (hint c h)
          · exact kept_of_mem_fractionText hfrac h
        · exact kept_of_mem_exponentText h
    | infinity negative =>
        have hall : ['I', 'n', 'f', 'i', 'n', 'i', 't', 'y'].all Char.isAlphanum := by decide
        exact kept_of_isAlphanum (List.all_eq_true.1 hall c h)
    | nan negative signaling diagnostic =>
        have hall : ∀ signaling : Bool, (if signaling then ['s', 'N', 'a', 'N']
            else ['N', 'a', 'N']).all Char.isAlphanum := by decide
        rcases List.mem_append.1 h with h | h
        · exact kept_of_isAlphanum (List.all_eq_true.1 (hall signaling) c h)
        · split_ifs at h
          · exact absurd h List.not_mem_nil
          · exact kept_of_isDigit (isDigit_of_mem_toDigits h)

/-- What is written after the sign is not a sign. -/
lemma head?_unsignedText (d : Number) : ∀ c ∈ (unsignedText d).head?, c ≠ '-' ∧ c ≠ '+' := by
  intro c hc
  cases d with
  | finite negative coefficient exponent =>
      obtain ⟨int, frac, e, htext, hne, hint, -, -, -⟩ :=
        unsignedText_parts negative coefficient exponent
      obtain ⟨c', int, rfl⟩ := List.exists_cons_of_ne_nil hne
      rw [htext] at hc
      obtain rfl := Option.some.inj hc
      have hdigit := hint c' List.mem_cons_self
      constructor <;> rintro rfl <;> exact absurd hdigit (by decide)
  | infinity negative =>
      obtain rfl : 'I' = c := Option.some.inj hc
      exact ⟨by decide, by decide⟩
  | nan negative signaling diagnostic =>
      cases signaling with
      | true =>
          obtain rfl : 's' = c := Option.some.inj hc
          exact ⟨by decide, by decide⟩
      | false =>
          obtain rfl : 'N' = c := Option.some.inj hc
          exact ⟨by decide, by decide⟩

lemma toLower_of_isDigit {c : Char} (h : c.isDigit) : c.toLower = c := by
  rw [Char.toLower, dif_neg]
  intro hupper
  simp only [Char.isDigit, Bool.and_eq_true, decide_eq_true_eq] at h
  exact absurd (UInt32.le_trans hupper.1 h.2) (by decide)

/-- The diagnostic digits of what is not a number. -/
lemma diagnostic_digits (diagnostic : ℕ) :
    ∃ digits : List Char, (if diagnostic = 0 then [] else Nat.toDigits 10 diagnostic) = digits ∧
      digits.map Char.toLower = digits ∧ digits.all Char.isDigit ∧
      Nat.ofDigitChars 10 digits 0 = diagnostic := by
  split_ifs with hzero
  · exact ⟨[], rfl, rfl, rfl, hzero.symm⟩
  · refine ⟨_, rfl, ?_, ?_, Nat.ofDigitChars_ten_toDigits⟩
    · refine (List.map_congr_left fun c hc => ?_).trans (List.map_id _)
      exact toLower_of_isDigit (isDigit_of_mem_toDigits hc)
    · exact List.all_eq_true.2 fun c hc => isDigit_of_mem_toDigits hc

/-- **A number that was written is read back.** -/
theorem Number.read_text (d : Number) : Number.read d.text = some d := by
  have hsign := readSign_signText d.negative (head?_unsignedText d)
  rw [Number.read, strip_of_kept fun c hc => kept_of_mem_text hc, Number.text, hsign]
  cases d with
  | finite negative coefficient exponent =>
      obtain ⟨int, frac, e, htext, hne, hint, hfrac, hvalue, hexponent⟩ :=
        unsignedText_parts negative coefficient exponent
      simp only [htext, readFinite_parts hne hint hfrac, hvalue, hexponent]
      rfl
  | infinity negative => rfl
  | nan negative signaling diagnostic =>
      obtain ⟨digits, hdigits, hlower, hall, hvalue⟩ := diagnostic_digits diagnostic
      cases signaling with
      | true =>
          have hspecial : readSpecial negative
              ('s' :: 'n' :: 'a' :: 'n' :: digits) = some (.nan negative true diagnostic) := by
            rw [readSpecial, if_pos hall, hvalue]
          rw [← hspecial, ← hlower, ← hdigits]
          rfl
      | false =>
          have hspecial : readSpecial negative
              ('n' :: 'a' :: 'n' :: digits) = some (.nan negative false diagnostic) := by
            rw [readSpecial, if_pos hall, hvalue]
          rw [← hspecial, ← hlower, ← hdigits]
          rfl

end Decimals
