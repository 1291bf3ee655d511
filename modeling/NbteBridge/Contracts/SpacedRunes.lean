import NbteBridge.Contracts.RuneUtils

/-!
# Spaced rune names

The part of `RuneUtils` that reads and prints names with spacers between their letters.  A spacer
is read as a dot or as the three bytes of a bullet, and printed as a dot.  Bit `i` of the spacers
stands for the one after letter `i`.

`SpacedName` is a text that is well formed, as a first letter and the letters after it with the
spacer before each.  The loop that reads accepts the bytes of these and nothing else
(`readSpaced_sound`, `readSpaced_tailBytes`), and what is printed is one of them (`printed`).
-/

namespace NbteBridge

open Checked Packed BijectiveBase

abbrev Uint32 := BitVec 32

namespace RuneUtils

/-! ## Reading -/

/-- What has been read of a text: `length` counts its letters. -/
structure SpacedRead where
  num : ℕ
  spacers : ℕ
  length : ℕ

/-- A spacer whose last byte is the one at `i` of `total`. -/
def addSpacer (total i : ℕ) (r : SpacedRead) : Result SpacedRead := do
  require (i ≠ 0 ∧ i ≠ total - 1) "Leading or trailing spacer"
  require (0 < r.length) "panic: arithmetic underflow"
  let flag := (1 <<< (r.length - 1)) % 2 ^ 32
  require (r.spacers &&& flag = 0) "Double spacer"
  pure { r with spacers := r.spacers ||| flag }

def addLetter (i : ℕ) (c : UInt8) (r : SpacedRead) : Result SpacedRead := do
  require (0x41 ≤ c ∧ c ≤ 0x5a) "Invalid character in rune name"
  let num ← (if 0 < i then uint128 (r.num + 1) else pure r.num)
  let num ← uint128 (num * 26)
  let num ← uint128 (num + (c - 0x41).toNat)
  require (r.length + 1 < 2 ^ 32) "panic: arithmetic overflow"
  pure { r with num := num, length := r.length + 1 }

/-- The loop over the bytes from the one at `i` on. -/
def readSpaced (total : ℕ) : ℕ → SpacedRead → Bytes → Result SpacedRead
  | _, r, [] => pure r
  | i, r, c :: cs =>
      if c = 0x2e then do
        let r ← addSpacer total i r
        readSpaced total (i + 1) r cs
      else if c = 0xe2 then do
        require (2 ≤ total) "panic: arithmetic underflow"
        require (i ≤ total - 2) "Invalid spacer character (length)"
        match cs with
        | c₁ :: c₂ :: cs =>
            if c₁ = 0x80 ∧ c₂ = 0xa2 then do
              let r ← addSpacer total (i + 2) r
              readSpaced total (i + 3) r cs
            else .error "Invalid spacer character"
        | [c₁] =>
            if c₁ = 0x80 then .error "panic: array index out of bounds"
            else .error "Invalid spacer character"
        -- a last byte has been refused for its place
        | [] => .error "panic: array index out of bounds"
      else do
        let r ← addLetter i c r
        readSpaced total (i + 1) r cs

def spacedRuneToNumberAndSpacers (s : Bytes) : Result (Uint128 × Uint32) := do
  let r ← readSpaced s.length 0 ⟨0, 0, 0⟩ s
  pure (BitVec.ofNat 128 r.num, BitVec.ofNat 32 r.spacers)

/-! ## Printing -/

/-- The loop over the letters from the one at `i` of `length` on. -/
def writeSpaced (length : ℕ) (spacers : Uint32) :
    ℕ → Bytes → ℕ → Bytes → Result (Bytes × ℕ)
  | _, spacedBuffer, spacedLength, [] => pure (spacedBuffer, spacedLength)
  | i, spacedBuffer, spacedLength, c :: cs => do
      require (spacedLength < spacedBuffer.length) "panic: array index out of bounds"
      let spacedBuffer := spacedBuffer.set spacedLength c
      let spacedLength := spacedLength + 1
      if i < length - 1 ∧ spacers.toNat &&& (1 <<< i) % 2 ^ 256 ≠ 0 then do
        require (spacedLength < spacedBuffer.length) "panic: array index out of bounds"
        writeSpaced length spacers (i + 1) (spacedBuffer.set spacedLength 0x2e) (spacedLength + 1)
          cs
      else writeSpaced length spacers (i + 1) spacedBuffer spacedLength cs

def numberAndSpacersToSpacedRune (number : Uint128) (spacers : Uint32) : Result Bytes := do
  let runeBuffer ← runeNumberToName number
  let length := runeBuffer.length
  let (spacedBuffer, spacedLength) ←
    writeSpaced length spacers 0 (List.replicate (length * 2) 0) 0 runeBuffer
  (List.range spacedLength).mapM fun i => index spacedBuffer i

/-! ## Well-formed texts -/

inductive Spacer
  | dot
  | bullet
  deriving DecidableEq

def Spacer.bytes : Spacer → Bytes
  | dot => [0x2e]
  | bullet => [0xe2, 0x80, 0xa2]

/-- The letters after the first, each with the spacer before it, if there is one. -/
abbrev SpacedLetters := List (Option Spacer × UInt8)

def tailBytes : SpacedLetters → Bytes
  | [] => []
  | (none, c) :: rest => c :: tailBytes rest
  | (some spacer, c) :: rest => spacer.bytes ++ c :: tailBytes rest

/-- The bit of the first spacer is the lowest. -/
def spacerBits : SpacedLetters → ℕ
  | [] => 0
  | (spacer, _) :: rest => spacer.isSome.toNat + 2 * spacerBits rest

/-- Letters with at most one spacer between two neighbours. -/
structure SpacedName where
  first : UInt8
  rest : SpacedLetters
  isLetter : ∀ c ∈ first :: rest.map Prod.snd, IsLetter c

namespace SpacedName

variable (w : SpacedName)

def letters : Bytes := w.first :: w.rest.map Prod.snd

def bytes : Bytes := w.first :: tailBytes w.rest

end SpacedName

/-- A text with a dot for each bullet in it. -/
def replaceBullets : Bytes → Bytes
  | c :: c₁ :: c₂ :: cs =>
      if c = 0xe2 ∧ c₁ = 0x80 ∧ c₂ = 0xa2 then 0x2e :: replaceBullets cs
      else c :: replaceBullets (c₁ :: c₂ :: cs)
  | cs => cs

/-! ## What one round reads -/

/-- What has been read of a text with these letters. -/
def readOf (as : Bytes) (spacers : ℕ) : SpacedRead := ⟨nameValue as, spacers, as.length⟩

/-- The value of the letters with these digits. -/
def lettersValue (as : Bytes) : ℕ := value 26 (as.reverse.map digit)

lemma lettersValue_concat (as : Bytes) (c : UInt8) :
    lettersValue (as ++ [c]) = 26 * lettersValue as + (digit c + 1) :=
  value_concat as c

lemma lettersValue_le_append (as bs : Bytes) : lettersValue as ≤ lettersValue (as ++ bs) := by
  rw [lettersValue, lettersValue, List.reverse_append, List.map_append]
  exact value_le_append (by omega) _ _

lemma lettersValue_pos {as : Bytes} (h : as ≠ []) : 0 < lettersValue as :=
  value_pos (by simpa using h)

/-- A number of 128 bits has at most 28 letters. -/
lemma length_le_of_lettersValue {as : Bytes} (h : lettersValue as ≤ 2 ^ 128) : as.length ≤ 28 := by
  rw [lettersValue] at h
  cases hdigits : as.reverse.map digit with
  | nil =>
      have hlen := congrArg List.length hdigits
      simp only [List.length_map, List.length_reverse, List.length_nil] at hlen
      omega
  | cons d ds =>
      have hlen := congrArg List.length hdigits
      simp only [List.length_map, List.length_reverse, List.length_cons] at hlen
      have hpow := (pow_length_le_value (k := 26) d ds).trans (hdigits ▸ h)
      have hlt : (26 : ℕ) ^ ds.length < 26 ^ 28 := hpow.trans_lt (by norm_num)
      have := (Nat.pow_lt_pow_iff_right (by omega)).1 hlt
      omega

lemma addLetter_eq_ok {as : Bytes} {i σ : ℕ} {c : UInt8} {r : SpacedRead} (hi : 0 < i ↔ as ≠ []) :
    addLetter i c (readOf as σ) = .ok r ↔
      IsLetter c ∧ lettersValue (as ++ [c]) ≤ 2 ^ 128 ∧ r = readOf (as ++ [c]) σ := by
  have hshift (m : ℕ) : (if 0 < i then uint128 (nameValue as + 1) else pure (nameValue as)) =
      .ok m ↔ lettersValue as < 2 ^ 128 ∧ lettersValue as = m := by
    by_cases has : as = []
    · rw [has, if_neg (by rw [hi, has]; simp), pure_eq_ok]
      simp [nameValue, lettersValue]
    · have hpos := lettersValue_pos has
      rw [if_pos (hi.2 has), uint128_eq_ok, nameValue, ← lettersValue, Nat.sub_add_cancel hpos]
  have hconcat := lettersValue_concat as c
  have hvalue : nameValue (as ++ [c]) = lettersValue as * 26 + digit c := by
    rw [nameValue, ← lettersValue, hconcat]
    omega
  unfold addLetter readOf
  dsimp +instances only
  simp only [bind_eq_ok, exists_unit, require_eq_ok, uint128_eq_ok, hshift,
    pure_eq_ok, hvalue, List.length_append, List.length_singleton]
  constructor
  · rintro ⟨hletter, m, ⟨-, rfl⟩, m', ⟨-, rfl⟩, m'', ⟨hlt, rfl⟩, -, rfl⟩
    refine ⟨hletter, ?_, rfl⟩
    have hdigit : lettersValue as * 26 + digit c < 2 ^ 128 := hlt
    omega
  · rintro ⟨hletter, hle, rfl⟩
    have hlen := length_le_of_lettersValue hle
    rw [List.length_append, List.length_singleton] at hlen
    have hdigit : lettersValue as * 26 + digit c < 2 ^ 128 := by omega
    refine ⟨hletter, _, ⟨by omega, rfl⟩, _, ⟨by omega, rfl⟩, _, ⟨hdigit, rfl⟩, ?_, rfl⟩
    calc as.length + 1 ≤ 28 := hlen
      _ < 2 ^ 32 := by norm_num

/-- The bit after the last letter tells whether a spacer has been read there. -/
lemma addSpacer_eq_ok {as : Bytes} {total i σ : ℕ} {r : SpacedRead} (has : as ≠ [])
    (hlen : as.length ≤ 28) (hσ : σ < 2 ^ as.length) :
    addSpacer total i (readOf as σ) = .ok r ↔
      i ≠ 0 ∧ i ≠ total - 1 ∧ σ < 2 ^ (as.length - 1) ∧
        r = readOf as (σ + 2 ^ (as.length - 1)) := by
  have hpos := List.length_pos_iff.2 has
  have hflag : (1 <<< (as.length - 1)) % 2 ^ 32 = 2 ^ (as.length - 1) := by
    rw [Nat.one_shiftLeft]
    exact Nat.mod_eq_of_lt (Nat.pow_lt_pow_right (by omega) (by omega))
  have hbit : σ &&& 2 ^ (as.length - 1) = 0 ↔ σ < 2 ^ (as.length - 1) := by
    rw [Nat.and_two_pow]
    constructor
    · intro h
      have hfalse : σ.testBit (as.length - 1) = false := by
        by_contra hne
        simp [Bool.not_eq_false] at hne
        simp [hne] at h
      refine Nat.lt_pow_two_of_testBit _ fun j hj => ?_
      rcases Nat.lt_or_ge j as.length with hlt | hge
      · obtain rfl : j = as.length - 1 := by omega
        exact hfalse
      · exact Nat.testBit_lt_two_pow (hσ.trans_le (Nat.pow_le_pow_right (by omega) hge))
    · intro h
      rw [Nat.testBit_lt_two_pow h]
      simp
  unfold addSpacer readOf
  dsimp +instances only
  simp only [bind_eq_ok, exists_unit, require_eq_ok, pure_eq_ok, hflag, hbit,
    and_assoc]
  refine and_congr_right fun _ => and_congr_right fun _ => ?_
  constructor
  · rintro ⟨-, hlow, rfl⟩
    exact ⟨hlow, by rw [Nat.or_two_pow_eq_add_of_lt hlow]⟩
  · rintro ⟨hlow, rfl⟩
    exact ⟨hpos, hlow, by rw [Nat.or_two_pow_eq_add_of_lt hlow]⟩

lemma not_isLetter_spacer (c : UInt8) (h : c = 0x2e ∨ c = 0xe2) : ¬ IsLetter c := by
  rcases h with rfl | rfl <;> decide

lemma readSpaced_letter {total i : ℕ} {r : SpacedRead} {c : UInt8} {cs : Bytes}
    (h : IsLetter c) :
    readSpaced total i r (c :: cs) =
      addLetter i c r >>= fun r => readSpaced total (i + 1) r cs := by
  rw [readSpaced.eq_def]
  dsimp only
  rw [if_neg fun hc => not_isLetter_spacer c (.inl hc) h,
    if_neg fun hc => not_isLetter_spacer c (.inr hc) h]

lemma readSpaced_spacer {total i : ℕ} {r : SpacedRead} (spacer : Spacer) {cs : Bytes}
    (htotal : i + (spacer.bytes ++ cs).length = total) :
    readSpaced total i r (spacer.bytes ++ cs) =
      addSpacer total (i + spacer.bytes.length - 1) r >>= fun r =>
        readSpaced total (i + spacer.bytes.length) r cs := by
  cases spacer with
  | dot =>
      show readSpaced total i r (0x2e :: cs) = _
      rw [readSpaced.eq_def]
      rfl
  | bullet =>
      have hlen : i + (cs.length + 3) = total := htotal
      show readSpaced total i r (0xe2 :: 0x80 :: 0xa2 :: cs) = _
      rw [readSpaced.eq_def]
      dsimp only
      rw [if_neg (by decide), if_pos rfl, require_of (by omega), ok_bind,
        require_of (by omega), ok_bind]
      rfl

/-- A text that can be read on begins with a letter or a spacer. -/
lemma head_of_readSpaced {total i : ℕ} {r r' : SpacedRead} {c : UInt8} {cs : Bytes}
    (h : readSpaced total i r (c :: cs) = .ok r') :
    IsLetter c ∨ ∃ spacer : Spacer, ∃ cs', c :: cs = spacer.bytes ++ cs' := by
  rw [readSpaced.eq_def] at h
  dsimp only at h
  by_cases hdot : c = 0x2e
  · exact .inr ⟨.dot, cs, by rw [hdot]; rfl⟩
  rw [if_neg hdot] at h
  by_cases hbullet : c = 0xe2
  · rw [if_pos hbullet] at h
    simp only [bind_eq_ok, exists_unit] at h
    obtain ⟨-, -, h⟩ := h
    split at h
    · rename_i c₁ c₂ cs'
      split at h
      · rename_i hbytes
        exact .inr ⟨.bullet, cs', by rw [hbullet, hbytes.1, hbytes.2]; rfl⟩
      · exact absurd h (by simp)
    · split at h
      · exact absurd h (by simp)
      · exact absurd h (by simp)
    · exact absurd h (by simp)
  · rw [if_neg hbullet] at h
    obtain ⟨r₁, hadd, -⟩ := bind_eq_ok.1 h
    simp only [addLetter, bind_eq_ok, exists_unit, require_eq_ok] at hadd
    exact .inl hadd.1

/-! ## The loop -/

/-- What the rest of a text adds to what has been read. -/
def readWith (as : Bytes) (σ : ℕ) (rest : SpacedLetters) : SpacedRead :=
  readOf (as ++ rest.map Prod.snd) (σ + 2 ^ (as.length - 1) * spacerBits rest)

lemma readWith_cons {as : Bytes} (has : as ≠ []) (σ : ℕ) (spacer : Option Spacer) (c : UInt8)
    (rest : SpacedLetters) :
    readWith as σ ((spacer, c) :: rest) =
      readWith (as ++ [c]) (σ + 2 ^ (as.length - 1) * spacer.isSome.toNat) rest := by
  have hpos := List.length_pos_iff.2 has
  have hpow : 2 ^ as.length = 2 ^ (as.length - 1) * 2 := by
    rw [← pow_succ, Nat.sub_add_cancel hpos]
  simp only [readWith, spacerBits, List.map_cons, List.append_assoc, List.cons_append,
    List.nil_append, List.length_append, List.length_singleton, Nat.add_sub_cancel, hpow]
  congr 1
  ring

/-- **What is well formed is read**, if its letters' value fits. -/
lemma readSpaced_tailBytes {rest : SpacedLetters} (hrest : ∀ p ∈ rest, IsLetter p.2) {as : Bytes}
    {total i σ : ℕ} (has : as ≠ []) (hi : 0 < i) (htotal : i + (tailBytes rest).length = total)
    (hσ : σ < 2 ^ (as.length - 1)) (hvalue : lettersValue (as ++ rest.map Prod.snd) ≤ 2 ^ 128) :
    readSpaced total i (readOf as σ) (tailBytes rest) = .ok (readWith as σ rest) := by
  induction rest generalizing as i σ with
  | nil => simp [tailBytes, readSpaced, readWith, spacerBits, pure, Except.pure]
  | cons p rest ih =>
      obtain ⟨spacer, c⟩ := p
      obtain ⟨hc, hletters⟩ := List.forall_mem_cons.1 hrest
      have hpos := List.length_pos_iff.2 has
      have happend : (as ++ [c]) ++ rest.map Prod.snd =
          as ++ ((spacer, c) :: rest).map Prod.snd := by
        simp
      have hhead : lettersValue (as ++ [c]) ≤ 2 ^ 128 := by
        refine (lettersValue_le_append (as ++ [c]) (rest.map Prod.snd)).trans ?_
        rw [happend]
        exact hvalue
      have hlen := length_le_of_lettersValue ((lettersValue_le_append as [c]).trans hhead)
      have hpow : 2 ^ as.length = 2 ^ (as.length - 1) * 2 := by
        rw [← pow_succ, Nat.sub_add_cancel hpos]
      rw [readWith_cons has]
      cases spacer with
      | none =>
          rw [tailBytes, readSpaced_letter hc,
            (addLetter_eq_ok (by simp [hi, has])).2 ⟨hc, hhead, rfl⟩, ok_bind]
          refine ih hletters (by simp) (by omega) ?_ ?_ ?_
          · simp only [tailBytes, List.length_cons] at htotal
            omega
          · simp only [List.length_append, List.length_singleton, Nat.add_sub_cancel]
            omega
          · rw [happend]
            exact hvalue
      | some spacer =>
          have hspacer : 0 < spacer.bytes.length := by cases spacer <;> decide
          simp only [tailBytes, List.length_append, List.length_cons] at htotal
          rw [tailBytes,
            readSpaced_spacer spacer (by simp only [List.length_append, List.length_cons]; omega),
            (addSpacer_eq_ok has hlen (by omega)).2 ⟨by omega, by omega, hσ, rfl⟩, ok_bind,
            readSpaced_letter hc,
            (addLetter_eq_ok (by simp [has]; omega)).2 ⟨hc, hhead, rfl⟩, ok_bind]
          have hbit : 2 ^ (as.length - 1) * (some spacer).isSome.toNat = 2 ^ (as.length - 1) := by
            simp
          rw [hbit]
          refine ih hletters (by simp) (by omega) (by omega) ?_ ?_
          · simp only [List.length_append, List.length_singleton, Nat.add_sub_cancel]
            omega
          · rw [happend]
            exact hvalue

/-- **Only that is read.** -/
lemma readSpaced_sound {cs as : Bytes} {total i σ : ℕ} {r : SpacedRead} (has : as ≠ []) (hi : 0 < i)
    (htotal : i + cs.length = total) (hσ : σ < 2 ^ (as.length - 1))
    (hvalue : lettersValue as ≤ 2 ^ 128)
    (h : readSpaced total i (readOf as σ) cs = .ok r) :
    ∃ rest, (∀ p ∈ rest, IsLetter p.2) ∧ cs = tailBytes rest ∧
      lettersValue (as ++ rest.map Prod.snd) ≤ 2 ^ 128 ∧ r = readWith as σ rest := by
  -- a spacer is read together with the letter after it
  induction hn : cs.length using Nat.strong_induction_on generalizing cs as i σ with
  | _ n ih =>
  subst hn
  have hpos := List.length_pos_iff.2 has
  have hpow : 2 ^ as.length = 2 ^ (as.length - 1) * 2 := by
    rw [← pow_succ, Nat.sub_add_cancel hpos]
  have hlen := length_le_of_lettersValue hvalue
  cases cs with
  | nil =>
      obtain rfl := pure_eq_ok.1 h
      exact ⟨[], by simp, rfl, by simpa using hvalue, by simp [readWith, spacerBits]⟩
  | cons c cs =>
      rcases head_of_readSpaced h with hc | ⟨spacer, cs', heq⟩
      · rw [readSpaced_letter hc, bind_eq_ok] at h
        obtain ⟨r₁, hadd, h⟩ := h
        obtain ⟨-, hle, rfl⟩ := (addLetter_eq_ok (by simp [hi, has])).1 hadd
        obtain ⟨rest, hrest, rfl, hall, rfl⟩ := ih cs.length (by simp) (by simp) (by omega)
          (by rw [List.length_cons] at htotal; omega)
          (by simp only [List.length_append, List.length_singleton, Nat.add_sub_cancel]; omega)
          hle h rfl
        refine ⟨(none, c) :: rest, List.forall_mem_cons.2 ⟨hc, hrest⟩, rfl, by simpa using hall, ?_⟩
        rw [readWith_cons has]
        simp
      · have hspacer : 0 < spacer.bytes.length := by cases spacer <;> decide
        rw [heq] at h htotal ih ⊢
        rw [readSpaced_spacer spacer htotal, bind_eq_ok] at h
        obtain ⟨r₁, hadd, h⟩ := h
        obtain ⟨-, hlast, -, rfl⟩ := (addSpacer_eq_ok has hlen (by omega)).1 hadd
        rw [List.length_append] at htotal
        cases cs' with
        | nil =>
            rw [List.length_nil] at htotal
            exact absurd (by omega) hlast
        | cons d cs' =>
            rcases head_of_readSpaced h with hd | ⟨spacer', cs'', heq'⟩
            · rw [readSpaced_letter hd, bind_eq_ok] at h
              obtain ⟨r₂, hadd₂, h⟩ := h
              obtain ⟨-, hle, rfl⟩ := (addLetter_eq_ok (by simp [has]; omega)).1 hadd₂
              rw [List.length_cons] at htotal
              obtain ⟨rest, hrest, rfl, hall, rfl⟩ := ih cs'.length
                (by simp only [List.length_append, List.length_cons]; omega) (by simp)
                (by omega) (by omega)
                (by simp only [List.length_append, List.length_singleton, Nat.add_sub_cancel]
                    omega) hle h rfl
              refine ⟨(some spacer, d) :: rest, List.forall_mem_cons.2 ⟨hd, hrest⟩, rfl,
                by simpa using hall, ?_⟩
              rw [readWith_cons has]
              simp
            -- a second spacer finds the bit set
            · rw [heq'] at h htotal
              rw [readSpaced_spacer spacer' (by omega), bind_eq_ok] at h
              obtain ⟨r₂, hadd₂, -⟩ := h
              have hlow := ((addSpacer_eq_ok has hlen (by omega)).1 hadd₂).2.2.1
              omega

/-! ## The whole text -/

/-- A text that can be read is well formed, and gives the number of its letters and the bits of its
spacers. -/
lemma spacedRuneToNumberAndSpacers_eq_ok {s : Bytes} (hne : s ≠ []) {n : Uint128} {σ : Uint32} :
    spacedRuneToNumberAndSpacers s = .ok (n, σ) ↔
      ∃ w : SpacedName, w.bytes = s ∧ lettersValue w.letters ≤ 2 ^ 128 ∧
        n = BitVec.ofNat 128 (nameValue w.letters) ∧ σ = BitVec.ofNat 32 (spacerBits w.rest) := by
  have hstart : (⟨0, 0, 0⟩ : SpacedRead) = readOf [] 0 := rfl
  have hend (c : UInt8) (rest : SpacedLetters) :
      readWith [c] 0 rest = readOf (c :: rest.map Prod.snd) (spacerBits rest) := by
    simp [readWith]
  simp only [spacedRuneToNumberAndSpacers, bind_eq_ok, pure_eq_ok, Prod.mk.injEq, hstart]
  constructor
  · rintro ⟨r, hread, rfl, rfl⟩
    obtain ⟨c, cs, rfl⟩ := List.exists_cons_of_ne_nil hne
    rcases head_of_readSpaced hread with hc | ⟨spacer, cs', heq⟩
    · rw [readSpaced_letter hc, bind_eq_ok] at hread
      obtain ⟨r₁, hadd, hread⟩ := hread
      obtain ⟨-, hle, rfl⟩ := (addLetter_eq_ok (by simp)).1 hadd
      obtain ⟨rest, hrest, rfl, hvalue, rfl⟩ := readSpaced_sound (by simp) (by omega)
        (by rw [List.length_cons]; omega) (by simp) hle hread
      refine ⟨⟨c, rest, List.forall_mem_cons.2 ⟨hc, ?_⟩⟩, rfl, hvalue, ?_, ?_⟩
      · intro d hd
        obtain ⟨p, hp, rfl⟩ := List.mem_map.1 hd
        exact hrest p hp
      · rw [List.nil_append, hend]
        rfl
      · rw [List.nil_append, hend]
        rfl
    · rw [heq, readSpaced_spacer spacer (by rw [Nat.zero_add]), bind_eq_ok] at hread
      obtain ⟨r₁, hadd, -⟩ := hread
      simp only [addSpacer, readOf, bind_eq_ok, exists_unit, require_eq_ok] at hadd
      exact absurd hadd.2.1 (by simp)
  · rintro ⟨w, rfl, hvalue, rfl, rfl⟩
    have hc := w.isLetter _ List.mem_cons_self
    have hrest (p : Option Spacer × UInt8) (hp : p ∈ w.rest) : IsLetter p.2 :=
      w.isLetter _ (List.mem_cons_of_mem _ (List.mem_map_of_mem hp))
    have hhead : lettersValue ([] ++ [w.first]) ≤ 2 ^ 128 :=
      (lettersValue_le_append [w.first] (w.rest.map Prod.snd)).trans hvalue
    refine ⟨readWith [w.first] 0 w.rest, ?_, ?_, ?_⟩
    · rw [SpacedName.bytes, readSpaced_letter hc,
        (addLetter_eq_ok (by simp)).2 ⟨hc, hhead, rfl⟩, ok_bind]
      refine readSpaced_tailBytes hrest (by simp) (by omega) ?_ (by simp) hvalue
      rw [List.length_cons]
      omega
    · rw [hend]
      rfl
    · rw [hend]
      rfl

/-! ## What is printed -/

/-- Letters with a dot before each whose bit is set, the lowest bit being the first's. -/
def ofSpacers : ℕ → Bytes → SpacedLetters
  | _, [] => []
  | σ, c :: cs => (if σ % 2 = 1 then some .dot else none, c) :: ofSpacers (σ / 2) cs

lemma letters_ofSpacers (σ : ℕ) (cs : Bytes) : (ofSpacers σ cs).map Prod.snd = cs := by
  induction cs generalizing σ with
  | nil => rfl
  | cons c cs ih => rw [ofSpacers, List.map_cons, ih]

lemma spacerBits_ofSpacers (σ : ℕ) (cs : Bytes) :
    spacerBits (ofSpacers σ cs) = σ % 2 ^ cs.length := by
  induction cs generalizing σ with
  | nil => simp [ofSpacers, spacerBits, Nat.mod_one]
  | cons c cs ih =>
      have hbit : (if σ % 2 = 1 then some Spacer.dot else none).isSome.toNat = σ % 2 := by
        rcases Nat.mod_two_eq_zero_or_one σ with h | h <;> simp [h]
      rw [ofSpacers, spacerBits, ih, hbit, List.length_cons, pow_succ', Nat.mod_mul]

/-- The same letters with dots for spacers. -/
def dotted (rest : SpacedLetters) : SpacedLetters :=
  rest.map fun p => (p.1.map fun _ => .dot, p.2)

lemma ofSpacers_spacerBits (rest : SpacedLetters) :
    ofSpacers (spacerBits rest) (rest.map Prod.snd) = dotted rest := by
  induction rest with
  | nil => rfl
  | cons p rest ih =>
      obtain ⟨spacer, c⟩ := p
      have hdiv : (spacer.isSome.toNat + 2 * spacerBits rest) / 2 = spacerBits rest := by
        cases spacer with
        | none => simp
        | some spacer =>
            rw [Option.isSome_some, Bool.toNat_true]
            omega
      rw [List.map_cons, ofSpacers, spacerBits, hdiv, ih]
      cases spacer <;> simp [dotted]

lemma spacerBits_lt (rest : SpacedLetters) : spacerBits rest < 2 ^ rest.length := by
  induction rest with
  | nil => simp [spacerBits]
  | cons p rest ih =>
      have hbit := Bool.toNat_le p.1.isSome
      rw [spacerBits, List.length_cons, pow_succ]
      omega

/-- The bit the loop tests. -/
lemma and_shift_ne_zero (σ : ℕ) {i : ℕ} (hi : i < 256) :
    σ &&& (1 <<< i) % 2 ^ 256 ≠ 0 ↔ σ / 2 ^ i % 2 = 1 := by
  rw [Nat.one_shiftLeft, Nat.mod_eq_of_lt (Nat.pow_lt_pow_right (by omega) hi), Nat.and_two_pow,
    Nat.testBit_eq_decide_div_mod_eq]
  by_cases h : σ / 2 ^ i % 2 = 1 <;> simp [h]

/-- Printing leaves the letters in the buffer with a dot after each whose bit is set, the last
excepted. -/
lemma writeSpaced_eq {length : ℕ} {spacers : Uint32} (hlength : length ≤ 28) {c : UInt8}
    {cs : Bytes} {i : ℕ} (hi : i + (c :: cs).length = length) {spacedBuffer : Bytes}
    {spacedLength : ℕ} (hroom : spacedLength + 2 * (c :: cs).length ≤ spacedBuffer.length) :
    ∃ rest, writeSpaced length spacers i spacedBuffer spacedLength (c :: cs) = .ok
      (spacedBuffer.take spacedLength ++
        (c :: tailBytes (ofSpacers (spacers.toNat / 2 ^ i) cs)) ++ rest,
        spacedLength + (c :: tailBytes (ofSpacers (spacers.toNat / 2 ^ i) cs)).length) := by
  induction cs generalizing c i spacedBuffer spacedLength with
  | nil =>
      simp only [List.length_cons, List.length_nil] at hi hroom
      have hlt : spacedLength < spacedBuffer.length := by omega
      refine ⟨(spacedBuffer.set spacedLength c).drop (spacedLength + 1), ?_⟩
      have hlast : ¬(i < length - 1 ∧ spacers.toNat &&& (1 <<< i) % 2 ^ 256 ≠ 0) := by omega
      rw [writeSpaced, require_of hlt, ok_bind]
      dsimp only
      rw [if_neg hlast, writeSpaced, ofSpacers, tailBytes, ← Lists.take_succ_set hlt c,
        List.take_append_drop]
      rfl
  | cons d cs ih =>
      simp only [List.length_cons] at hi hroom
      have hlt : spacedLength < spacedBuffer.length := by omega
      have hbit := @and_shift_ne_zero spacers.toNat i (by omega)
      have hnext : spacers.toNat / 2 ^ i / 2 = spacers.toNat / 2 ^ (i + 1) := by
        rw [Nat.div_div_eq_div_mul, pow_succ]
      have htake := Lists.take_succ_set hlt c
      rw [writeSpaced, require_of hlt, ok_bind, ofSpacers, hnext]
      dsimp only
      by_cases hset : spacers.toNat / 2 ^ i % 2 = 1
      · have hlt' : spacedLength + 1 < (spacedBuffer.set spacedLength c).length := by
          rw [List.length_set]
          omega
        obtain ⟨rest, hrest⟩ := @ih d (i + 1) (by rw [List.length_cons]; omega)
          ((spacedBuffer.set spacedLength c).set (spacedLength + 1) 0x2e) (spacedLength + 1 + 1)
          (by simp only [List.length_set, List.length_cons]; omega)
        refine ⟨rest, ?_⟩
        rw [if_pos ⟨by omega, hbit.2 hset⟩, require_of hlt', ok_bind, hrest,
          Lists.take_succ_set hlt' 0x2e, htake, if_pos hset]
        simp only [tailBytes, Spacer.bytes, List.append_assoc, List.cons_append, List.nil_append,
          List.length_cons]
        congr 2
        omega
      · obtain ⟨rest, hrest⟩ := @ih d (i + 1) (by rw [List.length_cons]; omega)
          (spacedBuffer.set spacedLength c) (spacedLength + 1)
          (by simp only [List.length_set, List.length_cons]; omega)
        refine ⟨rest, ?_⟩
        rw [if_neg fun h => hset (hbit.1 h.2), hrest, htake, if_neg hset]
        simp only [tailBytes, List.append_assoc, List.cons_append, List.nil_append,
          List.length_cons]
        congr 2
        omega

/-- The second loop copies what was written. -/
lemma mapM_index (as rest : Bytes) :
    (List.range as.length).mapM (fun i => index (as ++ rest) i) = .ok as := by
  refine mapM_range_eq_ok fun i c hc => ?_
  rw [index, List.getElem?_append_left (List.getElem?_eq_some_iff.1 hc).1, hc]
  rfl

lemma name_ne_nil (n : Uint128) : name n.toNat ≠ [] :=
  List.length_pos_iff.1 (length_name n).1

/-- What is printed for a number and spacers. -/
def printed (number : Uint128) (spacers : Uint32) : SpacedName where
  first := (name number.toNat).head (name_ne_nil number)
  rest := ofSpacers spacers.toNat (name number.toNat).tail
  isLetter := by
    rw [letters_ofSpacers, List.cons_head_tail]
    exact isLetter_name _

lemma letters_printed (number : Uint128) (spacers : Uint32) :
    (printed number spacers).letters = name number.toNat := by
  rw [SpacedName.letters, printed, letters_ofSpacers, List.cons_head_tail]

lemma numberAndSpacersToSpacedRune_eq (number : Uint128) (spacers : Uint32) :
    numberAndSpacersToSpacedRune number spacers = .ok (printed number spacers).bytes := by
  have hcons := List.cons_head_tail (name_ne_nil number)
  have hlen := (length_name number).2
  rw [← hcons] at hlen
  obtain ⟨rest, hwrite⟩ := @writeSpaced_eq _ spacers hlen _ _ 0 (by rw [Nat.zero_add])
    (List.replicate (((name number.toNat).head (name_ne_nil number) ::
      (name number.toNat).tail).length * 2) 0) 0 (by rw [List.length_replicate]; omega)
  rw [pow_zero, Nat.div_one, Nat.zero_add, List.take_zero, List.nil_append] at hwrite
  rw [numberAndSpacersToSpacedRune, runeNumberToName_eq, ok_bind]
  rw [← hcons]
  dsimp only
  rw [hwrite, ok_bind]
  exact mapM_index _ rest

/-! ## Bullets and dots -/

lemma replaceBullets_cons {c : UInt8} (hc : c ≠ 0xe2) (cs : Bytes) :
    replaceBullets (c :: cs) = c :: replaceBullets cs := by
  match cs with
  | [] => rfl
  | [_] => rfl
  | _ :: _ :: _ => rw [replaceBullets, if_neg fun h => hc h.1]

lemma replaceBullets_letter {c : UInt8} (hc : IsLetter c) (cs : Bytes) :
    replaceBullets (c :: cs) = c :: replaceBullets cs :=
  replaceBullets_cons (fun h => not_isLetter_spacer c (.inr h) hc) cs

lemma replaceBullets_spacer (spacer : Spacer) (cs : Bytes) :
    replaceBullets (spacer.bytes ++ cs) = 0x2e :: replaceBullets cs := by
  cases spacer with
  | dot => exact replaceBullets_cons (by decide) cs
  | bullet => rfl

lemma replaceBullets_tailBytes {rest : SpacedLetters} (hrest : ∀ p ∈ rest, IsLetter p.2) :
    replaceBullets (tailBytes rest) = tailBytes (dotted rest) := by
  induction rest with
  | nil => rfl
  | cons p rest ih =>
      obtain ⟨spacer, c⟩ := p
      obtain ⟨hc, hletters⟩ := List.forall_mem_cons.1 hrest
      cases spacer with
      | none =>
          rw [tailBytes, replaceBullets_letter hc, ih hletters]
          rfl
      | some spacer =>
          rw [tailBytes, replaceBullets_spacer, replaceBullets_letter hc, ih hletters]
          rfl

/-- A text that is read is printed with a dot for each of its bullets. -/
lemma bytes_printed_of_read (w : SpacedName) (hvalue : lettersValue w.letters ≤ 2 ^ 128) :
    (printed (BitVec.ofNat 128 (nameValue w.letters)) (BitVec.ofNat 32 (spacerBits w.rest))).bytes =
      replaceBullets w.bytes := by
  have hc := w.isLetter _ List.mem_cons_self
  have hrest (p : Option Spacer × UInt8) (hp : p ∈ w.rest) : IsLetter p.2 :=
    w.isLetter _ (List.mem_cons_of_mem _ (List.mem_map_of_mem hp))
  have hpos : 0 < lettersValue w.letters := lettersValue_pos (List.cons_ne_nil _ _)
  have hnumber : (BitVec.ofNat 128 (nameValue w.letters)).toNat = nameValue w.letters := by
    rw [BitVec.toNat_ofNat, Nat.mod_eq_of_lt]
    rw [nameValue, ← lettersValue]
    omega
  have hname : name (BitVec.ofNat 128 (nameValue w.letters)).toNat = w.letters := by
    rw [hnumber]
    exact name_nameValue (List.cons_ne_nil _ _) w.isLetter
  have hbits : (BitVec.ofNat 32 (spacerBits w.rest)).toNat = spacerBits w.rest := by
    have hlen := length_le_of_lettersValue hvalue
    rw [SpacedName.letters, List.length_cons, List.length_map] at hlen
    rw [BitVec.toNat_ofNat, Nat.mod_eq_of_lt]
    exact (spacerBits_lt w.rest).trans (Nat.pow_lt_pow_right (by omega) (by omega))
  simp only [printed, SpacedName.bytes, hname, hbits]
  simp only [SpacedName.letters, List.head_cons, List.tail_cons]
  rw [ofSpacers_spacerBits, replaceBullets_letter hc, replaceBullets_tailBytes hrest]

end RuneUtils

/-- **Spaced names are read and printed consistently.**  What is printed for a number and spacers
reads back as the number and the spacers that lie between two letters; the texts that can be read
are the well-formed ones whose letters' value fits, and what was read of one is printed as the text
with a dot for each bullet. -/
theorem spaced_names_numbers :
    (∀ (number : Uint128) (spacers : Uint32), ∃ name s spacers',
      RuneUtils.runeNumberToName number = .ok name ∧
        RuneUtils.numberAndSpacersToSpacedRune number spacers = .ok s ∧
        RuneUtils.spacedRuneToNumberAndSpacers s = .ok (number, spacers') ∧
        spacers'.toNat = spacers.toNat % 2 ^ (name.length - 1)) ∧
    ∀ s : Bytes, s ≠ [] →
      ((∃ r, RuneUtils.spacedRuneToNumberAndSpacers s = .ok r) ↔
        ∃ w : RuneUtils.SpacedName, w.bytes = s ∧ RuneUtils.nameValue w.letters ≤ 2 ^ 128 - 1) ∧
      ∀ number spacers, RuneUtils.spacedRuneToNumberAndSpacers s = .ok (number, spacers) →
        RuneUtils.numberAndSpacersToSpacedRune number spacers =
          .ok (RuneUtils.replaceBullets s) := by
  constructor
  · intro number spacers
    set w := RuneUtils.printed number spacers with hw
    have hletters := RuneUtils.letters_printed number spacers
    have hlt := number.isLt
    have hvalue : RuneUtils.lettersValue w.letters = number.toNat + 1 := by
      rw [hw, hletters, RuneUtils.lettersValue, RuneUtils.value_name]
    have hlen := (RuneUtils.length_name number).2
    refine ⟨_, _, BitVec.ofNat 32 (RuneUtils.spacerBits w.rest), RuneUtils.runeNumberToName_eq _,
      RuneUtils.numberAndSpacersToSpacedRune_eq number spacers, ?_, ?_⟩
    · apply (RuneUtils.spacedRuneToNumberAndSpacers_eq_ok (by simp [RuneUtils.SpacedName.bytes])).2
      refine ⟨w, rfl, by omega, ?_, rfl⟩
      apply BitVec.eq_of_toNat_eq
      rw [RuneUtils.nameValue, ← RuneUtils.lettersValue, hvalue, BitVec.toNat_ofNat,
        Nat.add_sub_cancel, Nat.mod_eq_of_lt hlt]
    · have hmod : spacers.toNat % 2 ^ ((RuneUtils.name number.toNat).length - 1) < 2 ^ 32 :=
        (Nat.mod_le _ _).trans_lt spacers.isLt
      rw [hw, RuneUtils.printed, RuneUtils.spacerBits_ofSpacers, List.length_tail,
        BitVec.toNat_ofNat, Nat.mod_eq_of_lt hmod]
  · intro s hne
    constructor
    · constructor
      · rintro ⟨⟨number, spacers⟩, hread⟩
        obtain ⟨w, hw, hvalue, -⟩ := (RuneUtils.spacedRuneToNumberAndSpacers_eq_ok hne).1 hread
        exact ⟨w, hw, Nat.sub_le_sub_right hvalue 1⟩
      · rintro ⟨w, rfl, hvalue⟩
        refine ⟨_, (RuneUtils.spacedRuneToNumberAndSpacers_eq_ok hne).2 ⟨w, rfl, ?_, rfl, rfl⟩⟩
        rw [RuneUtils.nameValue, ← RuneUtils.lettersValue] at hvalue
        omega
    · intro number spacers hread
      obtain ⟨w, rfl, hvalue, rfl, rfl⟩ :=
        (RuneUtils.spacedRuneToNumberAndSpacers_eq_ok hne).1 hread
      rw [RuneUtils.numberAndSpacersToSpacedRune_eq, RuneUtils.bytes_printed_of_read w hvalue]

theorem spaced_names_numbers_example :
    RuneUtils.numberAndSpacersToSpacedRune 701 1 = .ok (ascii "Z.Z") :=
  (spaced_names_numbers.2 [0x5a, 0xe2, 0x80, 0xa2, 0x5a] (by decide)).2 701 1 (by decide +kernel)

end NbteBridge
