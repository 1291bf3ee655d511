import NbteBridge.Foundations.Packed

/-!
# Type-length-value records

A stream of records, each a type, a length and as many bytes of value.  Types and lengths are
numbers of variable width: one byte below `0xfd`, otherwise a marker and two, four or eight
big-endian bytes.  `bigSize` is the shortest form, `readBigSize` accepts any.

`readRecord_encode` is the round trip of one record at the front of any stream, and `Reads` the
relation of a stream to the records at its front.  Reading is deterministic: two readings of a
stream agree as far as both go (`Reads.comparable`).  A stream that was read is the encoding of its
records exactly where none of its numbers has a shorter form (`flatMap_encode_shortest`).
-/

namespace Tlv

open Packed

/-! ## Numbers of variable width -/

/-- The number with the given big-endian bytes. -/
def numberBE (bytes : List UInt8) : ℕ := bytes.foldl (fun n c => 256 * n + c.toNat) 0

/-- The shortest form of a number below `2 ^ 64`. -/
def bigSize (n : ℕ) : List UInt8 :=
  if n < 0xfd then [UInt8.ofNat n]
  else if n < 2 ^ 16 then 0xfd :: bytesBE 2 n
  else if n < 2 ^ 32 then 0xfe :: bytesBE 4 n
  else 0xff :: bytesBE 8 n

lemma bigSize_ne_nil (n : ℕ) : bigSize n ≠ [] := by
  unfold bigSize
  split_ifs
  all_goals simp

/-- `width` bytes taken as a number, and the rest. -/
def readNumber (width : ℕ) (bytes : List UInt8) : Option (ℕ × List UInt8) :=
  if bytes.length < width then none else some (numberBE (bytes.take width), bytes.drop width)

/-- A number of variable width at the front of a stream, and the rest. -/
def readBigSize : List UInt8 → Option (ℕ × List UInt8)
  | [] => none
  | c :: bytes =>
      if c = 0xfd then readNumber 2 bytes
      else if c = 0xfe then readNumber 4 bytes
      else if c = 0xff then readNumber 8 bytes
      else some (c.toNat, bytes)

lemma numberBE_append (bytes : List UInt8) (c : UInt8) :
    numberBE (bytes ++ [c]) = 256 * numberBE bytes + c.toNat := by
  simp [numberBE]

lemma numberBE_lt (bytes : List UInt8) : numberBE bytes < 256 ^ bytes.length := by
  induction bytes using List.reverseRecOn with
  | nil => simp [numberBE]
  | append_singleton bytes c ih =>
      have hc := c.toNat_lt
      rw [numberBE_append, List.length_append, List.length_singleton, pow_succ]
      omega

/-- The bytes of a number are read back as it. -/
lemma numberBE_bytesBE {w n : ℕ} (h : n < 256 ^ w) : numberBE (bytesBE w n) = n := by
  induction w generalizing n with
  | zero =>
      rw [pow_zero, Nat.lt_one_iff] at h
      simp [bytesBE, numberBE, h]
  | succ w ih =>
      have hhigh : n / 256 < 256 ^ w := by
        rw [pow_succ] at h
        omega
      rw [bytesBE, numberBE_append, ih hhigh, UInt8.toNat_ofNat']
      omega

lemma readNumber_append {width : ℕ} {bytes rest : List UInt8} (h : bytes.length = width) :
    readNumber width (bytes ++ rest) = some (numberBE bytes, rest) := by
  have hlen : ¬ (bytes ++ rest).length < width := by simp [h]
  rw [readNumber, if_neg hlen, List.take_left' h, List.drop_left' h]

/-- **The shortest form is read back**, whatever follows it. -/
lemma readBigSize_bigSize {n : ℕ} (h : n < 2 ^ 64) (rest : List UInt8) :
    readBigSize (bigSize n ++ rest) = some (n, rest) := by
  unfold bigSize
  split_ifs with h₁ h₂ h₃
  · have hbyte : (UInt8.ofNat n).toNat = n := UInt8.toNat_ofNat_of_lt' (by
      rw [UInt8.size]
      omega)
    have hne : ∀ marker : UInt8, 0xfd ≤ marker.toNat → UInt8.ofNat n ≠ marker := by
      rintro marker hmarker rfl
      rw [hbyte] at hmarker
      omega
    rw [List.singleton_append, readBigSize, if_neg (hne _ (by decide)), if_neg (hne _ (by decide)),
      if_neg (hne _ (by decide)), hbyte]
  · rw [List.cons_append, readBigSize, if_pos rfl, readNumber_append (length_bytesBE 2 n),
      numberBE_bytesBE (by omega)]
  · rw [List.cons_append, readBigSize, if_neg (by decide), if_pos rfl,
      readNumber_append (length_bytesBE 4 n), numberBE_bytesBE (by omega)]
  · rw [List.cons_append, readBigSize, if_neg (by decide), if_neg (by decide), if_pos rfl,
      readNumber_append (length_bytesBE 8 n), numberBE_bytesBE (by omega)]

/-- What was read is a part of the stream at its front, and is read alike before any rest. -/
lemma readBigSize_split {bytes rest : List UInt8} {n : ℕ}
    (h : readBigSize bytes = some (n, rest)) :
    ∃ used, used ≠ [] ∧ bytes = used ++ rest ∧
      ∀ rest', readBigSize (used ++ rest') = some (n, rest') := by
  -- a marker is followed by a number of its width
  have hnumber : ∀ (marker : UInt8) (width : ℕ) (bytes : List UInt8),
      (∀ bytes, readBigSize (marker :: bytes) = readNumber width bytes) →
      readNumber width bytes = some (n, rest) →
      ∃ used, used ≠ [] ∧ marker :: bytes = used ++ rest ∧
        ∀ rest', readBigSize (used ++ rest') = some (n, rest') := by
    intro marker width bytes hmarker hread
    rw [readNumber] at hread
    split at hread
    · exact absurd hread (by simp)
    · obtain ⟨rfl, rfl⟩ := Prod.mk.inj (Option.some.inj hread)
      refine ⟨marker :: bytes.take width, by simp, by simp, ?_⟩
      intro rest'
      rw [List.cons_append, hmarker, readNumber_append (List.length_take_of_le (by omega))]
  cases bytes with
  | nil => simp [readBigSize] at h
  | cons c bytes =>
      by_cases h₁ : c = 0xfd
      · refine hnumber c 2 bytes ?_ ?_
        · intro bytes
          rw [readBigSize, if_pos h₁]
        · rwa [readBigSize, if_pos h₁] at h
      by_cases h₂ : c = 0xfe
      · refine hnumber c 4 bytes ?_ ?_
        · intro bytes
          rw [readBigSize, if_neg h₁, if_pos h₂]
        · rwa [readBigSize, if_neg h₁, if_pos h₂] at h
      by_cases h₃ : c = 0xff
      · refine hnumber c 8 bytes ?_ ?_
        · intro bytes
          rw [readBigSize, if_neg h₁, if_neg h₂, if_pos h₃]
        · rwa [readBigSize, if_neg h₁, if_neg h₂, if_pos h₃] at h
      have hsingle : ∀ bytes, readBigSize (c :: bytes) = some (c.toNat, bytes) := by
        intro bytes
        rw [readBigSize, if_neg h₁, if_neg h₂, if_neg h₃]
      rw [hsingle] at h
      obtain ⟨rfl, rfl⟩ := Prod.mk.inj (Option.some.inj h)
      exact ⟨[c], by simp, by simp, fun rest' => hsingle rest'⟩

/-! ## Records -/

structure Record where
  type : ℕ
  value : List UInt8
  deriving DecidableEq

/-- A record with its type and length in shortest form. -/
def Record.encode (r : Record) : List UInt8 := bigSize r.type ++ bigSize r.value.length ++ r.value

/-- The record at the front of a stream, and the rest; `none` where the stream ends within it. -/
def readRecord (bytes : List UInt8) : Option (Record × List UInt8) := do
  let (type, bytes) ← readBigSize bytes
  let (length, bytes) ← readBigSize bytes
  if bytes.length < length then none else some (⟨type, bytes.take length⟩, bytes.drop length)

lemma readRecord_eq_some {bytes rest : List UInt8} {r : Record} :
    readRecord bytes = some (r, rest) ↔
      ∃ bytes₁, readBigSize bytes = some (r.type, bytes₁) ∧
        readBigSize bytes₁ = some (r.value.length, r.value ++ rest) := by
  simp only [readRecord, Option.bind_eq_bind, Option.bind_eq_some_iff, Prod.exists]
  constructor
  · rintro ⟨type, bytes₁, htype, length, bytes₂, hlength, hvalue⟩
    split at hvalue
    · exact absurd hvalue (by simp)
    · obtain ⟨rfl, rfl⟩ := Prod.mk.inj (Option.some.inj hvalue)
      refine ⟨bytes₁, htype, ?_⟩
      rw [hlength, List.length_take_of_le (by omega), List.take_append_drop]
  · rintro ⟨bytes₁, htype, hlength⟩
    refine ⟨_, _, htype, _, _, hlength, ?_⟩
    rw [if_neg (by simp), List.take_left, List.drop_left]

/-- A record takes a part of the stream at its front. -/
lemma readRecord_split {bytes rest : List UInt8} {r : Record}
    (h : readRecord bytes = some (r, rest)) : ∃ used, used ≠ [] ∧ bytes = used ++ rest := by
  obtain ⟨bytes₁, htype, hlength⟩ := readRecord_eq_some.1 h
  obtain ⟨used₁, hne, rfl, -⟩ := readBigSize_split htype
  obtain ⟨used₂, -, rfl, -⟩ := readBigSize_split hlength
  exact ⟨used₁ ++ (used₂ ++ r.value), by simp [hne], by simp⟩

/-- **One record is read back**, whatever follows it. -/
lemma readRecord_encode {r : Record} (htype : r.type < 2 ^ 64) (hlen : r.value.length < 2 ^ 64)
    (rest : List UInt8) : readRecord (r.encode ++ rest) = some (r, rest) := by
  rw [readRecord_eq_some, Record.encode, List.append_assoc, List.append_assoc]
  exact ⟨_, readBigSize_bigSize htype _, readBigSize_bigSize hlen _⟩

/-- The records at the front of a stream, and what follows them. -/
inductive Reads : List UInt8 → List Record → List UInt8 → Prop
  | nil (bytes : List UInt8) : Reads bytes [] bytes
  | cons {bytes rest rest' : List UInt8} {r : Record} {rs : List Record}
      (head : readRecord bytes = some (r, rest)) (tail : Reads rest rs rest') :
      Reads bytes (r :: rs) rest'

lemma reads_encode {rs : List Record} (h : ∀ r ∈ rs, r.type < 2 ^ 64 ∧ r.value.length < 2 ^ 64) :
    Reads (rs.flatMap Record.encode) rs [] := by
  induction rs with
  | nil => exact .nil _
  | cons r rs ih =>
      obtain ⟨htype, hlen⟩ := h r (by simp)
      rw [List.flatMap_cons]
      exact .cons (readRecord_encode htype hlen _) (ih fun r hr => h r (by simp [hr]))

/-- **Two readings agree.**  A reading of the whole stream continues every other one. -/
lemma Reads.comparable {bytes rest : List UInt8} {all rs : List Record}
    (hall : Reads bytes all []) (h : Reads bytes rs rest) :
    ∃ more, all = rs ++ more ∧ Reads rest more [] := by
  induction h generalizing all with
  | nil bytes => exact ⟨all, rfl, hall⟩
  | @cons bytes rest rest' r rs head tail ih =>
      cases hall with
      | nil => simp [readRecord, readBigSize] at head
      | @cons _ rest₁ _ r₁ rs₁ head₁ tail₁ =>
          obtain ⟨rfl, rfl⟩ := Prod.mk.inj (Option.some.inj (head₁.symm.trans head))
          obtain ⟨more, rfl, hmore⟩ := ih tail₁
          exact ⟨more, by simp, hmore⟩

/-- A stream is read to its end in one way. -/
lemma Reads.unique {bytes : List UInt8} {rs rs' : List Record} (h : Reads bytes rs [])
    (h' : Reads bytes rs' []) : rs = rs' := by
  obtain ⟨more, rfl, hmore⟩ := h.comparable h'
  cases hmore with
  | nil => rw [List.append_nil]
  | cons head _ => simp [readRecord, readBigSize] at head

/-! ## Shortest forms -/

/-- The bytes of a number that was read. -/
lemma bytesBE_numberBE (bytes : List UInt8) : bytesBE bytes.length (numberBE bytes) = bytes := by
  induction bytes using List.reverseRecOn with
  | nil => rfl
  | append_singleton bytes c ih =>
      have hc := c.toNat_lt
      have hdiv : (256 * numberBE bytes + c.toNat) / 256 = numberBE bytes := by omega
      have hmod : (256 * numberBE bytes + c.toNat) % 256 = c.toNat := by omega
      rw [List.length_append, List.length_singleton, bytesBE, numberBE_append, hdiv, ih, hmod,
        UInt8.ofNat_toNat]

/-- A marker at the front with a number that has a shorter form. -/
def Overlong : List UInt8 → Prop
  | [] => False
  | c :: bytes => ∃ n rest,
      (c = 0xfd ∧ readNumber 2 bytes = some (n, rest) ∧ n < 0xfd) ∨
      (c = 0xfe ∧ readNumber 4 bytes = some (n, rest) ∧ n < 2 ^ 16) ∨
      (c = 0xff ∧ readNumber 8 bytes = some (n, rest) ∧ n < 2 ^ 32)

/-- `used` writes `n`, not in its shortest form exactly when `b`. -/
def Writes (n : ℕ) (used : List UInt8) (b : Prop) : Prop :=
  b ∧ (bigSize n).length < used.length ∨ ¬ b ∧ used = bigSize n

lemma length_le_of_writes {n : ℕ} {used : List UInt8} {b : Prop} (h : Writes n used b) :
    (bigSize n).length ≤ used.length := by
  rcases h with ⟨-, h⟩ | ⟨-, rfl⟩
  · exact h.le
  · exact le_rfl

/-- A larger number has no shorter form. -/
lemma length_bigSize_mono {m n : ℕ} (h : m ≤ n) : (bigSize m).length ≤ (bigSize n).length := by
  unfold bigSize
  split_ifs <;> simp <;> omega

/-- A marker with a number of `width` bytes, which is in shortest form from `low` on. -/
lemma writes_of_readNumber {marker : UInt8} {width low n : ℕ} {bytes rest : List UInt8}
    (hshort : ∀ n, n < low → (bigSize n).length < width + 1)
    (hform : ∀ n, low ≤ n → n < 256 ^ width → bigSize n = marker :: bytesBE width n)
    (h : readNumber width bytes = some (n, rest)) :
    ∃ used, marker :: bytes = used ++ rest ∧ Writes n used (n < low) := by
  rw [readNumber] at h
  split at h
  · exact absurd h (by simp)
  · rename_i hlen
    obtain ⟨rfl, rfl⟩ := Prod.mk.inj (Option.some.inj h)
    have htake : (bytes.take width).length = width := List.length_take_of_le (by omega)
    refine ⟨marker :: bytes.take width, by simp, ?_⟩
    by_cases hlow : numberBE (bytes.take width) < low
    · refine .inl ⟨hlow, ?_⟩
      rw [List.length_cons, htake]
      exact hshort _ hlow
    · have hlt := numberBE_lt (bytes.take width)
      rw [htake] at hlt
      have hback := bytesBE_numberBE (bytes.take width)
      rw [htake] at hback
      exact .inr ⟨hlow, by rw [hform _ (Nat.le_of_not_lt hlow) hlt, hback]⟩

/-- **A number that is read is written in its shortest form or overlong**, and longer only then. -/
lemma writes_of_readBigSize {bytes rest : List UInt8} {n : ℕ}
    (h : readBigSize bytes = some (n, rest)) :
    ∃ used, bytes = used ++ rest ∧ Writes n used (Overlong bytes) := by
  cases bytes with
  | nil => exact absurd h (by simp [readBigSize])
  | cons c bytes =>
      rw [readBigSize] at h
      -- the number after a marker is the one the rule of the format speaks of
      by_cases h₁ : c = 0xfd
      · rw [if_pos h₁] at h
        have hrule : Overlong (c :: bytes) ↔ n < 0xfd := by simp [Overlong, h₁, h]
        rw [hrule, h₁]
        refine writes_of_readNumber ?_ ?_ h
        · intro n hn
          simp [bigSize, hn]
        · intro n hlow hhigh
          rw [bigSize, if_neg (by omega), if_pos (by omega)]
      by_cases h₂ : c = 0xfe
      · rw [if_neg h₁, if_pos h₂] at h
        have hrule : Overlong (c :: bytes) ↔ n < 2 ^ 16 := by simp [Overlong, h₂, h]
        rw [hrule, h₂]
        refine writes_of_readNumber ?_ ?_ h
        · intro n hn
          unfold bigSize
          split_ifs <;> simp
        · intro n hlow hhigh
          rw [bigSize, if_neg (by omega), if_neg (by omega), if_pos (by omega)]
      by_cases h₃ : c = 0xff
      · rw [if_neg h₁, if_neg h₂, if_pos h₃] at h
        have hrule : Overlong (c :: bytes) ↔ n < 2 ^ 32 := by simp [Overlong, h₃, h]
        rw [hrule, h₃]
        refine writes_of_readNumber ?_ ?_ h
        · intro n hn
          unfold bigSize
          split_ifs <;> simp
        · intro n hlow hhigh
          rw [bigSize, if_neg (by omega), if_neg (by omega), if_neg (by omega)]
      rw [if_neg h₁, if_neg h₂, if_neg h₃] at h
      obtain ⟨rfl, rfl⟩ := Prod.mk.inj (Option.some.inj h)
      have hrule : ¬ Overlong (c :: bytes) := by simp [Overlong, h₁, h₂, h₃]
      have hlow : c.toNat < 0xfd := by
        have hlt := c.toNat_lt
        have hne (m : UInt8) (hm : c ≠ m) : c.toNat ≠ m.toNat := fun h => hm (UInt8.toNat_inj.1 h)
        have h₁ : c.toNat ≠ 0xfd := hne 0xfd h₁
        have h₂ : c.toNat ≠ 0xfe := hne 0xfe h₂
        have h₃ : c.toNat ≠ 0xff := hne 0xff h₃
        omega
      refine ⟨[c], rfl, .inr ⟨hrule, ?_⟩⟩
      rw [bigSize, if_pos hlow, UInt8.ofNat_toNat]

section Numeric

-- the types of the records whose value is itself a number of variable width
variable (numeric : ℕ → Bool)

/-- A record with its number, if it holds one, in shortest form. -/
def Record.shortest (r : Record) : Record :=
  if numeric r.type then
    match readBigSize r.value with
    | some (n, _) => ⟨r.type, bigSize n⟩
    | none => r
  else r

/-- A number of the record at the front is overlong: the type, the length or what it holds. -/
def OverlongRecord (bytes : List UInt8) (r : Record) : Prop :=
  Overlong bytes ∨ (∃ n rest, readBigSize bytes = some (n, rest) ∧ Overlong rest) ∨
    numeric r.type = true ∧ Overlong r.value

/-- Some number of the stream is overlong. -/
inductive HasOverlong : List UInt8 → Prop
  | here {bytes rest : List UInt8} {r : Record} (head : readRecord bytes = some (r, rest))
      (h : OverlongRecord numeric bytes r) : HasOverlong bytes
  | later {bytes rest : List UInt8} {r : Record} (head : readRecord bytes = some (r, rest))
      (h : HasOverlong rest) : HasOverlong bytes

/-- The values of these records are numbers where they are to be. -/
def HoldNumbers (rs : List Record) : Prop :=
  ∀ r ∈ rs, numeric r.type = true → ∃ n, readBigSize r.value = some (n, [])

variable {numeric}

lemma shortest_eq {r : Record} (hnumber : numeric r.type = true →
      ∃ n, readBigSize r.value = some (n, [])) :
    ∃ value, r.shortest numeric = ⟨r.type, value⟩ ∧
      ((numeric r.type = true ∧ Overlong r.value) ∧ value.length < r.value.length ∨
        ¬ (numeric r.type = true ∧ Overlong r.value) ∧ value = r.value) := by
  by_cases hnumeric : numeric r.type = true
  · obtain ⟨n, hread⟩ := hnumber hnumeric
    obtain ⟨used, hused, hwrites⟩ := writes_of_readBigSize hread
    rw [List.append_nil] at hused
    refine ⟨bigSize n, ?_, ?_⟩
    · rw [Record.shortest, if_pos hnumeric, hread]
    · rw [Writes, ← hused] at hwrites
      simpa only [hnumeric, true_and, eq_comm] using hwrites
  · refine ⟨r.value, ?_, .inr ⟨fun h => hnumeric h.1, rfl⟩⟩
    rw [Record.shortest, if_neg hnumeric]

/-- **One record**: written anew it is the same, or shorter if a number of it was overlong. -/
lemma encode_shortest {bytes rest : List UInt8} {r : Record}
    (h : readRecord bytes = some (r, rest))
    (hnumber : numeric r.type = true → ∃ n, readBigSize r.value = some (n, [])) :
    ∃ used, bytes = used ++ rest ∧
      (OverlongRecord numeric bytes r ∧ (r.shortest numeric).encode.length < used.length ∨
        ¬ OverlongRecord numeric bytes r ∧ used = (r.shortest numeric).encode) := by
  obtain ⟨bytes₁, htype, hlength⟩ := readRecord_eq_some.1 h
  obtain ⟨used₁, hused₁, hwrites₁⟩ := writes_of_readBigSize htype
  obtain ⟨used₂, hused₂, hwrites₂⟩ := writes_of_readBigSize hlength
  obtain ⟨value, hshortest, hvalue⟩ := shortest_eq hnumber
  have hsecond : (∃ n rest, readBigSize bytes = some (n, rest) ∧ Overlong rest) ↔
      Overlong bytes₁ := by
    rw [htype]
    simp
  have hle₁ := length_le_of_writes hwrites₁
  have hle₂ := length_le_of_writes hwrites₂
  have hlen : (bigSize value.length).length ≤ (bigSize r.value.length).length := by
    apply length_bigSize_mono
    rcases hvalue with ⟨-, h⟩ | ⟨-, rfl⟩
    · exact h.le
    · exact le_rfl
  refine ⟨used₁ ++ (used₂ ++ r.value), by rw [hused₁, hused₂]; simp, ?_⟩
  rw [OverlongRecord, hsecond, hshortest, Record.encode]
  simp only [List.length_append]
  rcases hwrites₁ with ⟨hlong, hlt₁⟩ | ⟨hno₁, rfl⟩
  · refine .inl ⟨.inl hlong, ?_⟩
    rcases hvalue with ⟨-, hlt⟩ | ⟨-, rfl⟩ <;> omega
  rcases hwrites₂ with ⟨hlong, hlt₂⟩ | ⟨hno₂, rfl⟩
  · refine .inl ⟨.inr (.inl hlong), ?_⟩
    rcases hvalue with ⟨-, hlt⟩ | ⟨-, rfl⟩ <;> omega
  rcases hvalue with ⟨hlong, hlt⟩ | ⟨hno, rfl⟩
  · refine .inl ⟨.inr (.inr hlong), ?_⟩
    omega
  · refine .inr ⟨?_, by rw [List.append_assoc]⟩
    rintro (h | h | h)
    · exact hno₁ h
    · exact hno₂ h
    · exact hno h

/-- **A stream**, written anew in shortest forms, is the same or, where it has an overlong number,
shorter. -/
theorem flatMap_encode_shortest {bytes : List UInt8} {rs : List Record} (h : Reads bytes rs [])
    (hnumbers : HoldNumbers numeric rs) :
    HasOverlong numeric bytes ∧
        ((rs.map (Record.shortest numeric)).flatMap Record.encode).length < bytes.length ∨
      ¬ HasOverlong numeric bytes ∧
        (rs.map (Record.shortest numeric)).flatMap Record.encode = bytes := by
  generalize hend : ([] : List UInt8) = rest' at h
  induction h with
  | nil bytes =>
      subst hend
      refine .inr ⟨?_, rfl⟩
      intro hlong
      cases hlong with
      | here head _ => simp [readRecord, readBigSize] at head
      | later head _ => simp [readRecord, readBigSize] at head
  | @cons bytes rest _ r rs head tail ih =>
      obtain ⟨hfirst, hnumbers⟩ := List.forall_mem_cons.1 hnumbers
      obtain ⟨used, rfl, hused⟩ := encode_shortest head hfirst
      have hiff : HasOverlong numeric (used ++ rest) ↔
          OverlongRecord numeric (used ++ rest) r ∨ HasOverlong numeric rest := by
        constructor
        · intro hlong
          cases hlong with
          | here head' h =>
              obtain ⟨rfl, rfl⟩ := Prod.mk.inj (Option.some.inj (head.symm.trans head'))
              exact .inl h
          | later head' h =>
              obtain ⟨rfl, rfl⟩ := Prod.mk.inj (Option.some.inj (head.symm.trans head'))
              exact .inr h
        · rintro (h | h)
          · exact .here head h
          · exact .later head h
      rw [hiff, List.map_cons, List.flatMap_cons, List.length_append, List.length_append]
      rcases hused with ⟨hlong, hlt⟩ | ⟨hno, hsame⟩
      · refine .inl ⟨.inl hlong, ?_⟩
        rcases ih hnumbers hend with ⟨-, hrest⟩ | ⟨-, hrest⟩
        · omega
        · rw [hrest]
          omega
      · rw [hsame]
        rcases ih hnumbers hend with ⟨hlong, hrest⟩ | ⟨hrest, hsame'⟩
        · exact .inl ⟨.inr hlong, by omega⟩
        · exact .inr ⟨by simp [hno, hrest, ← hsame], by rw [hsame']⟩

end Numeric

end Tlv
