import NbteBridge.Btc.Types
import NbteBridge.Runes.Protocol

/-!
# Runes and outputs as `ord` reports them

Rune names and numbers, the two answers the node asks `ord` for, the outputs it makes of them, and
the codec of runestones.  The codec and `ord` are outside the repository: they are records of
functions, with the behaviour relied on stated as hypotheses where it is used.
-/

namespace NbteBridge

open Checked

/-! ## Rune names -/

/-- The value of one more letter. -/
def Rune.addLetter (x : Option ℕ) (c : Char) : Option ℕ := do
  let n ← x
  if c.isUpper then some (26 * (n + 1) + (c.toNat - 'A'.toNat)) else none

/-- The number of a rune name, in bijective base 26; none if it is no name or too large. -/
def Rune.number (name : String) : Option ℕ :=
  match name.toList with
  | [] => none
  | c :: cs =>
      let first := if c.isUpper then some (c.toNat - 'A'.toNat) else none
      (cs.foldl Rune.addLetter first).filter fun n => n < 2 ^ 128

/-- A `pyord.Rune`: a name and its number. -/
structure Rune where
  name : String
  n : ℕ
  number_name : Rune.number name = some n

instance : DecidableEq Rune := fun r r' =>
  decidable_of_iff (r.name = r'.name) <| by
    constructor
    · intro h
      obtain ⟨name, n, hn⟩ := r
      obtain ⟨name', n', hn'⟩ := r'
      obtain rfl : name = name' := h
      rw [hn] at hn'
      obtain rfl := Option.some.inj hn'
      rfl
    · exact congrArg Rune.name

/-- `remove_spacers`, for names in ASCII.  A character beyond it is refused here too; the source lets
the letters among them pass, and the parser called next panics on them. -/
def removeSpacers (rune : String) : PyResult String := do
  let ret := String.ofList (rune.toList.filter fun c => c ≠ '.' ∧ c ≠ '•')
  require (ret ≠ "" ∧ ret.toList.all Char.isAlpha = true)
    (.valueError "rune contains non-alphabetic characters")
  require (ret.toList.all Char.isUpper = true)
    (.valueError "rune contains lowercase characters")
  pure ret

/-- `rune_from_str`: parses a name with or without spacers.  Past 128 bits the parser, which is not
Python, panics: what is raised is no `Exception`, and no handler of the source's catches it. -/
def runeFromStr (s : String) : PyResult Rune := do
  let name ← removeSpacers s
  match h : Rune.number name with
  | some n => pure ⟨name, n, h⟩
  | none => .error (.other "PanicException")

/-- The letters of a number, the last one first. -/
def Rune.letters : ℕ → ℕ → List Char
  | 0, _ => []
  | fuel + 1, n =>
      Char.ofNat ('A'.toNat + n % 26) :: if n < 26 then [] else letters fuel (n / 26 - 1)

/-- `pyord.Rune(n)`: the rune of a number, which has 128 bits and so at most 28 letters. -/
def Rune.ofNumber (n : ℕ) : PyResult Rune := do
  require (n < 2 ^ 128) (.other "int too big to convert")
  let name := String.ofList (Rune.letters 28 n).reverse
  match h : Rune.number name with
  | some m => pure ⟨name, m, h⟩
  | none => .error (.valueError "rune out of range")

lemma Rune.letter_digit : ∀ k < 26, (Char.ofNat ('A'.toNat + k)).isUpper = true ∧
    (Char.ofNat ('A'.toNat + k)).toNat - 'A'.toNat = k := by
  decide

/-- The letters read back, first letter first. -/
lemma Rune.foldl_letters (fuel n : ℕ) (h : n < 26 ^ (fuel + 1)) :
    ∃ c cs, (Rune.letters (fuel + 1) n).reverse = c :: cs ∧ c.isUpper = true ∧
      cs.foldl Rune.addLetter (some (c.toNat - 'A'.toNat)) = some n := by
  induction fuel generalizing n with
  | zero =>
      have hn : n < 26 := by simpa using h
      obtain ⟨hupper, hdigit⟩ := Rune.letter_digit n hn
      refine ⟨Char.ofNat ('A'.toNat + n), [], ?_, hupper, by rw [List.foldl_nil, hdigit]⟩
      simp [Rune.letters, Nat.mod_eq_of_lt hn, hn]
  | succ fuel ih =>
      obtain ⟨hupper, hdigit⟩ := Rune.letter_digit (n % 26) (Nat.mod_lt n (by omega))
      rw [Rune.letters]
      by_cases hn : n < 26
      · rw [Nat.mod_eq_of_lt hn] at hupper hdigit ⊢
        refine ⟨Char.ofNat ('A'.toNat + n), [], ?_, hupper, by rw [List.foldl_nil, hdigit]⟩
        simp [hn]
      · have hrest : n / 26 - 1 < 26 ^ (fuel + 1) := by
          rw [pow_succ] at h
          have hdiv : n / 26 < 26 ^ (fuel + 1) := Nat.div_lt_of_lt_mul (by omega)
          omega
        obtain ⟨c, cs, hletters, hc, hfold⟩ := ih (n / 26 - 1) hrest
        refine ⟨c, cs ++ [Char.ofNat ('A'.toNat + n % 26)], ?_, hc, ?_⟩
        · rw [if_neg hn, List.reverse_cons, hletters, List.cons_append]
        · rw [List.foldl_append, hfold, List.foldl_cons, List.foldl_nil, Rune.addLetter]
          simp only [hupper, hdigit, if_true, Option.bind_eq_bind, Option.bind_some,
            Option.some.injEq]
          omega

lemma Rune.letter_of_digit {c : Char} (h : c.isUpper = true) :
    c.toNat - 'A'.toNat < 26 ∧ Char.ofNat ('A'.toNat + (c.toNat - 'A'.toNat)) = c := by
  rw [Char.isUpper, decide_eq_true_iff] at h
  have hlow : 65 ≤ c.toNat := UInt32.le_iff_toNat_le.1 h.1
  have hhigh : c.toNat ≤ 90 := UInt32.le_iff_toNat_le.1 h.2
  have hA : 'A'.toNat = 65 := rfl
  refine ⟨by omega, ?_⟩
  rw [Nat.add_sub_cancel' (by omega)]
  exact Char.ofNat_toNat c

lemma Rune.foldl_addLetter_none (cs : List Char) : cs.foldl Rune.addLetter none = none := by
  induction cs with
  | nil => rfl
  | cons c cs ih => exact ih

/-- What is read back determines the letters. -/
lemma Rune.letters_of_foldl (cs : List Char) : ∀ (c : Char) (fuel n : ℕ), cs.length ≤ fuel →
    c.isUpper = true → cs.foldl Rune.addLetter (some (c.toNat - 'A'.toNat)) = some n →
      Rune.letters (fuel + 1) n = (c :: cs).reverse := by
  induction cs using List.reverseRecOn with
  | nil =>
      intro c fuel n _ hc h
      obtain ⟨hlt, hchar⟩ := Rune.letter_of_digit hc
      obtain rfl : c.toNat - 'A'.toNat = n := Option.some.inj h
      rw [Rune.letters, Nat.mod_eq_of_lt hlt, hchar, if_pos hlt]
      rfl
  | append_singleton cs d ih =>
      intro c fuel n hfuel hc h
      rw [List.length_append, List.length_singleton] at hfuel
      obtain ⟨fuel, rfl⟩ : ∃ k, fuel = k + 1 := ⟨fuel - 1, by omega⟩
      rw [List.foldl_append, List.foldl_cons, List.foldl_nil, Rune.addLetter] at h
      obtain ⟨m, hm, hd⟩ := Option.bind_eq_some_iff.1 h
      by_cases hupper : d.isUpper = true
      · obtain ⟨hlt, hchar⟩ := Rune.letter_of_digit hupper
        rw [if_pos hupper] at hd
        obtain rfl := Option.some.inj hd
        have hmod : (26 * (m + 1) + (d.toNat - 'A'.toNat)) % 26 = d.toNat - 'A'.toNat := by omega
        have hdiv : (26 * (m + 1) + (d.toNat - 'A'.toNat)) / 26 - 1 = m := by omega
        rw [Rune.letters, hmod, hdiv, hchar, if_neg (by omega), ih c fuel m (by omega) hc hm]
        simp
      · rw [if_neg hupper] at hd
        exact absurd hd (by simp)

/-- A number has one name. -/
lemma Rune.eq_of_n {r r' : Rune} (h : r.n = r'.n) : r = r' := by
  have hletters (r : Rune) : ∀ fuel, r.name.toList.length ≤ fuel + 1 →
      Rune.letters (fuel + 1) r.n = r.name.toList.reverse := by
    intro fuel hfuel
    have hn := r.number_name
    unfold Rune.number at hn
    cases hname : r.name.toList with
    | nil =>
        rw [hname] at hn
        exact absurd hn (by simp)
    | cons c cs =>
        rw [hname] at hn hfuel
        simp only [Option.filter_eq_some_iff] at hn
        by_cases hc : c.isUpper = true
        · rw [if_pos hc] at hn
          exact Rune.letters_of_foldl cs c fuel r.n (by simpa using hfuel) hc hn.1
        · -- without a first letter there is no number
          rw [if_neg hc] at hn
          rw [Rune.foldl_addLetter_none] at hn
          exact absurd hn.1 (by simp)
  have hfirst := hletters r (max r.name.toList.length r'.name.toList.length) (by omega)
  have hsecond := hletters r' (max r.name.toList.length r'.name.toList.length) (by omega)
  rw [h, hsecond] at hfirst
  have hname : r.name = r'.name := String.toList_inj.1 (List.reverse_injective hfirst).symm
  obtain ⟨name, n, hn⟩ := r
  obtain ⟨name', n', hn'⟩ := r'
  obtain rfl : name = name' := hname
  obtain rfl : n = n' := h
  rfl

/-- A rune made of a number has that number. -/
lemma Rune.n_ofNumber {n : ℕ} {rune : Rune} (h : Rune.ofNumber n = .ok rune) : rune.n = n := by
  simp only [Rune.ofNumber, bind_eq_ok, exists_unit, require_eq_ok] at h
  obtain ⟨hn, h⟩ := h
  obtain ⟨c, cs, hletters, hc, hfold⟩ := Rune.foldl_letters 27 n (hn.trans (by norm_num))
  have hnumber : Rune.number (String.ofList (Rune.letters 28 n).reverse) = some n := by
    rw [Rune.number, String.toList_ofList, hletters]
    simp only [hc, if_true, hfold]
    rw [Option.filter_some, if_pos (by simpa using hn)]
  split at h
  · rename_i m hm
    obtain rfl := pure_eq_ok.1 h
    exact Option.some.inj (hm.symm.trans hnumber)
  · exact absurd h (by simp)

/-! ## Answers of `ord` -/

structure RuneEntry where
  spacedRune : String
  symbol : String
  divisibility : ℕ
  turbo : Bool

/-- The rune of a name, with the id its transaction gave it. -/
structure RuneResponse where
  id : Runes.RuneId
  entry : RuneEntry

structure RuneBalanceEntry where
  amount : ℕ
  divisibility : ℕ

/-- An output, with the runes on it by their spaced names. -/
structure OutputResponse where
  indexed : Bool
  spent : Bool
  transaction : String
  value : ℕ
  runes : List (String × RuneBalanceEntry)
  inscriptions : List String

structure OrdApiClient where
  getRune : String → PyResult (Option RuneResponse)
  getOutput : String → ℕ → PyResult OutputResponse

/-! ## Outputs -/

structure OrdOutput where
  txid : String
  vout : ℕ
  amountSatoshi : ℕ
  /-- By name, each name once, in the order reported. -/
  runeBalances : List (Rune × ℕ)
  inscriptions : List String

namespace OrdOutput

/-- The balance under a rune's own entry, or zero. -/
def balanceOf (o : OrdOutput) (rune : Rune) : ℕ :=
  ((o.runeBalances.find? fun e => e.1 = rune).map Prod.snd).getD 0

/-- `get_rune_balance`, of a rune given by a name. -/
def getRuneBalance (o : OrdOutput) (rune : String) : PyResult ℕ := do
  let rune ← runeFromStr rune
  pure (o.balanceOf rune)

def hasRuneBalances (o : OrdOutput) : Bool := o.runeBalances ≠ []

end OrdOutput

/-- The balances of an output by rune; a name reported twice is refused. -/
def normalizedBalances :
    List (String × RuneBalanceEntry) → List (Rune × ℕ) → PyResult (List (Rune × ℕ))
  | [], balances => pure balances
  | (name, entry) :: runes, balances => do
      let rune ← runeFromStr name
      require (rune ∉ balances.map Prod.fst) .assertionError
      normalizedBalances runes (balances ++ [(rune, entry.amount)])

/-- `get_ord_output`.  The runes of an output that is not indexed are not visible. -/
def OrdApiClient.getOrdOutput (ord : OrdApiClient) (txid : String) (vout : ℕ) :
    PyResult OrdOutput := do
  let response ← ord.getOutput txid vout
  require (response.indexed = true) .unindexedOutput
  require (response.transaction = txid) .assertionError
  let balances ← normalizedBalances response.runes []
  pure ⟨txid, vout, response.value, balances, response.inscriptions⟩

/-! ## Transfers -/

def TARGET_POSTAGE_SAT : ℤ := 10000

structure RuneTransfer where
  rune : Rune
  receiver : String
  amount : ℤ
  postage : ℤ := TARGET_POSTAGE_SAT

/-- The libraries that read addresses and runestones. -/
structure Codec where
  /-- The output script of an address, if it is one. -/
  addressScript : String → PyResult Script
  /-- `CScript.is_valid`. -/
  isValidScript : Script → Bool
  /-- Whether a script is an `OP_RETURN`. -/
  isOpReturn : Script → Bool
  /-- A runestone as an output script. -/
  encipher : Runes.Runestone → PyResult Script
  /-- The runestone of a transaction, found in its output scripts. -/
  decipher : List Script → Option Runes.Artifact

/-- `assert_valid`. -/
def RuneTransfer.assertValid (codec : Codec) (t : RuneTransfer) : PyResult Unit := do
  require (0 < t.postage) (.valueError "postage must be a positive non-zero integer")
  require (t.amount ≠ 0) (.zeroTransferAmountError
    "zero transfer amounts are not supported as they have a special meaning in Runes")
  require (0 < t.amount) (.valueError "invalid amount (must be a positive integer)")
  let script ← codec.addressScript t.receiver
  require (codec.isValidScript script = true)
    (.valueError "receiver does not have a valid scriptPubKey")

/-- `pyord.Edict(id, amount, output)`: the amount is an unsigned integer of 128 bits.  (So is the
output, of 32 bits, which the index of an output fits.) -/
def pyordEdict (id : Runes.RuneId) (amount : ℤ) (output : ℕ) : PyResult Runes.Edict := do
  require (0 ≤ amount ∧ amount < 2 ^ 128) .overflowError
  pure ⟨id, amount.toNat, output⟩

/-! ## Names are parsed to themselves -/

lemma isUpper_of_number {name : String} {n : ℕ} (h : Rune.number name = some n) :
    name ≠ "" ∧ ∀ c ∈ name.toList, c.isUpper = true := by
  have hfold (cs : List Char) (x : Option ℕ) (hx : (cs.foldl Rune.addLetter x).isSome) :
      x.isSome ∧ ∀ c ∈ cs, c.isUpper = true := by
    induction cs generalizing x with
    | nil => exact ⟨hx, by simp⟩
    | cons c cs ih =>
        obtain ⟨hstep, hrest⟩ := ih _ hx
        cases x with
        | none => simp [Rune.addLetter] at hstep
        | some m =>
            by_cases hc : c.isUpper = true
            · exact ⟨rfl, by simpa [hc] using hrest⟩
            · simp [Rune.addLetter, hc] at hstep
  unfold Rune.number at h
  cases hname : name.toList with
  | nil =>
      rw [hname] at h
      exact absurd h (by simp)
  | cons c cs =>
      rw [hname] at h
      obtain ⟨hsome, -⟩ := Option.filter_eq_some_iff.1 h
      have hall := hfold cs _ (by rw [hsome]; rfl)
      refine ⟨fun hempty => ?_, ?_⟩
      · rw [hempty] at hname
        exact absurd hname (by simp)
      · have hc : c.isUpper = true := by
          by_contra hc
          simp [hc] at hall
        simpa [hc] using hall.2

lemma isAlpha_of_isUpper {c : Char} (h : c.isUpper = true) : c.isAlpha = true := by
  simp [Char.isAlpha, h]

lemma ne_spacer_of_isUpper {c : Char} (h : c.isUpper = true) : c ≠ '.' ∧ c ≠ '•' := by
  constructor
  · rintro rfl
    exact absurd h (by decide)
  · rintro rfl
    exact absurd h (by decide)

/-- A rune's own name parses to it. -/
theorem runeFromStr_name (r : Rune) : runeFromStr r.name = .ok r := by
  obtain ⟨hne, hupper⟩ := isUpper_of_number r.number_name
  have hfilter : r.name.toList.filter (fun c => c ≠ '.' ∧ c ≠ '•') = r.name.toList :=
    List.filter_eq_self.2 fun c hc => by simpa using ne_spacer_of_isUpper (hupper c hc)
  have hremove : removeSpacers r.name = .ok r.name := by
    simp only [removeSpacers, hfilter, String.ofList_toList, bind_eq_ok, exists_unit,
      require_eq_ok, pure_eq_ok, and_true]
    exact ⟨⟨hne, List.all_eq_true.2 fun c hc => isAlpha_of_isUpper (hupper c hc)⟩,
      List.all_eq_true.2 hupper⟩
  unfold runeFromStr
  rw [hremove, ok_bind]
  split
  · rename_i n hn
    have hn' := r.number_name
    rw [hn] at hn'
    obtain rfl := Option.some.inj hn'
    rfl
  · rename_i hn
    rw [r.number_name] at hn
    exact absurd hn (by simp)

lemma OrdOutput.getRuneBalance_name (o : OrdOutput) (r : Rune) :
    o.getRuneBalance r.name = .ok (o.balanceOf r) := by
  rw [getRuneBalance, runeFromStr_name, ok_bind]
  rfl

end NbteBridge
