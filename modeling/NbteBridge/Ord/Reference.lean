import NbteBridge.Foundations.Packed
import NbteBridge.Ord.Reports

/-!
# A concrete codec and wallet

A codec of runestones that satisfies `Codec.Lawful`, and a wallet of two outputs, one with runes
and one without, so that the functions of the multisig can be computed on an example.  The codec
writes numbers in unary: only the laws matter here, not the bytes.
-/

namespace NbteBridge

namespace UnaryCodec

open Runes

def OP_RETURN : UInt8 := 0x6a

/-! ## Numbers -/

def encodeNat (n : ℕ) : Script := List.replicate n 0 ++ [1]

def decodeNat : Script → Option (ℕ × Script)
  | [] => none
  | b :: bs => if b = 0 then (decodeNat bs).map fun p => (p.1 + 1, p.2) else some (0, bs)

lemma decodeNat_encodeNat (n : ℕ) (rest : Script) :
    decodeNat (encodeNat n ++ rest) = some (n, rest) := by
  induction n with
  | zero => rfl
  | succ n ih =>
      have hcons : encodeNat (n + 1) ++ rest = 0 :: (encodeNat n ++ rest) := by
        simp [encodeNat, List.replicate_succ]
      rw [hcons, decodeNat, if_pos rfl, ih]
      rfl

/-! ## Runestones -/

def encodeEdict (e : Edict) : Script :=
  encodeNat e.id.block ++ (encodeNat e.id.tx ++ (encodeNat e.amount ++ encodeNat e.output))

def decodeEdict (bs : Script) : Option (Edict × Script) := do
  let (block, bs) ← decodeNat bs
  let (tx, bs) ← decodeNat bs
  let (amount, bs) ← decodeNat bs
  let (output, bs) ← decodeNat bs
  pure (⟨⟨block, tx⟩, amount, output⟩, bs)

def decodeEdicts : ℕ → Script → Option (List Edict)
  | 0, _ => some []
  | n + 1, bs => do
      let (e, bs) ← decodeEdict bs
      let es ← decodeEdicts n bs
      pure (e :: es)

def encode (r : Runestone) : Script :=
  encodeNat (if r.mint = none ∧ r.etching = none then 0 else 1) ++
    (encodeNat (match r.pointer with
      | none => 0
      | some p => p + 1) ++
    (encodeNat r.edicts.length ++ r.edicts.flatMap encodeEdict))

def decode (bs : Script) : Option Runestone := do
  let (flag, bs) ← decodeNat bs
  let (pointer, bs) ← decodeNat bs
  let (n, bs) ← decodeNat bs
  let es ← decodeEdicts n bs
  if flag = 0 then pure ⟨es, none, none, if pointer = 0 then none else some (pointer - 1)⟩ else none

lemma decodeEdict_encodeEdict (e : Edict) (rest : Script) :
    decodeEdict (encodeEdict e ++ rest) = some (e, rest) := by
  simp [decodeEdict, encodeEdict, List.append_assoc, decodeNat_encodeNat]

lemma decodeEdicts_encodeEdicts (es : List Edict) :
    decodeEdicts es.length (es.flatMap encodeEdict) = some es := by
  induction es with
  | nil => rfl
  | cons e es ih =>
      simp [decodeEdicts, List.flatMap_cons, decodeEdict_encodeEdict, ih]

lemma decode_encode {r : Runestone} (hmint : r.mint = none) (hetching : r.etching = none) :
    decode (encode r) = some r := by
  obtain ⟨edicts, etching, mint, pointer⟩ := r
  obtain rfl : mint = none := hmint
  obtain rfl : etching = none := hetching
  cases pointer <;>
    simp [decode, encode, decodeNat_encodeNat, decodeEdicts_encodeEdicts]

instance (r : Runestone) (n : ℕ) : Decidable (r.Encodable n) :=
  decidable_of_iff ((∀ e ∈ r.edicts, (0 < e.id.block ∨ e.id.tx = 0) ∧ e.amount < 2 ^ 128 ∧
      e.output ≤ n) ∧ ∀ p ∈ r.pointer, p < n) <| by
    constructor
    · rintro ⟨hedicts, hpointer⟩
      exact ⟨fun e he => (hedicts e he).1, fun e he => (hedicts e he).2.1,
        fun e he => (hedicts e he).2.2, hpointer⟩
    · intro h
      exact ⟨fun e he => ⟨h.id_valid e he, h.amount_lt e he, h.output_le e he⟩, h.pointer_lt⟩

/-- The runestone of the first output, if that is one. -/
def decipher : List Script → Option Artifact
  | (b :: bs) :: rest =>
      if b = OP_RETURN then
        match decode bs with
        | some r => if r.Encodable (rest.length + 1) then some (.runestone r)
            else some (.cenotaph none)
        | none => some (.cenotaph none)
      else none
  | _ => none

/-- Addresses are the bytes of their text after a zero byte. -/
def codec : Codec where
  addressScript address := .ok (0 :: Packed.ascii address)
  isValidScript _ := true
  isOpReturn script := script.head? = some OP_RETURN
  encipher r := .ok (OP_RETURN :: encode r)
  decipher := decipher

theorem codec_lawful : codec.Lawful where
  encipher_ok r n _ := ⟨_, rfl⟩
  isOpReturn_encipher r script h := by
    obtain rfl := Except.ok.inj h
    rfl
  isOpReturn_addressScript address script h := by
    obtain rfl := Except.ok.inj h
    rfl
  decipher_encipher r script rest h hmint hetching hr := by
    obtain rfl := Except.ok.inj h
    refine ⟨r, ?_, List.Perm.refl _, rfl, hmint, hetching⟩
    change decipher ((OP_RETURN :: encode r) :: rest) = some (.runestone r)
    rw [decipher, if_pos rfl, decode_encode hmint hetching]
    exact if_pos hr
  decipher_encodable scripts r h := by
    change decipher scripts = _ at h
    match scripts, h with
    | (b :: bs) :: rest, h =>
        rw [decipher] at h
        split at h
        · split at h
          · split at h
            · rename_i r' _ henc
              obtain rfl := Artifact.runestone.inj (Option.some.inj h)
              exact henc
            · exact absurd h (by simp)
          · exact absurd h (by simp)
        · exact absurd h (by simp)

end UnaryCodec

/-! ## A wallet -/

namespace ExampleWallet

/-- The rune named by one letter. -/
def rune : Rune := ⟨"A", 0, by decide⟩

def runeId : Runes.RuneId := ⟨1, 0⟩

def runeUtxo : UTXO := ⟨"aa", 0, 10000, 7, none, some "deposit", some [81]⟩

def btcUtxo : UTXO := ⟨"bb", 1, 100000, 9, none, some "change", some [81]⟩

def utxos : List UTXO := [runeUtxo, btcUtxo]

/-- Eight units of the rune lie on the first output. -/
def chain : Chain := fun o id => if o = runeUtxo.outpoint ∧ id = runeId then 8 else 0

def runeResponse : RuneResponse := ⟨runeId, ⟨"A", "A", 0, false⟩⟩

def ord : OrdApiClient where
  getRune name := .ok (if name = "A" then some runeResponse else none)
  getOutput txid vout := .ok
    { indexed := true, spent := false, transaction := txid, value := 10000
      runes := if (⟨txid, vout⟩ : Outpoint) = runeUtxo.outpoint then [("A", ⟨8, 0⟩)] else []
      inscriptions := [] }

def rpc : BitcoinRpc where
  listunspent := .ok utxos
  gettransaction txid := .ok
    ⟨[], if txid = "aa" then [⟨10000, [0]⟩] else [⟨5, [0]⟩, ⟨100000, [0]⟩], [], 0⟩
  listsinceblock _ _ := .ok ⟨"genesis", []⟩

def ms : OrdMultisig where
  numRequiredSigners := 1
  masterFingerprint := [1, 2, 3, 4]
  multisigRedeemScript := [81]
  changeAddress := "change"
  changeScriptPubkey := 0 :: Packed.ascii "change"
  minNonChangeRuneUtxoConfirmations := 1
  parseDescriptor _ := .ok ⟨[[1, 2, 3, 4]]⟩
  deriveAddress index :=
    if index = 0 then "change" else String.ofList ('u' :: List.replicate index 'x')
  keyStoreSign psbt := .ok (psbt.inputs.length, psbt)
  signerXpub := "xpub"

def transfer (amount : ℤ) : RuneTransfer := { rune := rune, receiver := "user", amount := amount }

/-- A transfer of a rune `ord` does not know. -/
def unknownTransfer : RuneTransfer :=
  { rune := ⟨"C", 2, by decide⟩, receiver := "user", amount := 1 }

lemma exists_injective_rune : ∃ f : Rune → ℕ, Function.Injective f := by
  have hchar : Countable Char :=
    Function.Injective.countable (f := Char.toNat) fun c d h => Char.ext (UInt32.toNat_inj.1 h)
  have hrune : Function.Injective fun r : Rune => r.name.toList := by
    intro r r' h
    obtain ⟨name, n, hn⟩ := r
    obtain ⟨name', n', hn'⟩ := r'
    obtain rfl : name = name' := String.toList_inj.1 h
    rw [hn] at hn'
    obtain rfl := Option.some.inj hn'
    rfl
  have hcountable : Countable Rune := hrune.countable
  exact hcountable.exists_injective_nat

/-- An id for every rune, `runeId` for the one on the wallet. -/
noncomputable def idOf (r : Rune) : Runes.RuneId :=
  if r = rune then runeId else ⟨exists_injective_rune.choose r + 2, 0⟩

lemma idOf_rune : idOf rune = runeId := if_pos rfl

lemma names : ord.Names idOf where
  injective r r' h := by
    unfold idOf at h
    by_cases hr : r = rune <;> by_cases hr' : r' = rune
    · rw [hr, hr']
    · simp [hr, hr', runeId] at h
    · simp [hr, hr', runeId] at h
    · simp only [hr, hr', if_false, Runes.RuneId.mk.injEq, add_left_inj, and_true] at h
      exact exists_injective_rune.choose_spec h
  block_pos r := by
    unfold idOf
    split
    · decide
    · exact Nat.succ_pos _
  getRune r response h := by
    have hsome : (if r.name = "A" then some runeResponse else none) =
        some response := Except.ok.inj h
    by_cases hr : r.name = "A"
    · have hrune : r = rune := by
        obtain ⟨name, n, hn⟩ := r
        obtain rfl : name = "A" := hr
        have h0 := rune.number_name
        rw [show rune.name = "A" from rfl, hn] at h0
        obtain rfl := Option.some.inj h0
        rfl
      rw [if_pos hr] at hsome
      rw [← Option.some.inj hsome, hrune, idOf_rune]
      rfl
    · rw [if_neg hr] at hsome
      exact absurd hsome (by simp)

lemma reports : ∀ u ∈ utxos, ord.Reports idOf chain u.outpoint := by
  intro u hu
  rcases List.mem_cons.1 hu with rfl | hu
  · refine ⟨_, rfl, rfl, rfl, [(rune, 8)], ?_, by simp, ?_, fun id hid => ?_⟩
    · exact .cons ⟨runeFromStr_name rune, rfl⟩ .nil
    · intro b hb
      obtain rfl : b = (rune, 8) := by simpa using hb
      rw [idOf_rune]
      rfl
    · by_cases h : id = runeId
      · exact ⟨(rune, 8), by simp, by rw [idOf_rune, h]⟩
      · exact absurd (if_neg fun h' => h h'.2) hid
  · obtain rfl : u = btcUtxo := by simpa using hu
    refine ⟨_, rfl, rfl, rfl, [], ?_, by simp, by simp, fun id hid => ?_⟩
    · exact .nil
    · exact absurd (if_neg fun h' => absurd h'.1 (by decide)) hid

lemma owns : ∀ u ∈ utxos, u.witnessScript.isSome = true → ms.Owns rpc u := by
  intro u hu _
  refine ⟨?_, _, rfl, by decide⟩
  rcases List.mem_cons.1 hu with rfl | hu
  · exact ⟨_, _, rfl, rfl⟩
  · obtain rfl : u = btcUtxo := by simpa using hu
    exact ⟨_, _, rfl, rfl⟩

lemma payable {amount : ℤ} (hpos : 0 < amount) (hlt : amount < 2 ^ 128) :
    OrdMultisig.Payable ord UnaryCodec.codec (transfer amount) where
  valid := by
    simp only [RuneTransfer.assertValid, Checked.bind_eq_ok, Checked.exists_unit,
      Checked.require_eq_ok]
    have hpostage : (0 : ℤ) < 10000 := by norm_num
    exact ⟨hpostage, hpos.ne', hpos, _, rfl, rfl⟩
  amount_lt := hlt
  known := ⟨_, rfl⟩

lemma deriveAddress_injective : Function.Injective ms.deriveAddress := by
  intro i j h
  have hne (k : ℕ) : String.ofList ('u' :: List.replicate k 'x') ≠ "change" := by
    intro heq
    have hlist := congrArg String.toList heq
    rw [String.toList_ofList] at hlist
    exact absurd (List.cons.inj hlist).1 (by decide)
  simp only [ms] at h
  by_cases hi : i = 0 <;> by_cases hj : j = 0
  · rw [hi, hj]
  · rw [if_pos hi, if_neg hj] at h
    exact absurd h.symm (hne j)
  · rw [if_neg hi, if_pos hj] at h
    exact absurd h (hne i)
  · rw [if_neg hi, if_neg hj] at h
    have hlist := congrArg (fun s => s.toList.length) h
    simpa using hlist

end ExampleWallet

end NbteBridge
