import NbteBridge.Ord.Multisig

/-!
# What the node relies on

The behaviour of `ord`, of the runestone codec and of the wallet that results about the multisig
assume.  The runes that really lie on an output are a parameter, `chain`; `ord` *reports* an output
when it has indexed it and its answer agrees with the chain.
-/

namespace NbteBridge

open Checked

/-- The runes on each output of the chain. -/
abbrev Chain := Outpoint → Runes.Balances

/-- Rune names and ids correspond one to one, and `ord` answers with the id of the name. -/
structure OrdApiClient.Names (ord : OrdApiClient) (idOf : Rune → Runes.RuneId) : Prop where
  injective : Function.Injective idOf
  block_pos : ∀ r, 0 < (idOf r).block
  getRune : ∀ (r : Rune) response, ord.getRune r.name = .ok (some response) →
    response.id = idOf r

/-- `ord` has indexed the output and reports its balances correctly, each rune once. -/
structure OrdApiClient.Reports (ord : OrdApiClient) (idOf : Rune → Runes.RuneId) (chain : Chain)
    (o : Outpoint) : Prop where
  report : ∃ response, ord.getOutput o.txid o.vout = .ok response ∧ response.indexed = true ∧
    response.transaction = o.txid ∧ ∃ balances : List (Rune × ℕ),
      List.Forall₂ (fun e b => runeFromStr e.1 = .ok b.1 ∧ e.2.amount = b.2) response.runes balances ∧
      (balances.map Prod.fst).Nodup ∧ (∀ b ∈ balances, chain o (idOf b.1) = b.2) ∧
      ∀ id, chain o id ≠ 0 → ∃ b ∈ balances, idOf b.1 = id

/-- The codec follows the specification of runestones.  Enciphering sorts the edicts. -/
structure Codec.Lawful (codec : Codec) : Prop where
  encipher_ok : ∀ (r : Runes.Runestone) n, r.Encodable n → ∃ script, codec.encipher r = .ok script
  isOpReturn_encipher : ∀ r script, codec.encipher r = .ok script → codec.isOpReturn script = true
  isOpReturn_addressScript : ∀ address script, codec.addressScript address = .ok script →
    codec.isOpReturn script = false
  decipher_encipher : ∀ (r : Runes.Runestone) script rest, codec.encipher r = .ok script →
    r.mint = none → r.etching = none → r.Encodable (rest.length + 1) → ∃ r' : Runes.Runestone,
      codec.decipher (script :: rest) = some (.runestone r') ∧ r'.edicts.Perm r.edicts ∧
      r'.pointer = r.pointer ∧ r'.mint = none ∧ r'.etching = none
  decipher_encodable : ∀ scripts r, codec.decipher scripts = some (.runestone r) →
    r.Encodable scripts.length

/-- What the wallet promises of an output it can sign for: its transaction is known, and its
descriptor is the multisig's. -/
structure OrdMultisig.Owns (ms : OrdMultisig) (rpc : BitcoinRpc) (u : UTXO) : Prop where
  transaction : ∃ tx txout, rpc.gettransaction u.txid = .ok tx ∧ tx.vout[u.vout]? = some txout
  descriptor : ∃ d, ms.parseDescriptor u.desc = .ok d ∧ ms.masterFingerprint ∈ d.masterFingerprints

/-- A transfer that passes the source's own check, in an amount the protocol can express, of a rune
`ord` knows. -/
structure OrdMultisig.Payable (ord : OrdApiClient) (codec : Codec) (t : RuneTransfer) : Prop where
  valid : t.assertValid codec = .ok ()
  amount_lt : t.amount < 2 ^ 128
  known : ∃ response, ord.getRune t.rune.name = .ok (some response)

lemma OrdMultisig.Payable.amount_pos {ord : OrdApiClient} {codec : Codec}
    {t : RuneTransfer} (h : Payable ord codec t) : 0 < t.amount := by
  have hvalid := h.valid
  simp only [RuneTransfer.assertValid, bind_eq_ok, exists_unit, require_eq_ok] at hvalid
  exact hvalid.2.2.1

/-! ## Reported outputs -/

variable {ord : OrdApiClient} {idOf : Rune → Runes.RuneId} {chain : Chain}

/-- Names that are distinct and all parse are collected in order. -/
lemma normalizedBalances_ok {runes : List (String × RuneBalanceEntry)}
    {balances seen : List (Rune × ℕ)}
    (h : List.Forall₂ (fun e b => runeFromStr e.1 = .ok b.1 ∧ e.2.amount = b.2) runes balances)
    (hnodup : ((seen ++ balances).map Prod.fst).Nodup) :
    normalizedBalances runes seen = .ok (seen ++ balances) := by
  induction h generalizing seen with
  | nil => simp [normalizedBalances]
  | @cons e b runes balances heb hrest ih =>
      obtain ⟨name, entry⟩ := e
      obtain ⟨rune, amount'⟩ := b
      obtain ⟨hparse, hamount⟩ := heb
      obtain rfl : entry.amount = amount' := hamount
      have hassoc : seen ++ (rune, entry.amount) :: balances =
          (seen ++ [(rune, entry.amount)]) ++ balances := by
        simp
      rw [hassoc] at hnodup ⊢
      have hnew : rune ∉ seen.map Prod.fst := by
        rw [List.map_append, List.map_append] at hnodup
        have hleft := (List.nodup_append.1 (List.nodup_append.1 hnodup).1).2.2
        intro hmem
        exact hleft rune hmem rune (by simp) rfl
      show (runeFromStr name >>= _) = _
      rw [hparse, ok_bind, require_of hnew]
      exact ih hnodup

lemma balanceOf_of_mem {o : OrdOutput} (hnodup : (o.runeBalances.map Prod.fst).Nodup)
    {b : Rune × ℕ} (hb : b ∈ o.runeBalances) : o.balanceOf b.1 = b.2 := by
  unfold OrdOutput.balanceOf
  cases hfind : o.runeBalances.find? fun e => decide (e.1 = b.1) with
  | none =>
      have hnone := List.find?_eq_none.1 hfind b hb
      exact absurd (decide_eq_true rfl) hnone
  | some e =>
      have hname : e.1 = b.1 := by simpa using List.find?_some hfind
      have heq : e = b := List.inj_on_of_nodup_map hnodup (List.mem_of_find?_eq_some hfind) hb hname
      rw [heq]
      rfl

/-- The node's view of a reported output is the chain's. -/
theorem OrdApiClient.Reports.getOrdOutput {o : Outpoint} (h : ord.Reports idOf chain o)
    (hid : Function.Injective idOf) :
    ∃ output, ord.getOrdOutput o.txid o.vout = .ok output ∧
      (∀ r, output.balanceOf r = chain o (idOf r)) ∧
      (output.hasRuneBalances = false → ∀ id, chain o id = 0) := by
  obtain ⟨response, hresponse, hindexed, htx, balances, hall, hnodup, hamount, hcover⟩ := h.report
  refine ⟨⟨o.txid, o.vout, response.value, balances, response.inscriptions⟩, ?_, fun r => ?_,
    fun hnone id => ?_⟩
  · simp only [OrdApiClient.getOrdOutput, bind_eq_ok, exists_unit, require_eq_ok, pure_eq_ok]
    exact ⟨response, hresponse, hindexed, htx, balances, normalizedBalances_ok hall hnodup, rfl⟩
  · by_cases hr : r ∈ balances.map Prod.fst
    · obtain ⟨b, hb, rfl⟩ := List.mem_map.1 hr
      rw [balanceOf_of_mem hnodup hb, hamount b hb]
    · have hzero : chain o (idOf r) = 0 := by
        by_contra hne
        obtain ⟨b, hb, hid'⟩ := hcover _ hne
        exact hr (List.mem_map.2 ⟨b, hb, hid hid'⟩)
      have hfind : balances.find? (fun e => decide (e.1 = r)) = none := by
        refine List.find?_eq_none.2 fun e he heq => hr ?_
        exact List.mem_map.2 ⟨e, he, by simpa using heq⟩
      rw [hzero]
      show ((balances.find? fun e => decide (e.1 = r)).map Prod.snd).getD 0 = 0
      rw [hfind]
      rfl
  · by_contra hne
    obtain ⟨b, hb, -⟩ := hcover id hne
    have hempty : balances = [] := by simpa [OrdOutput.hasRuneBalances] using hnone
    rw [hempty] at hb
    exact absurd hb (by simp)

end NbteBridge
