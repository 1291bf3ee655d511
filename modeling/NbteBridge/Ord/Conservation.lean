import NbteBridge.Ord.CoinSelection
import NbteBridge.Ord.Reference

/-!
# Rune conservation of create_rune_psbt

The transaction `create_rune_psbt` returns, settled under the Runes protocol with the runes that
really lie on its inputs: every receiver gets exactly its transfer, the change output all the rest,
and nothing is burned.  The edicts ask for what the transfers ask for (`transferEdicts_ok`), the
selected inputs hold it (`selectRunes_ok`), and the runestone is funded (`Runes.settle_of_funded`).
-/

namespace NbteBridge

open Checked

/-! ## A transaction under the Runes protocol -/

namespace Transaction

variable (codec : Codec) (chain : Chain) (tx : Transaction)

def scripts : List Script := tx.vout.map TxOut.scriptPubKey

/-- The runes of the inputs. -/
def inputRunes : Runes.Balances := fun id => (tx.vin.map fun o => chain o id).sum

/-- Where the transaction's runes end up. -/
def settle (i : Runes.Issuance) : Runes.Settlement :=
  Runes.settle (tx.scripts.map codec.isOpReturn) i (codec.decipher tx.scripts)
    (tx.inputRunes chain)

end Transaction

/-- The amount of a rune that transfers ask for. -/
def requestedRunes (idOf : Rune → Runes.RuneId) (transfers : List RuneTransfer) :
    Runes.Balances :=
  fun id => (transfers.map fun t => if idOf t.rune = id then t.amount.toNat else 0).sum

namespace OrdMultisig

variable {ms : OrdMultisig} {rpc : BitcoinRpc} {ord : OrdApiClient} {codec : Codec}
  {idOf : Rune → Runes.RuneId} {chain : Chain}

/-! ## Edicts of the transfers -/

lemma transferEdict_ok (hn : ord.Names idOf) (hc : codec.Lawful) {k : ℕ} {t : RuneTransfer}
    {e : Runes.Edict × TxOut} (h : transferEdict ord codec k t = .ok e) :
    e.1 = ⟨idOf t.rune, t.amount.toNat, k⟩ ∧ 0 < t.amount ∧ t.amount < 2 ^ 128 ∧
      codec.isOpReturn e.2.scriptPubKey = false := by
  simp only [transferEdict, pyordEdict, bind_eq_ok, exists_unit, require_eq_ok, orError_eq_ok,
    pure_eq_ok] at h
  obtain ⟨-, response?, hresponse, response, rfl, -, hpos, edict, ⟨hbound, rfl⟩, script, hscript,
    rfl⟩ := h
  rw [hn.getRune _ _ hresponse]
  exact ⟨rfl, hpos, hbound.2, hc.isOpReturn_addressScript _ _ hscript⟩

/-- What the edicts of the transfers ask for, in total and at each output. -/
structure EdictsOf (codec : Codec) (idOf : Rune → Runes.RuneId) (k : ℕ)
    (transfers : List RuneTransfer) (es : List (Runes.Edict × TxOut)) : Prop where
  length : es.length = transfers.length
  amount_pos : ∀ t ∈ transfers, 0 < t.amount
  edict : ∀ e ∈ es, (∃ t ∈ transfers, e.1.id = idOf t.rune) ∧ 0 < e.1.amount ∧
    e.1.amount < 2 ^ 128 ∧ k ≤ e.1.output ∧ e.1.output < k + transfers.length
  notOpReturn : ∀ e ∈ es, codec.isOpReturn e.2.scriptPubKey = false
  requested : ∀ id, Runes.requested (es.map Prod.fst) id = requestedRunes idOf transfers id
  requestedAt : ∀ i t, transfers[i]? = some t → ∀ id,
    Runes.requestedAt (es.map Prod.fst) (k + i) id =
      if idOf t.rune = id then t.amount.toNat else 0
  elsewhere : ∀ o, o < k ∨ k + transfers.length ≤ o → ∀ id,
    Runes.requestedAt (es.map Prod.fst) o id = 0

/-- **The edicts ask for what the transfers ask for.** -/
theorem transferEdicts_ok (hn : ord.Names idOf) (hc : codec.Lawful) {k : ℕ}
    {transfers : List RuneTransfer} {es : List (Runes.Edict × TxOut)}
    (h : transferEdicts ord codec k transfers = .ok es) : EdictsOf codec idOf k transfers es := by
  induction transfers generalizing k es with
  | nil =>
      obtain rfl := pure_eq_ok.1 h
      exact ⟨rfl, by simp, by simp, by simp, fun _ => rfl, by simp, fun _ _ _ => rfl⟩
  | cons t transfers ih =>
      simp only [transferEdicts, bind_eq_ok, pure_eq_ok] at h
      obtain ⟨e, he, es, hes, rfl⟩ := h
      obtain ⟨hedict, hpos, hlt, hscript⟩ := transferEdict_ok hn hc he
      have hrest := ih hes
      refine ⟨by simp [hrest.length], ?_, ?_, ?_, fun id => ?_, fun i t' hi id => ?_,
        fun o ho id => ?_⟩
      · intro t' ht'
        rcases List.mem_cons.1 ht' with rfl | ht'
        · exact hpos
        · exact hrest.amount_pos t' ht'
      · intro e' he'
        rcases List.mem_cons.1 he' with rfl | he'
        · rw [hedict]
          exact ⟨⟨t, by simp, rfl⟩, by simpa using hpos, by simpa using hlt, le_rfl, by simp⟩
        · obtain ⟨⟨t', ht', hid⟩, hp, hl, hk, hk'⟩ := hrest.edict e' he'
          refine ⟨⟨t', by simp [ht'], hid⟩, hp, hl, by omega, ?_⟩
          rw [List.length_cons]
          omega
      · intro e' he'
        rcases List.mem_cons.1 he' with rfl | he'
        · exact hscript
        · exact hrest.notOpReturn e' he'
      · rw [List.map_cons, Runes.requested_cons, hrest.requested, hedict]
        simp [requestedRunes]
      · rw [List.map_cons, Runes.requestedAt_cons, hedict]
        cases i with
        | zero =>
            obtain rfl : t = t' := by simpa using hi
            rw [add_zero, hrest.elsewhere k (by omega)]
            simp
        | succ i =>
            have hoff := hrest.requestedAt i t' (by simpa using hi) id
            have hindex : k + 1 + i = k + (i + 1) := by omega
            have hother : ¬ (idOf t.rune = id ∧ k = k + (i + 1)) := fun h => by omega
            rw [hindex] at hoff
            rw [hoff]
            exact (congrArg (· + _) (if_neg hother)).trans (zero_add _)
      · rw [List.length_cons] at ho
        have hother : ¬ (idOf t.rune = id ∧ k = o) := fun h => by omega
        rw [List.map_cons, Runes.requestedAt_cons, hedict, hrest.elsewhere o (by omega), add_zero]
        exact if_neg hother

/-! ## Required amounts -/

lemma mem_usedRunes {transfers : List RuneTransfer} {r : Rune} :
    r ∈ (requiredRuneAmounts transfers).usedRunes ↔ ∃ t ∈ transfers, t.rune = r := by
  simp [requiredRuneAmounts, List.mem_eraseDups]

/-- With positive amounts, what the loop is required to select is what the transfers ask for. -/
lemma amount_requiredRuneAmounts (hid : Function.Injective idOf) {transfers : List RuneTransfer}
    (hpos : ∀ t ∈ transfers, 0 < t.amount) (r : Rune) :
    (requiredRuneAmounts transfers).amount r = requestedRunes idOf transfers (idOf r) := by
  unfold requiredRuneAmounts requestedRunes
  induction transfers with
  | nil => rfl
  | cons t transfers ih =>
      have hrest := ih fun t' ht' => hpos t' (by simp [ht'])
      have ht := hpos t (by simp)
      simp only [List.map_cons, List.sum_cons, Nat.cast_add] at hrest ⊢
      rw [hrest]
      by_cases hr : t.rune = r
      · rw [if_pos hr, if_pos (by rw [hr]), Int.toNat_of_nonneg ht.le]
      · rw [if_neg hr, if_neg fun h => hr (hid h)]
        rfl

lemma amount_le_requestedRunes (idOf : Rune → Runes.RuneId) {transfers : List RuneTransfer}
    {t : RuneTransfer} (ht : t ∈ transfers) :
    t.amount.toNat ≤ requestedRunes idOf transfers (idOf t.rune) := by
  have hmem : t.amount.toNat ∈
      transfers.map fun t' => if idOf t'.rune = idOf t.rune then t'.amount.toNat else 0 :=
    List.mem_map.2 ⟨t, ht, by simp⟩
  exact List.le_sum_of_mem hmem

lemma requestedRunes_eq_zero {transfers : List RuneTransfer} {id : Runes.RuneId}
    (h : ∀ t ∈ transfers, idOf t.rune ≠ id) : requestedRunes idOf transfers id = 0 := by
  refine List.sum_eq_zero fun x hx => ?_
  obtain ⟨t, ht, rfl⟩ := List.mem_map.1 hx
  exact if_neg (h t ht)

/-! ## The transaction returned -/

/-- The parts of the returned transaction. -/
structure Built (ms : OrdMultisig) (codec : Codec) (es : List (Runes.Edict × TxOut))
    (selected : List UTXO) (tx : Transaction) : Prop where
  vin : tx.vin = selected.map UTXO.outpoint
  vout : ∃ script change, codec.encipher ⟨es.map Prod.fst, none, none, some 1⟩ = .ok script ∧
    tx.scripts = script :: ms.changeScriptPubkey ::
      (es.map (fun e => e.2.scriptPubKey) ++ change) ∧
    ∀ s ∈ change, s = ms.changeScriptPubkey

lemma foldl_addOutput (psbt : Psbt) (outs : List TxOut) :
    (outs.foldl Psbt.addOutput psbt).unsignedTx.vin = psbt.unsignedTx.vin ∧
      (outs.foldl Psbt.addOutput psbt).unsignedTx.vout = psbt.unsignedTx.vout ++ outs := by
  induction outs generalizing psbt with
  | nil => simp
  | cons out outs ih =>
      obtain ⟨hvin, hvout⟩ := ih (psbt.addOutput out)
      refine ⟨hvin, ?_⟩
      rw [List.foldl_cons, hvout]
      simp [Psbt.addOutput]

lemma finishPsbt_ok {feeRate outputAmountSat : ℤ} {maxNumInputs : ℕ} {s : Selection} {psbt : Psbt}
    (h : ms.finishPsbt feeRate outputAmountSat maxNumInputs s = .ok psbt) :
    psbt.unsignedTx.vin = s.psbt.unsignedTx.vin ∧
      ∃ change, psbt.unsignedTx.vout = s.psbt.unsignedTx.vout ++ change ∧
        ∀ out ∈ change, out.scriptPubKey = ms.changeScriptPubkey := by
  simp only [finishPsbt, bind_eq_ok, exists_unit, pure_eq_ok] at h
  obtain ⟨-, -, fee, -, -, rfl⟩ := h
  split
  · exact ⟨rfl, [_], rfl, by simp⟩
  · exact ⟨rfl, [], by simp, by simp⟩

/-- **What create_rune_psbt builds**: the edicts of the transfers, on inputs that hold what the
edicts ask for. -/
theorem createRunePsbt_built (hn : ord.Names idOf) (hc : codec.Lawful) {utxos : List UTXO}
    (hlist : rpc.listunspent = .ok utxos)
    (hall : ∀ u ∈ utxos, ord.Reports idOf chain u.outpoint) {transfers : List RuneTransfer}
    {feeRate : ℤ} {maxNumInputs : ℕ} {psbt : Psbt}
    (h : ms.createRunePsbt rpc ord codec transfers feeRate maxNumInputs = .ok psbt) :
    ∃ es selected, EdictsOf codec idOf 2 transfers es ∧
      Built ms codec es selected psbt.unsignedTx ∧
      ∀ id, requestedRunes idOf transfers id ≤ runesOf chain selected id := by
  simp only [createRunePsbt, createRunePsbtSelecting, listUtxos, hlist, bind_eq_ok, exists_unit,
    pure_eq_ok, Prod.exists] at h
  obtain ⟨psbt', outs, ⟨-, es, hes, -, initial, hinitial, _, ⟨_, hutxos, rfl⟩, s₁, hs₁, s₂, hs₂,
    final, hfinal, hresult⟩, rfl⟩ := h
  obtain rfl := Except.ok.inj hutxos
  obtain ⟨rfl, -⟩ := Prod.mk.inj hresult
  have hedicts := transferEdicts_ok hn hc hes
  have hall' : ∀ u ∈ utxos.insertionSort (fun u v => v.confirmations ≤ u.confirmations),
      ord.Reports idOf chain u.outpoint :=
    fun u hu => hall u ((List.mem_insertionSort _).1 hu)
  obtain ⟨new, hext₁, -, hamount⟩ := selectRunes_ok hn.injective hall' hs₁
  obtain ⟨fees, hext₂, hfees⟩ := selectFee_ok hn.injective hall' hs₂
  have hext := hext₁.trans hext₂
  obtain ⟨hvin, change, hvout, hchange⟩ := finishPsbt_ok hfinal
  simp only [initialPsbt, bind_eq_ok, pure_eq_ok] at hinitial
  obtain ⟨script, hscript, rfl⟩ := hinitial
  obtain ⟨hvin₀, hvout₀⟩ := foldl_addOutput ((Psbt.empty.addOutput ⟨0, script⟩).addOutput
    ⟨TARGET_POSTAGE_SAT, ms.changeScriptPubkey⟩) (es.map Prod.snd)
  refine ⟨es, new ++ fees, hedicts, ⟨?_, script, change.map TxOut.scriptPubKey, hscript, ?_, ?_⟩,
    fun id => ?_⟩
  · rw [hvin, hext.vin, hvin₀]
    rfl
  · rw [Transaction.scripts, hvout, hext.vout, hvout₀]
    simp [Psbt.addOutput, Psbt.empty]
  · intro s hs
    obtain ⟨out, hout, rfl⟩ := List.mem_map.1 hs
    exact hchange out hout
  · -- the outputs selected for the fee hold no runes, those for the runes hold enough
    by_cases hused : ∃ t ∈ transfers, idOf t.rune = id
    · obtain ⟨t, ht, rfl⟩ := hused
      have hle := hamount t.rune (mem_usedRunes.2 ⟨t, ht, rfl⟩)
      rw [amount_requiredRuneAmounts hn.injective hedicts.amount_pos] at hle
      rw [runesOf_append]
      omega
    · push Not at hused
      rw [requestedRunes_eq_zero hused]
      exact Nat.zero_le _

/-! ## Its settlement -/

/-- Settled, the transaction pays the transfers exactly, sends every other rune of its inputs to
the change output at index 1, and burns nothing. -/
structure Conserves (codec : Codec) (idOf : Rune → Runes.RuneId) (chain : Chain)
    (i : Runes.Issuance) (transfers : List RuneTransfer) (tx : Transaction) : Prop where
  runestone : ∃ r, codec.decipher tx.scripts = some (.runestone r)
  funded : ∀ id, requestedRunes idOf transfers id ≤ tx.inputRunes chain id
  receivers : ∀ n t, transfers[n]? = some t → ∀ id,
    (tx.settle codec chain i).outputs (n + 2) id =
      if idOf t.rune = id then t.amount.toNat else 0
  change : ∀ id, (tx.settle codec chain i).outputs 1 id =
    tx.inputRunes chain id - requestedRunes idOf transfers id
  others : ∀ o, o = 0 ∨ transfers.length + 2 ≤ o → ∀ id,
    (tx.settle codec chain i).outputs o id = 0
  burned : ∀ id, (tx.settle codec chain i).burned id = 0

section Settle

variable {es : List (Runes.Edict × TxOut)} {selected : List UTXO} {tx : Transaction}
  {transfers : List RuneTransfer}

/-- The outputs that get runes are no `OP_RETURN`. -/
lemma Built.notOpReturn (hb : Built ms codec es selected tx)
    (he : EdictsOf codec idOf 2 transfers es)
    (hchange : codec.isOpReturn ms.changeScriptPubkey = false) {o : ℕ} (hpos : 1 ≤ o)
    (hlt : o < transfers.length + 2) :
    (tx.scripts.map codec.isOpReturn)[o]? = some false := by
  obtain ⟨script, change, -, hscripts, -⟩ := hb.vout
  rw [hscripts, List.getElem?_map]
  cases o with
  | zero => exact absurd hpos (by omega)
  | succ o =>
      cases o with
      | zero => simp [hchange]
      | succ n =>
          have hn : n < es.length := by
            rw [he.length]
            omega
          have hout := he.notOpReturn es[n] (List.getElem_mem hn)
          simp [List.getElem?_append_left, hn, hout]

lemma Built.length_scripts (hb : Built ms codec es selected tx)
    (he : EdictsOf codec idOf 2 transfers es) : transfers.length + 2 ≤ tx.scripts.length := by
  obtain ⟨script, change, -, hscripts, -⟩ := hb.vout
  rw [hscripts, ← he.length]
  simp

lemma Built.inputRunes (hb : Built ms codec es selected tx) (id : Runes.RuneId) :
    tx.inputRunes chain id = runesOf chain selected id := by
  simp [Transaction.inputRunes, runesOf, hb.vin, Function.comp_def]

/-- **Settlement of the returned transaction.** -/
theorem Built.conserves (hb : Built ms codec es selected tx) (hn : ord.Names idOf)
    (hc : codec.Lawful) (hchange : codec.isOpReturn ms.changeScriptPubkey = false)
    (he : EdictsOf codec idOf 2 transfers es)
    (hfunded : ∀ id, requestedRunes idOf transfers id ≤ runesOf chain selected id)
    (i : Runes.Issuance) : Conserves codec idOf chain i transfers tx := by
  have hlen := hb.length_scripts he
  have hfunded' (id : Runes.RuneId) :
      requestedRunes idOf transfers id ≤ tx.inputRunes chain id := by
    rw [hb.inputRunes]
    exact hfunded id
  obtain ⟨script, change, hscript, hscripts, -⟩ := hb.vout
  -- what is deciphered is what was enciphered, with the edicts in another order
  have hedict (e : Runes.Edict) (h : e ∈ es.map Prod.fst) : (∃ t ∈ transfers, e.id = idOf t.rune) ∧
      0 < e.amount ∧ e.amount < 2 ^ 128 ∧ 2 ≤ e.output ∧ e.output < 2 + transfers.length := by
    obtain ⟨e', he', rfl⟩ := List.mem_map.1 h
    exact he.edict e' he'
  have hencodable : (⟨es.map Prod.fst, none, none, some 1⟩ : Runes.Runestone).Encodable
      ((ms.changeScriptPubkey :: (es.map (fun e => e.2.scriptPubKey) ++ change)).length + 1) := by
    rw [hscripts, List.length_cons] at hlen
    refine ⟨fun e h => ?_, fun e h => (hedict e h).2.2.1, fun e h => ?_, fun p hp => ?_⟩
    · obtain ⟨t, -, hid⟩ := (hedict e h).1
      rw [hid]
      exact .inl (hn.block_pos _)
    · have hout := (hedict e h).2.2.2.2
      omega
    · obtain rfl := Option.some.inj hp
      omega
  obtain ⟨r, hdecipher, hperm, hpointer, hmint, hetching⟩ :=
    hc.decipher_encipher _ _ _ hscript rfl rfl hencodable
  rw [← hscripts] at hdecipher
  have hmem (e : Runes.Edict) (h : e ∈ r.edicts) : e ∈ es.map Prod.fst := hperm.mem_iff.1 h
  have hplain (e : Runes.Edict) (h : e ∈ r.edicts) :
      e.Plain (tx.scripts.map codec.isOpReturn) := by
    obtain ⟨⟨t, -, hid⟩, hpos, -, -, hlt⟩ := hedict e (hmem e h)
    refine ⟨fun hetched => ?_, hpos, ?_⟩
    · have hblock := hn.block_pos t.rune
      rw [← hid, hetched] at hblock
      exact absurd hblock (by decide)
    · rw [List.length_map]
      omega
  have hdest (e : Runes.Edict) (h : e ∈ r.edicts) :
      (tx.scripts.map codec.isOpReturn)[e.output]? = some false := by
    obtain ⟨-, -, -, hge, hlt⟩ := hedict e (hmem e h)
    exact hb.notOpReturn he hchange (by omega) (by omega)
  have hrequested (id : Runes.RuneId) :
      Runes.requested r.edicts id = requestedRunes idOf transfers id := by
    rw [Runes.requested_perm hperm, he.requested]
  have hpays : ∀ id, Runes.requested r.edicts id ≤ tx.inputRunes chain id := by
    intro id
    rw [hrequested]
    exact hfunded' id
  obtain ⟨hout, hburned⟩ := Runes.settle_of_funded (i := i) hmint hetching hpointer
    (hb.notOpReturn he hchange le_rfl (by omega)) hplain hdest hpays
  have hsettle (o : ℕ) (id : Runes.RuneId) : (tx.settle codec chain i).outputs o id =
      Runes.requestedAt (es.map Prod.fst) o id +
        if o = 1 then tx.inputRunes chain id - requestedRunes idOf transfers id else 0 := by
    rw [Transaction.settle, hdecipher, hout, hrequested, Runes.requestedAt_perm hperm]
  refine ⟨⟨r, hdecipher⟩, hfunded', fun n t ht id => ?_, fun id => ?_, fun o ho id => ?_,
    fun id => ?_⟩
  · have hne : ¬ n + 2 = 1 := by omega
    rw [hsettle, if_neg hne, add_zero, add_comm n 2]
    exact he.requestedAt n t ht id
  · rw [hsettle, if_pos rfl, he.elsewhere 1 (by omega), zero_add]
  · rw [hsettle, if_neg (by omega), he.elsewhere o (by omega)]
  · rw [Transaction.settle, hdecipher]
    exact hburned id

end Settle

/-! ## When it raises -/

lemma transferEdict_of_payable {k : ℕ} {t : RuneTransfer} (h : Payable ord codec t) :
    ∃ e, transferEdict ord codec k t = .ok e := by
  obtain ⟨response, hresponse⟩ := h.known
  have hpos := h.amount_pos
  have hvalid := h.valid
  simp only [RuneTransfer.assertValid, bind_eq_ok, exists_unit] at hvalid
  obtain ⟨-, -, -, script, hscript, -⟩ := hvalid
  simp only [transferEdict, pyordEdict, bind_eq_ok, exists_unit, require_eq_ok, orError_eq_ok,
    pure_eq_ok]
  exact ⟨_, h.valid, _, hresponse, response, rfl, hpos.ne', hpos, _,
    ⟨⟨hpos.le, h.amount_lt⟩, rfl⟩, script, hscript, rfl⟩

lemma transferEdicts_of_payable {k : ℕ} {transfers : List RuneTransfer}
    (h : ∀ t ∈ transfers, Payable ord codec t) :
    ∃ es, transferEdicts ord codec k transfers = .ok es := by
  induction transfers generalizing k with
  | nil => exact ⟨[], rfl⟩
  | cons t transfers ih =>
      obtain ⟨e, he⟩ := transferEdict_of_payable (k := k) (h t (by simp))
      obtain ⟨es, hes⟩ := ih (k := k + 1) fun t' ht' => h t' (by simp [ht'])
      refine ⟨e :: es, ?_⟩
      simp only [transferEdicts, he, hes, ok_bind]
      rfl

/-- The error a transfer is refused with before any coin is selected. -/
inductive Refused (ord : OrdApiClient) (codec : Codec) (t : RuneTransfer) : PyError → Prop
  | invalid {e : PyError} (h : t.assertValid codec = .error e) : Refused ord codec t e
  | unknown (hvalid : t.assertValid codec = .ok ()) (h : ord.getRune t.rune.name = .ok none) :
      Refused ord codec t (.lookupError "Rune not found")
  | beyond (hvalid : t.assertValid codec = .ok ())
      (hknown : ∃ response, ord.getRune t.rune.name = .ok (some response))
      (h : 2 ^ 128 ≤ t.amount) : Refused ord codec t .overflowError

lemma transferEdict_of_refused {k : ℕ} {t : RuneTransfer} {e : PyError}
    (h : Refused ord codec t e) : transferEdict ord codec k t = .error e := by
  cases h with
  | invalid h =>
      rw [transferEdict, h]
      rfl
  | unknown hvalid h =>
      rw [transferEdict, hvalid, h]
      rfl
  | beyond hvalid hknown h =>
      obtain ⟨response, hresponse⟩ := hknown
      have hpos : 0 < t.amount := by omega
      have hlarge : ¬ (0 ≤ t.amount ∧ t.amount < 2 ^ 128) := by omega
      rw [transferEdict, hvalid, hresponse, ok_bind, ok_bind, orError, ok_bind,
        require_of hpos.ne', ok_bind, require_of hpos, ok_bind, pyordEdict,
        require_eq_error.2 ⟨hlarge, rfl⟩]
      rfl

lemma transferEdicts_of_refused {k : ℕ} {before after : List RuneTransfer} {t : RuneTransfer}
    {e : PyError} (hbefore : ∀ t' ∈ before, Payable ord codec t') (h : Refused ord codec t e) :
    transferEdicts ord codec k (before ++ t :: after) = .error e := by
  induction before generalizing k with
  | nil =>
      rw [List.nil_append, transferEdicts, transferEdict_of_refused h]
      rfl
  | cons t' before ih =>
      obtain ⟨hpayable, hrest⟩ := List.forall_mem_cons.1 hbefore
      obtain ⟨edict, hedict⟩ := transferEdict_of_payable (k := k) hpayable
      rw [List.cons_append, transferEdicts, hedict, ok_bind, ih hrest]
      rfl

/-- The first transfer that cannot be paid decides the error. -/
lemma createRunePsbt_of_refused {before after : List RuneTransfer} {t : RuneTransfer} {e : PyError}
    (hbefore : ∀ t' ∈ before, Payable ord codec t') (h : Refused ord codec t e) (feeRate : ℤ)
    (maxNumInputs : ℕ) :
    ms.createRunePsbt rpc ord codec (before ++ t :: after) feeRate maxNumInputs = .error e := by
  have hne : before ++ t :: after ≠ [] := by simp
  rw [createRunePsbt, createRunePsbtSelecting, require_of hne, ok_bind,
    transferEdicts_of_refused hbefore h]
  rfl

lemma getFee_error {psbt : Psbt} {e : PyError} (h : psbt.getFee = .error e) :
    ∃ text, e = .valueError text := by
  have hvalue (inputs : List PsbtInput) (h : Psbt.inputValue inputs = .error e) :
      ∃ text, e = .valueError text := by
    induction inputs with
    | nil => exact absurd h pure_ne_error
    | cons inp inputs ih =>
        rw [Psbt.inputValue, bind_eq_error] at h
        obtain h | ⟨_, -, h⟩ := h
        · exact ⟨_, (orError_eq_error.1 h).2.symm⟩
        · obtain h | ⟨_, -, h⟩ := bind_eq_error.1 h
          · exact ih h
          · exact absurd h pure_ne_error
  rw [Psbt.getFee, bind_eq_error] at h
  obtain h | ⟨_, -, h⟩ := h
  · exact hvalue _ h
  · obtain h | ⟨_, -, h⟩ := bind_eq_error.1 h
    · exact ⟨_, (require_eq_error.1 h).2.symm⟩
    · exact absurd h pure_ne_error

lemma finishPsbt_error {feeRate outputAmountSat : ℤ} {maxNumInputs : ℕ} {s : Selection}
    {e : PyError} (h : ms.finishPsbt feeRate outputAmountSat maxNumInputs s = .error e)
    (missing : List (String × ℤ)) : e ≠ .insufficientRuneBalanceError missing := by
  rintro rfl
  rw [finishPsbt, bind_eq_error] at h
  obtain h | ⟨_, -, h⟩ := h
  · exact absurd (require_eq_error.1 h).2 (by simp)
  obtain h | ⟨_, -, h⟩ := bind_eq_error.1 h
  · exact absurd (require_eq_error.1 h).2 (by simp)
  obtain h | ⟨_, -, h⟩ := bind_eq_error.1 h
  · obtain ⟨text, htext⟩ := getFee_error h
    exact absurd htext (by simp)
  obtain h | ⟨_, -, h⟩ := bind_eq_error.1 h
  · exact absurd (require_eq_error.1 h).2 (by simp)
  · exact absurd h pure_ne_error

/-- The function gets as far as coin selection for runes, and raises the error in question exactly
when that does. -/
lemma createRunePsbt_error_iff (hn : ord.Names idOf) (hc : codec.Lawful) {utxos : List UTXO}
    (hlist : rpc.listunspent = .ok utxos)
    (hall : ∀ u ∈ utxos, ord.Reports idOf chain u.outpoint)
    (howns : ∀ u ∈ utxos, u.witnessScript.isSome = true → ms.Owns rpc u)
    {transfers : List RuneTransfer} (hne : transfers ≠ [])
    (hpayable : ∀ t ∈ transfers, Payable ord codec t) (feeRate : ℤ) (maxNumInputs : ℕ) :
    ∃ s, ∀ missing,
      ms.createRunePsbt rpc ord codec transfers feeRate maxNumInputs =
          .error (.insufficientRuneBalanceError missing) ↔
        ms.selectRunes rpc ord
            (utxos.insertionSort fun u v => v.confirmations ≤ u.confirmations)
            (requiredRuneAmounts transfers) s =
          .error (.insufficientRuneBalanceError missing) := by
  obtain ⟨es, hes⟩ := transferEdicts_of_payable (k := 2) hpayable
  have hedicts := transferEdicts_ok hn hc hes
  have hencodable : (⟨es.map Prod.fst, none, none, some 1⟩ : Runes.Runestone).Encodable
      (transfers.length + 2) := by
    refine ⟨fun e h => ?_, fun e h => ?_, fun e h => ?_, fun p hp => ?_⟩
    · obtain ⟨e', he', rfl⟩ := List.mem_map.1 h
      obtain ⟨⟨t, -, hid⟩, -⟩ := hedicts.edict e' he'
      rw [hid]
      exact .inl (hn.block_pos _)
    · obtain ⟨e', he', rfl⟩ := List.mem_map.1 h
      exact (hedicts.edict e' he').2.2.1
    · obtain ⟨e', he', rfl⟩ := List.mem_map.1 h
      have hout := (hedicts.edict e' he').2.2.2.2
      omega
    · obtain rfl := Option.some.inj hp
      omega
  obtain ⟨script, hscript⟩ := hc.encipher_ok _ _ hencodable
  obtain ⟨initial, hinitial⟩ : ∃ initial, ms.initialPsbt codec es = .ok initial := by
    rw [initialPsbt, hscript]
    exact ⟨_, rfl⟩
  have hrequired : ((requiredRuneAmounts transfers).usedRunes.all
      fun r => 0 < (requiredRuneAmounts transfers).amount r) = true := by
    rw [List.all_eq_true]
    intro r hr
    obtain ⟨t, ht, rfl⟩ := mem_usedRunes.1 hr
    have hle := amount_le_requestedRunes idOf ht
    have hpos := hedicts.amount_pos t ht
    rw [decide_eq_true_eq, amount_requiredRuneAmounts hn.injective hedicts.amount_pos]
    omega
  have hall' : ∀ u ∈ utxos.insertionSort (fun u v => v.confirmations ≤ u.confirmations),
      ord.Reports idOf chain u.outpoint :=
    fun u hu => hall u ((List.mem_insertionSort _).1 hu)
  have howns' : ∀ u ∈ utxos.insertionSort (fun u v => v.confirmations ≤ u.confirmations),
      u.witnessScript.isSome = true → ms.Owns rpc u :=
    fun u hu => howns u ((List.mem_insertionSort _).1 hu)
  refine ⟨⟨initial, 0, []⟩, fun missing => ?_⟩
  rw [createRunePsbt, createRunePsbtSelecting, require_of hne, ok_bind, hes, ok_bind]
  dsimp only
  rw [require_of hrequired, ok_bind, hinitial, ok_bind, listUtxos, hlist, ok_bind]
  constructor
  · intro h
    obtain h | ⟨_, -, h⟩ := bind_eq_error.1 h
    · obtain h | ⟨utxos', hutxos', h⟩ := bind_eq_error.1 h
      · exact absurd h pure_ne_error
      obtain rfl := pure_eq_ok.1 hutxos'
      obtain h | ⟨s₁, -, h⟩ := bind_eq_error.1 h
      · exact h
      -- past the rune loop no error is this one
      obtain h | ⟨s₂, -, h⟩ := bind_eq_error.1 h
      · obtain ⟨text, htext⟩ := selectFee_error hn.injective hall' howns' h
        exact absurd htext (by simp)
      obtain h | ⟨_, -, h⟩ := bind_eq_error.1 h
      · exact absurd rfl (finishPsbt_error h missing)
      · exact absurd h pure_ne_error
    · exact absurd h pure_ne_error
  · intro h
    refine bind_eq_error.2 (.inl (bind_eq_error.2 (.inr ⟨_, rfl, ?_⟩)))
    exact bind_eq_error.2 (.inl h)

lemma usableRunes_perm {us vs : List UTXO} (h : us.Perm vs) :
    ms.usableRunes chain us = ms.usableRunes chain vs := by
  funext id
  exact ((h.filter _).map _).sum_eq

/-- **When create_rune_psbt raises InsufficientRuneBalanceError.** -/
theorem insufficient_iff (hn : ord.Names idOf) (hc : codec.Lawful) {utxos : List UTXO}
    (hlist : rpc.listunspent = .ok utxos)
    (hall : ∀ u ∈ utxos, ord.Reports idOf chain u.outpoint)
    (howns : ∀ u ∈ utxos, u.witnessScript.isSome = true → ms.Owns rpc u)
    {transfers : List RuneTransfer} (hne : transfers ≠ [])
    (hpayable : ∀ t ∈ transfers, Payable ord codec t) (feeRate : ℤ) (maxNumInputs : ℕ) :
    (∃ missing, ms.createRunePsbt rpc ord codec transfers feeRate maxNumInputs =
        .error (.insufficientRuneBalanceError missing)) ↔
      ∃ t ∈ transfers, ms.usableRunes chain utxos (idOf t.rune) <
        requestedRunes idOf transfers (idOf t.rune) := by
  obtain ⟨s, hiff⟩ := createRunePsbt_error_iff hn hc hlist hall howns hne hpayable feeRate
    maxNumInputs
  have hpos : ∀ t ∈ transfers, 0 < t.amount := fun t ht => (hpayable t ht).amount_pos
  have hperm := List.perm_insertionSort (fun u v : UTXO => v.confirmations ≤ u.confirmations) utxos
  have hamount := amount_requiredRuneAmounts hn.injective hpos
  have hall' : ∀ u ∈ utxos.insertionSort (fun u v => v.confirmations ≤ u.confirmations),
      ord.Reports idOf chain u.outpoint := fun u hu => hall u (hperm.mem_iff.1 hu)
  have howns' : ∀ u ∈ utxos.insertionSort (fun u v => v.confirmations ≤ u.confirmations),
      u.witnessScript.isSome = true → ms.Owns rpc u :=
    fun u hu => howns u (hperm.mem_iff.1 hu)
  have hsome : ∃ r ∈ (requiredRuneAmounts transfers).usedRunes,
      0 < (requiredRuneAmounts transfers).amount r := by
    obtain ⟨t, ht⟩ := List.exists_mem_of_ne_nil transfers hne
    have hle := amount_le_requestedRunes idOf ht
    have ht' := hpos t ht
    refine ⟨t.rune, mem_usedRunes.2 ⟨t, ht, rfl⟩, ?_⟩
    rw [hamount]
    omega
  constructor
  · rintro ⟨missing, h⟩
    obtain ⟨-, r, hr, hlt⟩ :=
      selectRunes_error hn.injective hall' howns' hsome ((hiff missing).1 h)
    obtain ⟨t, ht, rfl⟩ := mem_usedRunes.1 hr
    rw [hamount, usableRunes_perm hperm] at hlt
    exact ⟨t, ht, by exact_mod_cast hlt⟩
  · rintro ⟨t, ht, hlt⟩
    cases hselect : ms.selectRunes rpc ord
        (utxos.insertionSort fun u v => v.confirmations ≤ u.confirmations)
        (requiredRuneAmounts transfers) s with
    | error e =>
        obtain ⟨⟨missing, rfl⟩, -⟩ := selectRunes_error hn.injective hall' howns' hsome hselect
        exact ⟨missing, (hiff missing).2 hselect⟩
    | ok s' =>
        -- the loop would have selected enough among the usable outputs
        obtain ⟨new, -, hsub, hle⟩ := selectRunes_ok hn.injective hall' hselect
        have hle' := hle t.rune (mem_usedRunes.2 ⟨t, ht, rfl⟩)
        have hsum : runesOf chain new (idOf t.rune) ≤
            ms.usableRunes chain utxos (idOf t.rune) := by
          rw [← usableRunes_perm hperm]
          exact runesOf_sublist hsub _
        rw [hamount] at hle'
        omega

end OrdMultisig

open OrdMultisig ExampleWallet in
/-- **Rune conservation of create_rune_psbt.**  A transaction it returns settles to exactly the
transfers and change; and for transfers that can be paid at all, of a wallet's own outputs, it
raises InsufficientRuneBalanceError exactly when the usable outputs hold less of some requested
rune than was requested.  The first transfer that cannot be paid raises its own error. -/
theorem create_rune_psbt_conserves {ms : OrdMultisig} {rpc : BitcoinRpc} {ord : OrdApiClient}
    {codec : Codec} {idOf : Rune → Runes.RuneId} {chain : Chain} (hn : ord.Names idOf)
    (hc : codec.Lawful) (hchange : codec.isOpReturn ms.changeScriptPubkey = false)
    {utxos : List UTXO} (hlist : rpc.listunspent = .ok utxos)
    (hall : ∀ u ∈ utxos, ord.Reports idOf chain u.outpoint)
    {transfers : List RuneTransfer} (hne : transfers ≠ []) (feeRate : ℤ) (maxNumInputs : ℕ) :
    (∀ psbt, ms.createRunePsbt rpc ord codec transfers feeRate maxNumInputs = .ok psbt →
      ∀ i, Conserves codec idOf chain i transfers psbt.unsignedTx) ∧
    ((∀ u ∈ utxos, u.witnessScript.isSome = true → ms.Owns rpc u) →
      (∀ t ∈ transfers, Payable ord codec t) →
      ((∃ missing, ms.createRunePsbt rpc ord codec transfers feeRate maxNumInputs =
          .error (.insufficientRuneBalanceError missing)) ↔
        ∃ t ∈ transfers, ms.usableRunes chain utxos (idOf t.rune) <
          requestedRunes idOf transfers (idOf t.rune))) ∧
    ∀ before t after e, transfers = before ++ t :: after →
      (∀ t' ∈ before, Payable ord codec t') → Refused ord codec t e →
        ms.createRunePsbt rpc ord codec transfers feeRate maxNumInputs = .error e := by
  refine ⟨fun psbt h i => ?_, fun howns hpayable => ?_, ?_⟩
  · obtain ⟨es, selected, hedicts, hbuilt, hfunded⟩ := createRunePsbt_built hn hc hlist hall h
    exact hbuilt.conserves hn hc hchange hedicts hfunded i
  · exact insufficient_iff hn hc hlist hall howns hne hpayable feeRate maxNumInputs
  · rintro before t after e rfl hbefore hrefused
    exact createRunePsbt_of_refused hbefore hrefused feeRate maxNumInputs

/-- The example wallet pays five of its eight units, and cannot pay nine. -/
theorem create_rune_psbt_conserves_example :
    (∃ psbt, ExampleWallet.ms.createRunePsbt ExampleWallet.rpc ExampleWallet.ord
        UnaryCodec.codec [ExampleWallet.transfer 5] 10 200 = .ok psbt ∧
      ∀ i, OrdMultisig.Conserves UnaryCodec.codec ExampleWallet.idOf ExampleWallet.chain i
        [ExampleWallet.transfer 5] psbt.unsignedTx) ∧
    ∃ missing, ExampleWallet.ms.createRunePsbt ExampleWallet.rpc ExampleWallet.ord
      UnaryCodec.codec [ExampleWallet.transfer 9] 10 200 =
        .error (.insufficientRuneBalanceError missing) := by
  have hchange : UnaryCodec.codec.isOpReturn ExampleWallet.ms.changeScriptPubkey = false := by
    decide
  have hlist : ExampleWallet.rpc.listunspent = .ok ExampleWallet.utxos := rfl
  have hrule (amount : ℤ) := create_rune_psbt_conserves
    ExampleWallet.names UnaryCodec.codec_lawful hchange hlist ExampleWallet.reports
    (List.cons_ne_nil (ExampleWallet.transfer amount) []) 10 200
  constructor
  · obtain ⟨psbt, hpsbt⟩ : ∃ psbt, ExampleWallet.ms.createRunePsbt ExampleWallet.rpc
        ExampleWallet.ord UnaryCodec.codec [ExampleWallet.transfer 5] 10 200 = .ok psbt :=
      exists_ok_of_isOk (by decide +kernel)
    exact ⟨psbt, hpsbt, (hrule 5).1 psbt hpsbt⟩
  · refine ((hrule 9).2.1 ExampleWallet.owns ?_).2 ⟨ExampleWallet.transfer 9, by simp, ?_⟩
    · intro t ht
      obtain rfl : t = ExampleWallet.transfer 9 := by simpa using ht
      exact ExampleWallet.payable (by norm_num) (by norm_num)
    · have hid : ExampleWallet.idOf (ExampleWallet.transfer 9).rune = ExampleWallet.runeId :=
        ExampleWallet.idOf_rune
      have hrequested : requestedRunes ExampleWallet.idOf [ExampleWallet.transfer 9]
          (ExampleWallet.idOf (ExampleWallet.transfer 9).rune) = 9 := by
        simp [requestedRunes, ExampleWallet.transfer]
      rw [hrequested, hid]
      decide +kernel

/-- **Transfers that cannot be paid at all.**  The example wallet holds less than either asks for,
but what is raised is that the amount is beyond the protocol's, or that `ord` does not know the
rune. -/
theorem create_rune_psbt_raises_otherwise :
    (ExampleWallet.ms.createRunePsbt ExampleWallet.rpc ExampleWallet.ord UnaryCodec.codec
        [ExampleWallet.transfer (2 ^ 128)] 10 200 = .error .overflowError ∧
      ExampleWallet.ms.usableRunes ExampleWallet.chain ExampleWallet.utxos
          (ExampleWallet.idOf ExampleWallet.rune) <
        requestedRunes ExampleWallet.idOf [ExampleWallet.transfer (2 ^ 128)]
          (ExampleWallet.idOf ExampleWallet.rune)) ∧
    (ExampleWallet.ms.createRunePsbt ExampleWallet.rpc ExampleWallet.ord UnaryCodec.codec
        [ExampleWallet.unknownTransfer] 10 200 = .error (.lookupError "Rune not found") ∧
      ExampleWallet.ms.usableRunes ExampleWallet.chain ExampleWallet.utxos
          (ExampleWallet.idOf ExampleWallet.unknownTransfer.rune) <
        requestedRunes ExampleWallet.idOf [ExampleWallet.unknownTransfer]
          (ExampleWallet.idOf ExampleWallet.unknownTransfer.rune)) := by
  refine ⟨⟨by rfl, ?_⟩, by rfl, ?_⟩
  · have hrequested : requestedRunes ExampleWallet.idOf [ExampleWallet.transfer (2 ^ 128)]
        (ExampleWallet.idOf ExampleWallet.rune) = 2 ^ 128 := by
      simp [requestedRunes, ExampleWallet.transfer]
    rw [hrequested, ExampleWallet.idOf_rune]
    decide +kernel
  · have hrequested : requestedRunes ExampleWallet.idOf [ExampleWallet.unknownTransfer]
        (ExampleWallet.idOf ExampleWallet.unknownTransfer.rune) = 1 := by
      simp [requestedRunes, ExampleWallet.unknownTransfer]
    have hnone : ∀ o, ExampleWallet.chain o
        (ExampleWallet.idOf ExampleWallet.unknownTransfer.rune) = 0 := by
      intro o
      refine if_neg fun h => ?_
      have hrune := ExampleWallet.names.injective (h.2.trans ExampleWallet.idOf_rune.symm)
      exact absurd (congrArg Rune.name hrune) (by decide)
    rw [hrequested, OrdMultisig.usableRunes, OrdMultisig.runesOf]
    simp [hnone]

end NbteBridge
