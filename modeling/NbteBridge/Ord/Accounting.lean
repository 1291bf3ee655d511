import NbteBridge.Ord.Conservation

/-!
# BTC accounting of create_rune_psbt

The satoshi of the transaction `create_rune_psbt` returns.  Both selection loops only add outputs
of the wallet one by one (`Selection.addAll`), so the input value kept beside the transaction is
that of its inputs (`Selection.Sound`).  The rune loop takes outputs with runes and the fee loop
outputs without, so no output is spent twice.  The fee loop ends where the rest is nothing or
enough for an output of its own, and then the two assertions hold (`finishPsbt_of_settled`).
-/

namespace NbteBridge

open Checked

namespace OrdMultisig

variable {ms : OrdMultisig} {rpc : BitcoinRpc} {ord : OrdApiClient} {codec : Codec}

/-! ## What `ord` reports -/

/-- The balance `ord` reports on an output; none when it has no answer. -/
def reportedBalance (ord : OrdApiClient) (rune : Rune) (utxo : UTXO) : ℕ :=
  match ord.getOrdOutput utxo.txid utxo.vout with
  | .ok o => o.balanceOf rune
  | .error _ => 0

/-- Whether `ord` reports any runes on an output. -/
def bearsRunes (ord : OrdApiClient) (utxo : UTXO) : Bool :=
  match ord.getOrdOutput utxo.txid utxo.vout with
  | .ok o => o.hasRuneBalances
  | .error _ => false

lemma reportedBalance_of_ok {utxo : UTXO} {o : OrdOutput} (rune : Rune)
    (h : ord.getOrdOutput utxo.txid utxo.vout = .ok o) :
    reportedBalance ord rune utxo = o.balanceOf rune := by
  rw [reportedBalance, h]

lemma bearsRunes_of_ok {utxo : UTXO} {o : OrdOutput}
    (h : ord.getOrdOutput utxo.txid utxo.vout = .ok o) :
    bearsRunes ord utxo = o.hasRuneBalances := by
  rw [bearsRunes, h]

lemma bearsRunes_congr {u v : UTXO} (h : u.outpoint = v.outpoint) :
    bearsRunes ord u = bearsRunes ord v := by
  obtain ⟨htxid, hvout⟩ := Outpoint.mk.inj h
  rw [bearsRunes, bearsRunes, htxid, hvout]

/-- `ord` reports no runes on an output. -/
def Runeless (ord : OrdApiClient) (utxo : UTXO) : Prop :=
  ∃ o, ord.getOrdOutput utxo.txid utxo.vout = .ok o ∧ o.hasRuneBalances = false

lemma Runeless.bearsRunes {utxo : UTXO} (h : Runeless ord utxo) : bearsRunes ord utxo = false := by
  obtain ⟨o, ho, hnone⟩ := h
  rw [bearsRunes_of_ok ho, hnone]

/-! ## Outputs added one by one -/

/-- The selection with these outputs spent too, in order. -/
def Selection.addAll (ms : OrdMultisig) (rpc : BitcoinRpc) (s : Selection) :
    List UTXO → PyResult Selection
  | [] => pure s
  | utxo :: utxos => do
      let s ← s.add ms rpc utxo
      Selection.addAll ms rpc s utxos

lemma Selection.addAll_cons {s s₁ s' : Selection} {utxo : UTXO} {utxos : List UTXO}
    (h : s.add ms rpc utxo = .ok s₁) (hrest : s₁.addAll ms rpc utxos = .ok s') :
    s.addAll ms rpc (utxo :: utxos) = .ok s' := by
  rw [addAll, h, ok_bind, hrest]

lemma Selection.addAll_append {s s₁ s' : Selection} {us vs : List UTXO}
    (h : s.addAll ms rpc us = .ok s₁) (h' : s₁.addAll ms rpc vs = .ok s') :
    s.addAll ms rpc (us ++ vs) = .ok s' := by
  induction us generalizing s with
  | nil =>
      obtain rfl := pure_eq_ok.1 h
      exact h'
  | cons utxo us ih =>
      rw [addAll, bind_eq_ok] at h
      obtain ⟨s₂, hadd, hrest⟩ := h
      exact addAll_cons hadd (ih hrest)

lemma Selection.addAll_extends {s s' : Selection} {utxos : List UTXO}
    (h : s.addAll ms rpc utxos = .ok s') : s.Extends s' utxos := by
  induction utxos generalizing s with
  | nil =>
      obtain rfl := pure_eq_ok.1 h
      exact Selection.Extends.refl s
  | cons utxo utxos ih =>
      rw [addAll, bind_eq_ok] at h
      obtain ⟨s₁, hadd, hrest⟩ := h
      exact (Selection.add_ok hadd).trans (ih hrest)

/-- `listunspent` reports the values of the funding transactions. -/
def AmountsDeclared (rpc : BitcoinRpc) (utxos : List UTXO) : Prop :=
  ∀ u ∈ utxos, ∀ tx txout, rpc.gettransaction u.txid = .ok tx → tx.vout[u.vout]? = some txout →
    txout.nValue = u.amountSatoshi

/-- The transaction's inputs are the outputs selected, and are worth what was counted. -/
structure Selection.Sound (s : Selection) : Prop where
  vin : s.psbt.unsignedTx.vin = s.selected.map UTXO.outpoint
  witnessScripts : s.psbt.inputs.map PsbtInput.witnessScript = s.selected.map UTXO.witnessScript
  amount : s.inputAmountSat = (s.selected.map fun u => (u.amountSatoshi : ℤ)).sum
  value : Psbt.inputValue s.psbt.inputs = .ok s.inputAmountSat

lemma inputValue_append {inputs : List PsbtInput} {value : ℤ} {inp : PsbtInput} {txout : TxOut}
    (h : Psbt.inputValue inputs = .ok value) (hutxo : inp.utxo = some txout) :
    Psbt.inputValue (inputs ++ [inp]) = .ok (value + txout.nValue) := by
  induction inputs generalizing value with
  | nil =>
      obtain rfl := pure_eq_ok.1 h
      simp [Psbt.inputValue, hutxo, orError]
  | cons inp' inputs ih =>
      simp only [Psbt.inputValue, bind_eq_ok, pure_eq_ok] at h
      obtain ⟨txout', hutxo', rest, hrest, rfl⟩ := h
      simp only [List.cons_append, Psbt.inputValue, hutxo', ih hrest, ok_bind, pure_eq_ok]
      exact (add_assoc _ _ _).symm

lemma Selection.Sound.add {s s' : Selection} {utxo : UTXO} (hs : s.Sound)
    (hamount : AmountsDeclared rpc [utxo]) (h : s.add ms rpc utxo = .ok s') : s'.Sound := by
  simp only [Selection.add, addPsbtInput, bind_eq_ok, exists_unit, orError_eq_ok,
    pure_eq_ok] at h
  obtain ⟨psbt, ⟨tx, htx, d, -, -, txout, htxout, rfl⟩, rfl⟩ := h
  have hvalue : txout.nValue = utxo.amountSatoshi := hamount utxo (by simp) tx txout htx htxout
  refine ⟨?_, ?_, ?_, ?_⟩
  · simp [Psbt.addInput, hs.vin]
  · simp [Psbt.addInput, hs.witnessScripts]
  · simp [hs.amount]
  · rw [← hvalue]
    exact inputValue_append hs.value rfl

lemma Selection.Sound.addAll {s s' : Selection} {utxos : List UTXO} (hs : s.Sound)
    (hamount : AmountsDeclared rpc utxos) (h : s.addAll ms rpc utxos = .ok s') : s'.Sound := by
  induction utxos generalizing s with
  | nil =>
      obtain rfl := pure_eq_ok.1 h
      exact hs
  | cons utxo utxos ih =>
      rw [Selection.addAll, bind_eq_ok] at h
      obtain ⟨s₁, hadd, hrest⟩ := h
      have hs₁ : s₁.Sound :=
        hs.add (fun u hu => hamount u (List.mem_of_mem_head? (by simp_all))) hadd
      exact ih hs₁ (fun u hu => hamount u (by simp [hu])) hrest

/-! ## The rune loop -/

/-- One round of the rune loop that does not raise: the output is passed over, or it is spent, and
the loop goes on exactly when something is still required. -/
lemma selectRunes_cons_ok {utxo : UTXO} {utxos : List UTXO} {required : RequiredRuneAmounts}
    {s s' : Selection} (h : ms.selectRunes rpc ord (utxo :: utxos) required s = .ok s') :
    ms.selectRunes rpc ord utxos required s = .ok s' ∨
    (utxo.witnessScript.isSome = true ∧ bearsRunes ord utxo = true ∧ ms.tooFresh utxo = false ∧
      (∃ r ∈ required.usedRunes, reportedBalance ord r utxo ≠ 0) ∧
      ∃ s₁, s.add ms rpc utxo = .ok s₁ ∧
        (s₁ = s' ∨ (∃ r ∈ required.usedRunes,
            (reportedBalance ord r utxo : ℤ) < required.amount r) ∧
          ms.selectRunes rpc ord utxos (required.spend fun r => reportedBalance ord r utxo) s₁ =
            .ok s')) := by
  rw [selectRunes] at h
  split at h
  · exact .inl h
  rename_i hscript
  obtain ⟨o, ho, h⟩ := bind_eq_ok.1 h
  split at h
  · exact .inl h
  rename_i hruneless
  split at h
  · exact .inl h
  rename_i hfresh
  rw [relevantRuneBalances_eq, ok_bind] at h
  split at h
  · exact .inl h
  rename_i hsome
  obtain ⟨s₁, hadd, h⟩ := bind_eq_ok.1 h
  have hbalance (r : Rune) : reportedBalance ord r utxo = o.balanceOf r :=
    reportedBalance_of_ok r ho
  refine .inr ⟨by simpa [Option.isSome_iff_ne_none] using hscript, ?_, by simpa using hfresh, ?_,
    s₁, hadd, ?_⟩
  · rw [bearsRunes_of_ok ho]
    exact not_not.1 hruneless
  · simp only [hbalance]
    simpa using hsome
  · simp only [hbalance]
    split at h
    · exact .inl (pure_eq_ok.1 h)
    · rename_i hrequired
      refine .inr ⟨?_, h⟩
      simp only [List.all_eq_true, decide_eq_true_eq, not_forall, not_le] at hrequired
      obtain ⟨r, hr, hlt⟩ := hrequired
      have hr' : r ∈ required.usedRunes := hr
      refine ⟨r, hr', ?_⟩
      have hamount : (required.spend o.balanceOf).amount r = required.amount r - o.balanceOf r :=
        RequiredRuneAmounts.amount_spend hr'
      rw [RequiredRuneAmounts.spend] at hamount
      omega

/-- What the rune loop spends: outputs with a required rune, each while something was still
missing. -/
structure FundsRunes (ord : OrdApiClient) (utxos : List UTXO) (required : RequiredRuneAmounts)
    (funding : List UTXO) : Prop where
  sublist : funding.Sublist utxos
  witnessScript : ∀ u ∈ funding, u.witnessScript.isSome = true
  bearsRunes : ∀ u ∈ funding, bearsRunes ord u = true
  requested : ∀ u ∈ funding, ∃ r ∈ required.usedRunes, reportedBalance ord r u ≠ 0
  needed : ∀ before u after, funding = before ++ u :: after → ∃ r ∈ required.usedRunes,
    ((before.map (reportedBalance ord r)).sum : ℤ) < required.amount r

lemma FundsRunes.skip {utxo : UTXO} {utxos funding : List UTXO} {required : RequiredRuneAmounts}
    (h : FundsRunes ord utxos required funding) :
    FundsRunes ord (utxo :: utxos) required funding :=
  { h with sublist := h.sublist.trans (List.sublist_cons_self utxo utxos) }

theorem selectRunes_funds {utxos : List UTXO} {required : RequiredRuneAmounts} {s s' : Selection}
    (hrequired : ∃ r ∈ required.usedRunes, 0 < required.amount r)
    (h : ms.selectRunes rpc ord utxos required s = .ok s') :
    ∃ funding, s.addAll ms rpc funding = .ok s' ∧ FundsRunes ord utxos required funding ∧
      ∀ u ∈ funding, ms.tooFresh u = false := by
  induction utxos generalizing required s with
  | nil => exact absurd h (by simp [selectRunes])
  | cons utxo utxos ih =>
      rcases selectRunes_cons_ok h with hskip | ⟨hscript, hbears, haged, hrune, s₁, hadd, hend⟩
      · obtain ⟨funding, hall, hfunds, hold⟩ := ih hrequired hskip
        exact ⟨funding, hall, hfunds.skip, hold⟩
      rcases hend with rfl | ⟨⟨r, hr, hlt⟩, hrest⟩
      · refine ⟨[utxo], Selection.addAll_cons hadd rfl, ⟨List.singleton_sublist.2 (by simp), ?_, ?_,
          ?_, fun before u after heq => ?_⟩, by simpa using haged⟩
        · simpa using hscript
        · simpa using hbears
        · simpa using hrune
        · obtain rfl : before = [] := by
            cases before with
            | nil => rfl
            | cons b before => simp at heq
          simpa using hrequired
      · have hspent {r : Rune} (hr : r ∈ required.usedRunes) :
            (required.spend fun r => reportedBalance ord r utxo).amount r =
              required.amount r - reportedBalance ord r utxo :=
          RequiredRuneAmounts.amount_spend hr
        have hrequired' : ∃ r ∈ (required.spend fun r => reportedBalance ord r utxo).usedRunes,
            0 < (required.spend fun r => reportedBalance ord r utxo).amount r := by
          refine ⟨r, hr, ?_⟩
          rw [hspent hr]
          omega
        obtain ⟨funding, hall, hfunds, hold⟩ := ih hrequired' hrest
        refine ⟨utxo :: funding, Selection.addAll_cons hadd hall, ⟨hfunds.sublist.cons_cons utxo,
          ?_, ?_, ?_, fun before u after heq => ?_⟩, List.forall_mem_cons.2 ⟨haged, hold⟩⟩
        · exact List.forall_mem_cons.2 ⟨hscript, hfunds.witnessScript⟩
        · exact List.forall_mem_cons.2 ⟨hbears, hfunds.bearsRunes⟩
        · exact List.forall_mem_cons.2 ⟨hrune, hfunds.requested⟩
        · cases before with
          | nil => simpa using hrequired
          | cons b before =>
              obtain ⟨rfl, htail⟩ := List.cons.inj heq
              obtain ⟨r', hr', hmissing⟩ := hfunds.needed before u after htail
              have hr'' : r' ∈ required.usedRunes := hr'
              refine ⟨r', hr'', ?_⟩
              rw [hspent hr''] at hmissing
              rw [List.map_cons, List.sum_cons, Nat.cast_add]
              omega

/-! ## The fee loop -/

/-- The loop `while True` of coin selection for the fee, run to its end: `FeeLoop` holds of the
outputs left, the selection so far and a result when the source's loop ends with that result. -/
inductive FeeLoop (ms : OrdMultisig) (rpc : BitcoinRpc) (ord : OrdApiClient)
    (feeRate outputAmountSat : ℤ) : List UTXO → Selection → PyResult Selection → Prop
  | exact {utxos s} :
      s.inputAmountSat = outputAmountSat + ms.feeSat feeRate s.psbt →
      FeeLoop ms rpc ord feeRate outputAmountSat utxos s (.ok s)
  | change {utxos s} :
      outputAmountSat + ms.feeSat feeRate s.psbt + DUST_SAT ≤ s.inputAmountSat →
      FeeLoop ms rpc ord feeRate outputAmountSat utxos s (.ok s)
  | exhausted {utxos s e} :
      s.inputAmountSat ≠ outputAmountSat + ms.feeSat feeRate s.psbt →
      s.inputAmountSat < outputAmountSat + ms.feeSat feeRate s.psbt + DUST_SAT →
      popBtcUtxo ord utxos = .error e →
      FeeLoop ms rpc ord feeRate outputAmountSat utxos s (.error e)
  | skip {utxos s utxo rest r} :
      s.inputAmountSat ≠ outputAmountSat + ms.feeSat feeRate s.psbt →
      s.inputAmountSat < outputAmountSat + ms.feeSat feeRate s.psbt + DUST_SAT →
      popBtcUtxo ord utxos = .ok (utxo, rest) → utxo.witnessScript.isNone = true →
      FeeLoop ms rpc ord feeRate outputAmountSat rest s r →
      FeeLoop ms rpc ord feeRate outputAmountSat utxos s r
  | refused {utxos s utxo rest e} :
      s.inputAmountSat ≠ outputAmountSat + ms.feeSat feeRate s.psbt →
      s.inputAmountSat < outputAmountSat + ms.feeSat feeRate s.psbt + DUST_SAT →
      popBtcUtxo ord utxos = .ok (utxo, rest) → utxo.witnessScript.isNone = false →
      s.add ms rpc utxo = .error e →
      FeeLoop ms rpc ord feeRate outputAmountSat utxos s (.error e)
  | add {utxos s utxo rest s₁ r} :
      s.inputAmountSat ≠ outputAmountSat + ms.feeSat feeRate s.psbt →
      s.inputAmountSat < outputAmountSat + ms.feeSat feeRate s.psbt + DUST_SAT →
      popBtcUtxo ord utxos = .ok (utxo, rest) → utxo.witnessScript.isNone = false →
      s.add ms rpc utxo = .ok s₁ →
      FeeLoop ms rpc ord feeRate outputAmountSat rest s₁ r →
      FeeLoop ms rpc ord feeRate outputAmountSat utxos s r

/-- **The fee loop ends**: each round that goes on pops an output, and with more fuel than outputs
`selectFee` computes the loop's result. -/
theorem feeLoop_selectFee {feeRate outputAmountSat : ℤ} {fuel : ℕ} {utxos : List UTXO}
    {s : Selection} (hfuel : utxos.length < fuel) :
    FeeLoop ms rpc ord feeRate outputAmountSat utxos s
      (ms.selectFee rpc ord feeRate outputAmountSat fuel utxos s) := by
  induction fuel generalizing utxos s with
  | zero => exact absurd hfuel (by omega)
  | succ fuel ih =>
      rw [selectFee]
      by_cases hexact : s.inputAmountSat = outputAmountSat + ms.feeSat feeRate s.psbt
      · rw [if_pos hexact]
        exact .exact hexact
      by_cases hchange : outputAmountSat + ms.feeSat feeRate s.psbt + DUST_SAT ≤ s.inputAmountSat
      · rw [if_neg hexact, if_pos hchange]
        exact .change hchange
      rw [if_neg hexact, if_neg hchange]
      have hshort := not_le.1 hchange
      cases hpop : popBtcUtxo ord utxos with
      | error e => exact .exhausted hexact hshort hpop
      | ok popped =>
          obtain ⟨utxo, rest⟩ := popped
          have hrest : rest.length < fuel := by
            have hlt := popBtcUtxo_length ord hpop
            omega
          rw [ok_bind]
          cases hscript : utxo.witnessScript.isNone with
          | true =>
              have hresult := FeeLoop.skip hexact hshort hpop hscript (ih hrest)
              simpa only [hscript, if_true] using hresult
          | false =>
              cases hadd : s.add ms rpc utxo with
              | error e =>
                  simp only [hscript, hadd, Bool.false_eq_true, if_false]
                  exact .refused hexact hshort hpop hscript hadd
              | ok s₁ =>
                  simp only [hscript, hadd, ok_bind, Bool.false_eq_true, if_false]
                  exact .add hexact hshort hpop hscript hadd (ih hrest)

/-- The input value pays for the outputs and the fee, and the rest is nothing or enough for an
output of its own. -/
def Settled (ms : OrdMultisig) (feeRate outputAmountSat : ℤ) (s : Selection) : Prop :=
  s.inputAmountSat = outputAmountSat + ms.feeSat feeRate s.psbt ∨
    outputAmountSat + ms.feeSat feeRate s.psbt + DUST_SAT ≤ s.inputAmountSat

lemma popBtcUtxo_runeless {utxos rest : List UTXO} {utxo : UTXO}
    (h : popBtcUtxo ord utxos = .ok (utxo, rest)) :
    Runeless ord utxo ∧ (utxo :: rest).Sublist utxos := by
  induction utxos with
  | nil => exact absurd h (by simp [popBtcUtxo])
  | cons u utxos ih =>
      rw [popBtcUtxo, bind_eq_ok] at h
      obtain ⟨o, ho, h⟩ := h
      split at h
      · obtain ⟨hruneless, hsub⟩ := ih h
        exact ⟨hruneless, hsub.trans (List.sublist_cons_self u utxos)⟩
      · rename_i hnone
        obtain ⟨rfl, rfl⟩ := Prod.mk.inj (pure_eq_ok.1 h)
        exact ⟨⟨o, ho, by simpa using hnone⟩, List.Sublist.refl _⟩

/-- What the fee loop spends: outputs with their witness script and without runes, until the
transaction is paid for. -/
theorem FeeLoop.pays {feeRate outputAmountSat : ℤ} {utxos : List UTXO} {s s' : Selection}
    {result : PyResult Selection}
    (h : FeeLoop ms rpc ord feeRate outputAmountSat utxos s result) (hresult : result = .ok s') :
    ms.Settled feeRate outputAmountSat s' ∧ ∃ fees, s.addAll ms rpc fees = .ok s' ∧
      fees.Sublist utxos ∧ ∀ u ∈ fees, u.witnessScript.isSome = true ∧ Runeless ord u := by
  induction h with
  | exact hexact =>
      obtain rfl := Except.ok.inj hresult
      exact ⟨.inl hexact, [], rfl, List.nil_sublist _, by simp⟩
  | change hchange =>
      obtain rfl := Except.ok.inj hresult
      exact ⟨.inr hchange, [], rfl, List.nil_sublist _, by simp⟩
  | exhausted => exact absurd hresult (by simp)
  | refused => exact absurd hresult (by simp)
  | skip _ _ hpop _ _ ih =>
      obtain ⟨hsettled, fees, hall, hsub, hfees⟩ := ih hresult
      obtain ⟨-, hpopped⟩ := popBtcUtxo_runeless hpop
      exact ⟨hsettled, fees, hall,
        hsub.trans ((List.sublist_cons_self _ _).trans hpopped), hfees⟩
  | @add utxos s utxo rest s₁ r _ _ hpop hscript hadd _ ih =>
      obtain ⟨hsettled, fees, hall, hsub, hfees⟩ := ih hresult
      obtain ⟨hnone, hpopped⟩ := popBtcUtxo_runeless hpop
      have hsome : utxo.witnessScript.isSome = true := by
        simpa [Option.isSome_iff_ne_none] using hscript
      exact ⟨hsettled, utxo :: fees, Selection.addAll_cons hadd hall,
        (hsub.cons_cons utxo).trans hpopped, List.forall_mem_cons.2 ⟨⟨hsome, hnone⟩, hfees⟩⟩

/-! ## The last part -/

lemma feeSat_nonneg (ms : OrdMultisig) {feeRate : ℤ} (hrate : 0 < feeRate) (psbt : Psbt) :
    0 ≤ ms.feeSat feeRate psbt :=
  mul_nonneg (Int.natCast_nonneg _) hrate.le

lemma outputValue_append (outs outs' : List TxOut) :
    Psbt.outputValue (outs ++ outs') = Psbt.outputValue outs + Psbt.outputValue outs' := by
  simp [Psbt.outputValue]

/-- The BTC change: none, or one output worth an output of its own. -/
def btcChange (ms : OrdMultisig) (changeAmountSat : ℤ) : List TxOut :=
  if changeAmountSat = 0 then [] else [⟨changeAmountSat, ms.changeScriptPubkey⟩]

lemma outputValue_btcChange (changeAmountSat : ℤ) :
    Psbt.outputValue (ms.btcChange changeAmountSat) = changeAmountSat := by
  unfold btcChange
  split
  · rename_i hzero
    rw [hzero]
    rfl
  · simp [Psbt.outputValue]

/-- The transaction with its BTC change. -/
def withChange (ms : OrdMultisig) (psbt : Psbt) (changeAmountSat : ℤ) : Psbt :=
  (ms.btcChange changeAmountSat).foldl Psbt.addOutput psbt

@[simp] lemma vin_withChange (psbt : Psbt) (changeAmountSat : ℤ) :
    (ms.withChange psbt changeAmountSat).unsignedTx.vin = psbt.unsignedTx.vin :=
  (foldl_addOutput psbt _).1

/-- The change is one more output, and nothing else. -/
lemma unsignedTx_withChange (psbt : Psbt) (changeAmountSat : ℤ) :
    { (ms.withChange psbt changeAmountSat).unsignedTx with vout := psbt.unsignedTx.vout } =
      psbt.unsignedTx := by
  unfold withChange btcChange
  split <;> rfl

@[simp] lemma vout_withChange (psbt : Psbt) (changeAmountSat : ℤ) :
    (ms.withChange psbt changeAmountSat).unsignedTx.vout =
      psbt.unsignedTx.vout ++ ms.btcChange changeAmountSat :=
  (foldl_addOutput psbt _).2

@[simp] lemma inputs_withChange (psbt : Psbt) (changeAmountSat : ℤ) :
    (ms.withChange psbt changeAmountSat).inputs = psbt.inputs := by
  unfold withChange btcChange
  split <;> rfl

/-- **The assertions hold** of a selection that is paid for: the rest is the change, and the fee
that is left is the one computed. -/
theorem finishPsbt_of_settled {feeRate : ℤ} (hrate : 0 < feeRate) {s : Selection} (hs : s.Sound)
    (hsettled : ms.Settled feeRate (Psbt.outputValue s.psbt.unsignedTx.vout) s)
    (maxNumInputs : ℕ) :
    let rest := s.inputAmountSat - Psbt.outputValue s.psbt.unsignedTx.vout -
      ms.feeSat feeRate s.psbt
    (rest = 0 ∨ DUST_SAT ≤ rest) ∧
      (ms.withChange s.psbt rest).getFee = .ok (ms.feeSat feeRate s.psbt) ∧
      ms.finishPsbt feeRate (Psbt.outputValue s.psbt.unsignedTx.vout) maxNumInputs s =
        if s.psbt.inputs.length ≤ maxNumInputs then .ok (ms.withChange s.psbt rest)
        else .error (.runtimeError "Number of inputs in PSBT exceeds the maximum") := by
  intro rest
  have hrest : rest = 0 ∨ DUST_SAT ≤ rest := by
    rcases hsettled with hexact | hchange
    · exact .inl (by omega)
    · exact .inr (by omega)
  have hnonneg : 0 ≤ rest := by
    rcases hrest with hzero | hdust
    · exact hzero.ge
    · exact le_trans (by decide) hdust
  have hfee : (ms.withChange s.psbt rest).getFee = .ok (ms.feeSat feeRate s.psbt) := by
    have hleft : s.inputAmountSat - Psbt.outputValue (ms.withChange s.psbt rest).unsignedTx.vout =
        ms.feeSat feeRate s.psbt := by
      rw [vout_withChange, outputValue_append, outputValue_btcChange]
      omega
    have hpositive : 0 ≤ s.inputAmountSat -
        Psbt.outputValue (ms.withChange s.psbt rest).unsignedTx.vout := by
      rw [hleft]
      exact ms.feeSat_nonneg hrate s.psbt
    simp only [Psbt.getFee, inputs_withChange, hs.value, ok_bind, require_of hpositive]
    rw [hleft]
    rfl
  refine ⟨hrest, hfee, ?_⟩
  have hpsbt : (if 0 < rest then s.psbt.addOutput ⟨rest, ms.changeScriptPubkey⟩ else s.psbt) =
      ms.withChange s.psbt rest := by
    unfold withChange btcChange
    by_cases hzero : rest = 0
    · rw [if_neg (by omega), if_pos hzero]
      rfl
    · rw [if_pos (by omega), if_neg hzero]
      rfl
  unfold finishPsbt
  by_cases hmax : s.psbt.inputs.length ≤ maxNumInputs
  · rw [if_pos hmax, require_of hmax, ok_bind]
    change (require (0 ≤ rest) PyError.assertionError >>= fun _ => _) = _
    rw [require_of hnonneg, ok_bind]
    change (Psbt.getFee (if 0 < rest then s.psbt.addOutput ⟨rest, ms.changeScriptPubkey⟩
      else s.psbt) >>= fun _ => _) = _
    rw [hpsbt, hfee, ok_bind, require_of rfl, ok_bind]
    rfl
  · rw [if_neg hmax, bind_eq_error]
    exact .inl (require_eq_error.2 ⟨hmax, rfl⟩)

/-! ## The whole function -/

variable {transfers : List RuneTransfer} {feeRate : ℤ} {maxNumInputs : ℕ}

/-- The selections with which `create_rune_psbt` gets past coin selection, and the value of the
outputs it paid for. -/
def SelectsCoins (ms : OrdMultisig) (rpc : BitcoinRpc) (ord : OrdApiClient) (codec : Codec)
    (transfers : List RuneTransfer) (feeRate : ℤ) (s : Selection) (outputAmountSat : ℤ) : Prop :=
  transfers ≠ [] ∧ ∃ edicts initial utxos s₁, transferEdicts ord codec 2 transfers = .ok edicts ∧
    (requiredRuneAmounts transfers).usedRunes.all
      (fun r => 0 < (requiredRuneAmounts transfers).amount r) = true ∧
    ms.initialPsbt codec edicts = .ok initial ∧ listUtxos rpc = .ok utxos ∧
    ms.selectRunes rpc ord utxos (requiredRuneAmounts transfers) ⟨initial, 0, []⟩ = .ok s₁ ∧
    outputAmountSat = Psbt.outputValue s₁.psbt.unsignedTx.vout ∧
    ms.selectFee rpc ord feeRate outputAmountSat (utxos.length + 1) utxos s₁ = .ok s

lemma createRunePsbtSelecting_eq_ok {psbt : Psbt} {selected : List UTXO} :
    ms.createRunePsbtSelecting rpc ord codec transfers feeRate maxNumInputs =
        .ok (psbt, selected) ↔
      ∃ s outputAmountSat, ms.SelectsCoins rpc ord codec transfers feeRate s outputAmountSat ∧
        ms.finishPsbt feeRate outputAmountSat maxNumInputs s = .ok psbt ∧
        s.selected = selected := by
  simp only [createRunePsbtSelecting, SelectsCoins, bind_eq_ok, exists_unit, require_eq_ok,
    pure_eq_ok, Prod.mk.injEq]
  constructor
  · rintro ⟨hne, edicts, hedicts, hpos, initial, hinitial, utxos, hutxos, s₁, hs₁, s, hs, psbt',
      hfinish, rfl, hselected⟩
    exact ⟨s, _, ⟨hne, edicts, initial, utxos, s₁, hedicts, hpos, hinitial, hutxos, hs₁, rfl, hs⟩,
      hfinish, hselected⟩
  · rintro ⟨s, _, ⟨hne, edicts, initial, utxos, s₁, hedicts, hpos, hinitial, hutxos, hs₁, rfl,
      hs⟩, hfinish, hselected⟩
    exact ⟨hne, edicts, hedicts, hpos, initial, hinitial, utxos, hutxos, s₁, hs₁, s, hs, psbt,
      hfinish, rfl, hselected⟩

lemma createRunePsbt_eq_ok {psbt : Psbt} :
    ms.createRunePsbt rpc ord codec transfers feeRate maxNumInputs = .ok psbt ↔
      ∃ s outputAmountSat, ms.SelectsCoins rpc ord codec transfers feeRate s outputAmountSat ∧
        ms.finishPsbt feeRate outputAmountSat maxNumInputs s = .ok psbt := by
  simp only [createRunePsbt, bind_eq_ok, pure_eq_ok, Prod.exists]
  constructor
  · rintro ⟨psbt', selected, h, rfl⟩
    obtain ⟨s, outputAmountSat, hselects, hfinish, -⟩ := createRunePsbtSelecting_eq_ok.1 h
    exact ⟨s, outputAmountSat, hselects, hfinish⟩
  · rintro ⟨s, outputAmountSat, hselects, hfinish⟩
    exact ⟨psbt, s.selected,
      createRunePsbtSelecting_eq_ok.2 ⟨s, outputAmountSat, hselects, hfinish, rfl⟩, rfl⟩

lemma transferEdicts_length {k : ℕ} {es : List (Runes.Edict × TxOut)}
    (h : transferEdicts ord codec k transfers = .ok es) : es.length = transfers.length := by
  induction transfers generalizing k es with
  | nil =>
      obtain rfl := pure_eq_ok.1 h
      rfl
  | cons t transfers ih =>
      simp only [transferEdicts, bind_eq_ok, pure_eq_ok] at h
      obtain ⟨e, -, es, hes, rfl⟩ := h
      rw [List.length_cons, List.length_cons, ih hes]

/-- The transaction before coin selection spends nothing. -/
lemma initialPsbt_ok {edicts : List (Runes.Edict × TxOut)} {initial : Psbt}
    (h : ms.initialPsbt codec edicts = .ok initial) :
    (⟨initial, 0, []⟩ : Selection).Sound ∧
      initial.unsignedTx.vout.length = edicts.length + 2 := by
  simp only [initialPsbt, bind_eq_ok, pure_eq_ok] at h
  obtain ⟨script, -, rfl⟩ := h
  obtain ⟨hvin, hvout⟩ := foldl_addOutput ((Psbt.empty.addOutput ⟨0, script⟩).addOutput
    ⟨TARGET_POSTAGE_SAT, ms.changeScriptPubkey⟩) (edicts.map Prod.snd)
  have hinputs (psbt : Psbt) (outs : List TxOut) :
      (outs.foldl Psbt.addOutput psbt).inputs = psbt.inputs := by
    induction outs generalizing psbt with
    | nil => rfl
    | cons out outs ih => exact ih (psbt.addOutput out)
  refine ⟨⟨hvin, ?_, rfl, ?_⟩, ?_⟩
  · rw [hinputs]
    rfl
  · rw [hinputs]
    rfl
  · rw [hvout]
    simp [Psbt.addOutput, Psbt.empty]

lemma exists_required {transfers : List RuneTransfer} (hne : transfers ≠ [])
    (hpos : (requiredRuneAmounts transfers).usedRunes.all
      (fun r => 0 < (requiredRuneAmounts transfers).amount r) = true) :
    ∃ r ∈ (requiredRuneAmounts transfers).usedRunes,
      0 < (requiredRuneAmounts transfers).amount r := by
  obtain ⟨t, ht⟩ := List.exists_mem_of_ne_nil transfers hne
  have hr := mem_usedRunes.2 ⟨t, ht, rfl⟩
  exact ⟨t.rune, hr, by simpa using List.all_eq_true.1 hpos _ hr⟩

/-- Coin selection only adds outputs to the transaction it starts from. -/
lemma SelectsCoins.added {s : Selection} {outputAmountSat : ℤ}
    (h : ms.SelectsCoins rpc ord codec transfers feeRate s outputAmountSat) :
    ∃ edicts initial spent, ms.initialPsbt codec edicts = .ok initial ∧
      (⟨initial, 0, []⟩ : Selection).addAll ms rpc spent = .ok s := by
  obtain ⟨hne, edicts, initial, utxos, s₁, -, hpos, hinitial, -, hs₁, -, hs⟩ := h
  obtain ⟨funding, hfunding, -⟩ := selectRunes_funds (exists_required hne hpos) hs₁
  obtain ⟨-, fees, hfees, -⟩ := (feeLoop_selectFee (Nat.lt_succ_self _)).pays hs
  exact ⟨edicts, initial, funding ++ fees, hinitial, Selection.addAll_append hfunding hfees⟩

/-- What coin selection spends: outputs of the wallet, without runes or with one that is paid out and
the confirmations asked of other outputs than change. -/
lemma SelectsCoins.mem_selected {s : Selection} {outputAmountSat : ℤ}
    (h : ms.SelectsCoins rpc ord codec transfers feeRate s outputAmountSat) :
    ∃ utxos, rpc.listunspent = .ok utxos ∧ ∀ u ∈ s.selected, u ∈ utxos ∧
      (Runeless ord u ∨ (ms.tooFresh u = false ∧
        ∃ t ∈ transfers, reportedBalance ord t.rune u ≠ 0)) := by
  obtain ⟨hne, edicts, initial, sorted, s₁, -, hpos, -, hsorted, hs₁, -, hs⟩ := h
  simp only [listUtxos, bind_eq_ok, pure_eq_ok] at hsorted
  obtain ⟨utxos, hlist, rfl⟩ := hsorted
  obtain ⟨funding, hfunding, hfunds, haged⟩ := selectRunes_funds (exists_required hne hpos) hs₁
  obtain ⟨-, fees, hfees, hsub, hruneless⟩ := (feeLoop_selectFee (Nat.lt_succ_self _)).pays hs
  refine ⟨utxos, hlist, fun u hu => ?_⟩
  rw [(Selection.addAll_extends hfees).selected, (Selection.addAll_extends hfunding).selected,
    List.nil_append, List.mem_append] at hu
  rcases hu with hu | hu
  · obtain ⟨r, hr, hbalance⟩ := hfunds.requested u hu
    obtain ⟨t, ht, rfl⟩ := mem_usedRunes.1 hr
    exact ⟨(List.mem_insertionSort _).1 (hfunds.sublist.subset hu),
      .inr ⟨haged u hu, t, ht, hbalance⟩⟩
  · exact ⟨(List.mem_insertionSort _).1 (hsub.subset hu), .inl (hruneless u hu).2⟩

/-- The outputs spent to fund the runes and to pay the fee, in the order of the inputs. -/
structure Spends (ms : OrdMultisig) (ord : OrdApiClient) (utxos : List UTXO)
    (transfers : List RuneTransfer) (psbt : Psbt) (funding fees : List UTXO) : Prop where
  vin : psbt.unsignedTx.vin = (funding ++ fees).map UTXO.outpoint
  witnessScripts : psbt.inputs.map PsbtInput.witnessScript =
    (funding ++ fees).map UTXO.witnessScript
  spendable : ∀ u ∈ funding ++ fees, u ∈ utxos ∧ u.witnessScript.isSome = true
  distinct : psbt.unsignedTx.vin.Nodup
  funding : FundsRunes ord (utxos.insertionSort fun u v => v.confirmations ≤ u.confirmations)
    (requiredRuneAmounts transfers) funding
  fees : ∀ u ∈ fees, bearsRunes ord u = false

/-- The satoshi: the outputs of the transfers, the change, and the fee that is left. -/
structure Balances (ms : OrdMultisig) (transfers : List RuneTransfer) (feeRate : ℤ) (psbt : Psbt)
    (spent : List UTXO) (outputs : List TxOut) (changeAmountSat amount : ℤ) : Prop where
  vout : psbt.unsignedTx.vout = outputs ++ ms.btcChange changeAmountSat
  length_outputs : outputs.length = transfers.length + 2
  change : changeAmountSat = 0 ∨ DUST_SAT ≤ changeAmountSat
  fee : amount = feeRate * estimateP2wshMultisigTxVirtualSize
    { psbt.unsignedTx with vout := outputs } ms.numRequiredSigners ms.multisigRedeemScript
    ms.changeScriptPubkey true
  getFee : psbt.getFee = .ok amount
  inputValue : Psbt.inputValue psbt.inputs = .ok (spent.map fun u => (u.amountSatoshi : ℤ)).sum
  balanced : (spent.map fun u => (u.amountSatoshi : ℤ)).sum =
    Psbt.outputValue psbt.unsignedTx.vout + amount

section Accounts

variable {utxos : List UTXO} (hlist : rpc.listunspent = .ok utxos)
  (hnodup : (utxos.map UTXO.outpoint).Nodup) (hdeclared : AmountsDeclared rpc utxos)

include hlist hdeclared in
/-- **What coin selection ends with**: sound, paid for, and made of the two kinds of outputs. -/
theorem SelectsCoins.selected {s : Selection} {outputAmountSat : ℤ}
    (h : ms.SelectsCoins rpc ord codec transfers feeRate s outputAmountSat) :
    s.Sound ∧ outputAmountSat = Psbt.outputValue s.psbt.unsignedTx.vout ∧
      ms.Settled feeRate outputAmountSat s ∧
      s.psbt.unsignedTx.vout.length = transfers.length + 2 ∧
      ∃ funding fees, s.selected = funding ++ fees ∧
        FundsRunes ord (utxos.insertionSort fun u v => v.confirmations ≤ u.confirmations)
          (requiredRuneAmounts transfers) funding ∧
        fees.Sublist (utxos.insertionSort fun u v => v.confirmations ≤ u.confirmations) ∧
        ∀ u ∈ fees, u.witnessScript.isSome = true ∧ bearsRunes ord u = false := by
  obtain ⟨hne, edicts, initial, sorted, s₁, hedicts, hpos, hinitial, hsorted, hs₁, rfl, hs⟩ := h
  obtain rfl : utxos.insertionSort (fun u v => v.confirmations ≤ u.confirmations) = sorted := by
    simpa [listUtxos, hlist, pure_eq_ok] using hsorted
  obtain ⟨funding, hfunding, hfunds, -⟩ := selectRunes_funds (exists_required hne hpos) hs₁
  obtain ⟨hsettled, fees, hfees, hsub, hruneless⟩ :=
    (feeLoop_selectFee (Nat.lt_succ_self _)).pays hs
  obtain ⟨hsound, hlength⟩ := initialPsbt_ok hinitial
  have hext₁ := Selection.addAll_extends hfunding
  have hext₂ := Selection.addAll_extends hfees
  have hdeclared' : AmountsDeclared rpc (utxos.insertionSort fun u v =>
      v.confirmations ≤ u.confirmations) :=
    fun u hu => hdeclared u ((List.mem_insertionSort _).1 hu)
  have hsound₁ := hsound.addAll (fun u hu => hdeclared' u (hfunds.sublist.subset hu)) hfunding
  have hsound₂ := hsound₁.addAll (fun u hu => hdeclared' u (hsub.subset hu)) hfees
  refine ⟨hsound₂, by rw [hext₂.vout], hsettled, ?_, funding, fees, ?_, hfunds, hsub,
    fun u hu => ⟨(hruneless u hu).1, (hruneless u hu).2.bearsRunes⟩⟩
  · rw [hext₂.vout, hext₁.vout, hlength, transferEdicts_length hedicts]
  · rw [hext₂.selected, hext₁.selected]
    rfl

include hnodup in
/-- No output is spent twice: those of the rune loop bear runes, those of the fee loop none. -/
lemma nodup_funding_fees {required : RequiredRuneAmounts} {funding fees : List UTXO}
    (hfunds : FundsRunes ord (utxos.insertionSort fun u v => v.confirmations ≤ u.confirmations)
      required funding)
    (hsub : fees.Sublist (utxos.insertionSort fun u v => v.confirmations ≤ u.confirmations))
    (hruneless : ∀ u ∈ fees, bearsRunes ord u = false) :
    ((funding ++ fees).map UTXO.outpoint).Nodup := by
  have hsorted : ((utxos.insertionSort fun u v => v.confirmations ≤ u.confirmations).map
      UTXO.outpoint).Nodup :=
    ((List.perm_insertionSort _ utxos).map UTXO.outpoint).nodup_iff.2 hnodup
  rw [List.map_append]
  refine List.nodup_append.2 ⟨hsorted.sublist (hfunds.sublist.map _), hsorted.sublist (hsub.map _),
    fun o ho o' ho' heq => ?_⟩
  obtain ⟨u, hu, rfl⟩ := List.mem_map.1 ho
  obtain ⟨v, hv, rfl⟩ := List.mem_map.1 ho'
  have hbears := hfunds.bearsRunes u hu
  rw [bearsRunes_congr heq, hruneless v hv] at hbears
  exact absurd hbears (by simp)

end Accounts

end OrdMultisig

open OrdMultisig in
/-- **BTC accounting of create_rune_psbt.**  The transaction it returns spends distinct outputs of
the wallet, those with runes only to fund the transfers, and balances with the fee computed for it
and a change that is nothing or no dust.  The fee loop ends from every state, and after coin
selection only the bound on the inputs can still make the call raise. -/
theorem create_rune_psbt_accounts {ms : OrdMultisig} {rpc : BitcoinRpc} {ord : OrdApiClient}
    {codec : Codec} {utxos : List UTXO} (hlist : rpc.listunspent = .ok utxos)
    (hnodup : (utxos.map UTXO.outpoint).Nodup) (hdeclared : AmountsDeclared rpc utxos)
    {feeRate : ℤ} (hrate : 0 < feeRate) (transfers : List RuneTransfer) (maxNumInputs : ℕ) :
    (∀ outputAmountSat us s, ms.FeeLoop rpc ord feeRate outputAmountSat us s
      (ms.selectFee rpc ord feeRate outputAmountSat (us.length + 1) us s)) ∧
    (∀ psbt, ms.createRunePsbt rpc ord codec transfers feeRate maxNumInputs = .ok psbt →
      psbt.inputs.length ≤ maxNumInputs ∧ ∃ funding fees outputs changeAmountSat fee,
        ms.Spends ord utxos transfers psbt funding fees ∧
        ms.Balances transfers feeRate psbt (funding ++ fees) outputs changeAmountSat fee) ∧
    (∀ s outputAmountSat, ms.SelectsCoins rpc ord codec transfers feeRate s outputAmountSat →
      (∃ psbt, ms.finishPsbt feeRate outputAmountSat maxNumInputs s = .ok psbt) ∨
        maxNumInputs < s.psbt.inputs.length ∧
          ms.finishPsbt feeRate outputAmountSat maxNumInputs s =
            .error (.runtimeError "Number of inputs in PSBT exceeds the maximum")) := by
  refine ⟨fun _ _ _ => feeLoop_selectFee (Nat.lt_succ_self _), fun psbt h => ?_,
    fun s outputAmountSat h => ?_⟩
  · obtain ⟨s, outputAmountSat, hselects, hfinish⟩ := createRunePsbt_eq_ok.1 h
    obtain ⟨hsound, rfl, hsettled, hlength, funding, fees, hselected, hfunds, hsub, hfees⟩ :=
      hselects.selected hlist hdeclared
    obtain ⟨hchange, hfee, hresult⟩ := finishPsbt_of_settled hrate hsound hsettled maxNumInputs
    rw [hresult] at hfinish
    split at hfinish
    · rename_i hmax
      obtain rfl := Except.ok.inj hfinish
      have hvin := hsound.vin
      rw [hselected] at hvin
      refine ⟨by simpa using hmax, funding, fees, s.psbt.unsignedTx.vout, _, _,
        ⟨by simpa using hvin, ?_, fun u hu => ?_, ?_, hfunds, fun u hu => (hfees u hu).2⟩,
        ⟨vout_withChange _ _, hlength, hchange, ?_, hfee, ?_, ?_⟩⟩
      · rw [inputs_withChange, hsound.witnessScripts, hselected]
      · rcases List.mem_append.1 hu with hu | hu
        · exact ⟨(List.mem_insertionSort _).1 (hfunds.sublist.subset hu), hfunds.witnessScript u hu⟩
        · exact ⟨(List.mem_insertionSort _).1 (hsub.subset hu), (hfees u hu).1⟩
      · rw [vin_withChange, hvin]
        exact nodup_funding_fees hnodup hfunds hsub fun u hu => (hfees u hu).2
      · rw [unsignedTx_withChange, feeSat, mul_comm]
      · rw [inputs_withChange, hsound.value, hsound.amount, hselected]
      · rw [← hselected, ← hsound.amount, vout_withChange, outputValue_append,
          outputValue_btcChange]
        omega
    · exact absurd hfinish (by simp)
  · obtain ⟨hsound, rfl, hsettled, -⟩ := h.selected hlist hdeclared
    obtain ⟨-, -, hresult⟩ := finishPsbt_of_settled hrate hsound hsettled maxNumInputs
    rw [hresult]
    by_cases hmax : s.psbt.inputs.length ≤ maxNumInputs
    · exact .inl ⟨_, if_pos hmax⟩
    · exact .inr ⟨by omega, if_neg hmax⟩

/-- The example wallet pays five units of the rune at ten satoshi a byte. -/
theorem create_rune_psbt_accounts_example :
    ∃ psbt, ExampleWallet.ms.createRunePsbt ExampleWallet.rpc ExampleWallet.ord
        UnaryCodec.codec [ExampleWallet.transfer 5] 10 200 = .ok psbt ∧
      ∃ funding fees outputs changeAmountSat fee,
        ExampleWallet.ms.Spends ExampleWallet.ord ExampleWallet.utxos [ExampleWallet.transfer 5]
          psbt funding fees ∧
        ExampleWallet.ms.Balances [ExampleWallet.transfer 5] 10 psbt (funding ++ fees) outputs
          changeAmountSat fee := by
  obtain ⟨psbt, hpsbt⟩ : ∃ psbt, ExampleWallet.ms.createRunePsbt ExampleWallet.rpc
      ExampleWallet.ord UnaryCodec.codec [ExampleWallet.transfer 5] 10 200 = .ok psbt :=
    exists_ok_of_isOk (by decide +kernel)
  have hdeclared : OrdMultisig.AmountsDeclared ExampleWallet.rpc ExampleWallet.utxos := by
    intro u hu tx txout htx htxout
    obtain rfl := Except.ok.inj htx
    rcases List.mem_cons.1 hu with rfl | hu
    · exact congrArg TxOut.nValue (Option.some.inj htxout).symm
    · obtain rfl : u = ExampleWallet.btcUtxo := by simpa using hu
      exact congrArg TxOut.nValue (Option.some.inj htxout).symm
  have hlist : ExampleWallet.rpc.listunspent = .ok ExampleWallet.utxos := rfl
  have hnodup : (ExampleWallet.utxos.map UTXO.outpoint).Nodup := by
    decide
  obtain ⟨-, haccounts, -⟩ := create_rune_psbt_accounts hlist hnodup hdeclared
    (show (0 : ℤ) < 10 by norm_num) [ExampleWallet.transfer 5] 200
  exact ⟨psbt, hpsbt, (haccounts psbt hpsbt).2⟩

end NbteBridge
