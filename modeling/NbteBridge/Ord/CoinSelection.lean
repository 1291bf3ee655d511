import NbteBridge.Ord.Reports

/-!
# Coin selection

What the two loops of `create_rune_psbt` select.  With every output reported, one round of the
rune loop is `selectRunes_cons`; by induction the outputs it selects are usable ones that hold the
required amounts (`selectRunes_ok`), and it raises only when the usable outputs together do not
(`selectRunes_error`).  The fee loop adds outputs without runes only (`selectFee_ok`).
-/

namespace NbteBridge

open Checked

namespace OrdMultisig

variable {ms : OrdMultisig} {rpc : BitcoinRpc} {ord : OrdApiClient} {idOf : Rune → Runes.RuneId}
  {chain : Chain}

/-- An output coin selection for runes may use: it has its witness script, and it is change or has
the confirmations asked of other outputs. -/
def Usable (ms : OrdMultisig) (u : UTXO) : Prop :=
  u.witnessScript.isSome = true ∧ (u.address = some ms.changeAddress ∨
    ms.minNonChangeRuneUtxoConfirmations ≤ u.confirmations)

instance (u : UTXO) : Decidable (ms.Usable u) := inferInstanceAs (Decidable (_ ∧ _))

/-- The runes of a list of outputs. -/
def runesOf (chain : Chain) (utxos : List UTXO) : Runes.Balances :=
  fun id => (utxos.map fun u => chain u.outpoint id).sum

/-- The runes of the usable ones among them. -/
def usableRunes (ms : OrdMultisig) (chain : Chain) (utxos : List UTXO) : Runes.Balances :=
  runesOf chain (utxos.filter fun u => ms.Usable u)

lemma runesOf_append (us vs : List UTXO) (id : Runes.RuneId) :
    runesOf chain (us ++ vs) id = runesOf chain us id + runesOf chain vs id := by
  simp [runesOf]

lemma runesOf_cons (u : UTXO) (us : List UTXO) (id : Runes.RuneId) :
    runesOf chain (u :: us) id = chain u.outpoint id + runesOf chain us id := by
  simp [runesOf]

lemma runesOf_sublist {us vs : List UTXO} (h : us.Sublist vs) (id : Runes.RuneId) :
    runesOf chain us id ≤ runesOf chain vs id :=
  (h.map _).sum_le_sum fun _ _ => Nat.zero_le _

lemma usableRunes_cons (u : UTXO) (us : List UTXO) (id : Runes.RuneId) :
    ms.usableRunes chain (u :: us) id =
      (if ms.Usable u then chain u.outpoint id else 0) + ms.usableRunes chain us id := by
  by_cases h : ms.Usable u
  · simp [usableRunes, h, runesOf_cons]
  · simp [usableRunes, h]

/-! ## Adding an output -/

/-- `s'` is `s` with the outputs `new` spent too. -/
structure Selection.Extends (s s' : Selection) (new : List UTXO) : Prop where
  selected : s'.selected = s.selected ++ new
  vin : s'.psbt.unsignedTx.vin = s.psbt.unsignedTx.vin ++ new.map UTXO.outpoint
  vout : s'.psbt.unsignedTx.vout = s.psbt.unsignedTx.vout

lemma Selection.Extends.refl (s : Selection) : s.Extends s [] := ⟨by simp, by simp, rfl⟩

lemma Selection.Extends.trans {s s' s'' : Selection} {new new' : List UTXO}
    (h : s.Extends s' new) (h' : s'.Extends s'' new') : s.Extends s'' (new ++ new') := by
  refine ⟨?_, ?_, h'.vout.trans h.vout⟩
  · rw [h'.selected, h.selected, List.append_assoc]
  · rw [h'.vin, h.vin, List.map_append, List.append_assoc]

lemma Selection.add_ok {s s' : Selection} {u : UTXO} (h : s.add ms rpc u = .ok s') :
    s.Extends s' [u] := by
  simp only [Selection.add, addPsbtInput, bind_eq_ok, exists_unit, pure_eq_ok] at h
  obtain ⟨psbt, ⟨tx, -, d, -, -, txout, -, rfl⟩, rfl⟩ := h
  exact ⟨rfl, rfl, rfl⟩

/-- The wallet's own outputs can be added. -/
lemma Selection.add_of_owns (s : Selection) {u : UTXO} (h : ms.Owns rpc u) :
    ∃ s', s.add ms rpc u = .ok s' := by
  obtain ⟨tx, txout, htx, htxout⟩ := h.transaction
  obtain ⟨d, hd, hfingerprint⟩ := h.descriptor
  simp only [Selection.add, addPsbtInput, bind_eq_ok, exists_unit, require_eq_ok, orError_eq_ok,
    pure_eq_ok]
  exact ⟨_, _, ⟨tx, htx, d, hd, hfingerprint, txout, htxout, rfl⟩, rfl⟩

/-! ## One round of the rune loop -/

lemma relevantRuneBalances_eq {o : OrdOutput} (runes : List Rune) :
    relevantRuneBalances o runes = .ok (runes.map fun r => (r, o.balanceOf r)) := by
  induction runes with
  | nil => rfl
  | cons r runes ih =>
      simp only [relevantRuneBalances, OrdOutput.getRuneBalance_name, ih, ok_bind]
      rfl

/-- The required amounts after an output was selected. -/
def RequiredRuneAmounts.spend (required : RequiredRuneAmounts) (balance : Rune → ℕ) :
    RequiredRuneAmounts :=
  required.subtract (required.usedRunes.map fun r => (r, balance r))

lemma find?_map_balance {balance : Rune → ℕ} {r : Rune} {runes : List Rune} (hr : r ∈ runes) :
    (runes.map fun r => (r, balance r)).find? (fun e => decide (e.1 = r)) =
      some (r, balance r) := by
  induction runes with
  | nil => exact absurd hr (by simp)
  | cons r' runes ih =>
      by_cases h : r' = r
      · simp [h]
      · have hr' : r ∈ runes := by
          rcases List.mem_cons.1 hr with rfl | hr'
          · exact absurd rfl h
          · exact hr'
        simpa [h] using ih hr'

lemma RequiredRuneAmounts.amount_spend {required : RequiredRuneAmounts} {balance : Rune → ℕ}
    {r : Rune} (hr : r ∈ required.usedRunes) :
    (required.spend balance).amount r = required.amount r - balance r := by
  show required.amount r - _ = _
  rw [find?_map_balance hr]
  rfl

/-- **One round of the rune loop.**  A usable output with a required rune is selected, and ends the
loop when it completes the required amounts; any other is skipped. -/
lemma selectRunes_cons (hid : Function.Injective idOf) {u : UTXO}
    (hu : ord.Reports idOf chain u.outpoint) (utxos : List UTXO) (required : RequiredRuneAmounts)
    (s : Selection) :
    ms.selectRunes rpc ord (u :: utxos) required s =
      if ms.Usable u ∧ ∃ r ∈ required.usedRunes, chain u.outpoint (idOf r) ≠ 0 then
        s.add ms rpc u >>= fun s' =>
          if ∀ r ∈ required.usedRunes, required.amount r ≤ chain u.outpoint (idOf r) then pure s'
          else ms.selectRunes rpc ord utxos (required.spend fun r => chain u.outpoint (idOf r)) s'
      else ms.selectRunes rpc ord utxos required s := by
  obtain ⟨o, ho, hbalance, hnone⟩ := hu.getOrdOutput hid
  have ho' : ord.getOrdOutput u.txid u.vout = .ok o := ho
  rw [selectRunes]
  by_cases hscript : u.witnessScript.isNone = true
  · have hnot : ¬ ms.Usable u := by
      rintro ⟨hsome, -⟩
      rw [Option.isNone_iff_eq_none.1 hscript] at hsome
      exact absurd hsome (by simp)
    rw [if_pos hscript, if_neg fun h => hnot h.1]
  rw [if_neg hscript, ho', ok_bind]
  by_cases hrunes : o.hasRuneBalances = true
  · rw [if_neg (not_not.2 hrunes)]
    by_cases hfresh : ms.tooFresh u = true
    · have hnot : ¬ ms.Usable u := by
        simp only [tooFresh, decide_eq_true_eq] at hfresh
        rintro ⟨-, haddr | hconf⟩
        · exact hfresh.1 haddr
        · omega
      rw [if_pos hfresh, if_neg fun h => hnot h.1]
    · have husable : ms.Usable u := by
        refine ⟨by simpa [Option.isSome_iff_ne_none] using hscript, ?_⟩
        simp only [tooFresh, decide_eq_true_eq, not_and_or, not_not, not_lt] at hfresh
        exact hfresh
      rw [if_neg hfresh, relevantRuneBalances_eq, ok_bind]
      simp only [hbalance]
      by_cases hany : ∃ r ∈ required.usedRunes, chain u.outpoint (idOf r) ≠ 0
      · rw [if_neg (by simpa using hany), if_pos ⟨husable, hany⟩]
        have hdone : ((required.spend fun r => chain u.outpoint (idOf r)).usedRunes.all
            (fun r => (required.spend fun r => chain u.outpoint (idOf r)).amount r ≤ 0) = true) ↔
            ∀ r ∈ required.usedRunes, required.amount r ≤ chain u.outpoint (idOf r) := by
          rw [List.all_eq_true]
          refine forall₂_congr fun r hr => ?_
          have hr' : r ∈ required.usedRunes := hr
          rw [decide_eq_true_eq, RequiredRuneAmounts.amount_spend hr']
          omega
        refine congrArg _ (funext fun s' => ?_)
        exact if_congr hdone rfl rfl
      · rw [if_pos (by simpa using hany), if_neg fun h => hany h.2]
  · have hzero := hnone (by simpa using hrunes)
    rw [if_pos hrunes, if_neg]
    rintro ⟨-, r, -, hr⟩
    exact hr (hzero _)

/-! ## The rune loop -/

/-- **What the rune loop selects**: usable outputs that hold the required amounts. -/
theorem selectRunes_ok (hid : Function.Injective idOf) {utxos : List UTXO}
    (hall : ∀ u ∈ utxos, ord.Reports idOf chain u.outpoint) {required : RequiredRuneAmounts}
    {s s' : Selection} (h : ms.selectRunes rpc ord utxos required s = .ok s') :
    ∃ new, s.Extends s' new ∧ new.Sublist (utxos.filter fun u => ms.Usable u) ∧
      ∀ r ∈ required.usedRunes, required.amount r ≤ runesOf chain new (idOf r) := by
  induction utxos generalizing required s with
  | nil => exact absurd h (by simp [selectRunes])
  | cons u utxos ih =>
      have hrest : ∀ v ∈ utxos, ord.Reports idOf chain v.outpoint :=
        fun v hv => hall v (by simp [hv])
      rw [selectRunes_cons hid (hall u (by simp))] at h
      by_cases hsel : ms.Usable u ∧ ∃ r ∈ required.usedRunes, chain u.outpoint (idOf r) ≠ 0
      · rw [if_pos hsel, bind_eq_ok] at h
        obtain ⟨s₁, hadd, h⟩ := h
        have hext := Selection.add_ok hadd
        have hfilter : (u :: utxos).filter (fun u => ms.Usable u) =
            u :: utxos.filter fun u => ms.Usable u := by
          simp [hsel.1]
        by_cases hdone : ∀ r ∈ required.usedRunes, required.amount r ≤ chain u.outpoint (idOf r)
        · rw [if_pos hdone] at h
          obtain rfl := pure_eq_ok.1 h
          refine ⟨[u], hext, ?_, fun r hr => ?_⟩
          · rw [hfilter]
            exact List.singleton_sublist.2 (by simp)
          · simpa [runesOf] using hdone r hr
        · rw [if_neg hdone] at h
          obtain ⟨new, hext', hsub, hamount⟩ := ih hrest h
          refine ⟨u :: new, hext.trans hext', ?_, fun r hr => ?_⟩
          · rw [hfilter]
            exact hsub.cons_cons u
          · have hle := hamount r hr
            rw [RequiredRuneAmounts.amount_spend hr] at hle
            rw [runesOf_cons]
            push_cast
            omega
      · rw [if_neg hsel] at h
        obtain ⟨new, hext, hsub, hamount⟩ := ih hrest h
        refine ⟨new, hext, hsub.trans ?_, hamount⟩
        exact (List.sublist_cons_self u utxos).filter _

/-- **When the rune loop raises**: with enough of its outputs the wallet's own, only because the
usable outputs do not hold enough of some rune. -/
theorem selectRunes_error (hid : Function.Injective idOf) {utxos : List UTXO}
    (hall : ∀ u ∈ utxos, ord.Reports idOf chain u.outpoint)
    (howns : ∀ u ∈ utxos, u.witnessScript.isSome = true → ms.Owns rpc u)
    {required : RequiredRuneAmounts} {s : Selection} {e : PyError}
    (hpos : ∃ r ∈ required.usedRunes, 0 < required.amount r)
    (h : ms.selectRunes rpc ord utxos required s = .error e) :
    (∃ missing, e = .insufficientRuneBalanceError missing) ∧
      ∃ r ∈ required.usedRunes, (ms.usableRunes chain utxos (idOf r) : ℤ) < required.amount r := by
  induction utxos generalizing required s with
  | nil =>
      obtain ⟨r, hr, hpos⟩ := hpos
      have he : PyError.insufficientRuneBalanceError _ = e := Except.error.inj h
      exact ⟨⟨_, he.symm⟩, r, hr, hpos⟩
  | cons u utxos ih =>
      have hrest : ∀ v ∈ utxos, ord.Reports idOf chain v.outpoint :=
        fun v hv => hall v (by simp [hv])
      have howns' : ∀ v ∈ utxos, v.witnessScript.isSome = true → ms.Owns rpc v :=
        fun v hv => howns v (by simp [hv])
      rw [selectRunes_cons hid (hall u (by simp))] at h
      by_cases hsel : ms.Usable u ∧ ∃ r ∈ required.usedRunes, chain u.outpoint (idOf r) ≠ 0
      · obtain ⟨s₁, hadd⟩ := Selection.add_of_owns s (howns u (by simp) hsel.1.1)
        rw [if_pos hsel, hadd, ok_bind] at h
        by_cases hdone : ∀ r ∈ required.usedRunes, required.amount r ≤ chain u.outpoint (idOf r)
        · rw [if_pos hdone] at h
          exact absurd h pure_ne_error
        · rw [if_neg hdone] at h
          have hpos' : ∃ r ∈ (required.spend fun r => chain u.outpoint (idOf r)).usedRunes,
              0 < (required.spend fun r => chain u.outpoint (idOf r)).amount r := by
            push Not at hdone
            obtain ⟨r, hr, hlt⟩ := hdone
            refine ⟨r, hr, ?_⟩
            rw [RequiredRuneAmounts.amount_spend hr]
            omega
          obtain ⟨hmissing, r, hr, hlt⟩ := ih hrest howns' hpos' h
          have hr' : r ∈ required.usedRunes := hr
          refine ⟨hmissing, r, hr', ?_⟩
          rw [RequiredRuneAmounts.amount_spend hr'] at hlt
          rw [usableRunes_cons, if_pos hsel.1]
          push_cast
          omega
      · rw [if_neg hsel] at h
        obtain ⟨hmissing, r, hr, hlt⟩ := ih hrest howns' hpos h
        refine ⟨hmissing, r, hr, ?_⟩
        -- a skipped output is not usable, or holds none of the rune
        have hskip : (if ms.Usable u then chain u.outpoint (idOf r) else 0) = 0 := by
          by_cases husable : ms.Usable u
          · rw [if_pos husable]
            by_contra hne
            exact hsel ⟨husable, r, hr, hne⟩
          · exact if_neg husable
        rw [usableRunes_cons, hskip, zero_add]
        exact hlt

/-! ## The fee loop -/

lemma popBtcUtxo_ok (hid : Function.Injective idOf) {utxos rest : List UTXO}
    (hall : ∀ u ∈ utxos, ord.Reports idOf chain u.outpoint) {u : UTXO}
    (h : popBtcUtxo ord utxos = .ok (u, rest)) :
    u ∈ utxos ∧ rest.Sublist utxos ∧ ∀ id, chain u.outpoint id = 0 := by
  induction utxos with
  | nil => exact absurd h (by simp [popBtcUtxo])
  | cons v utxos ih =>
      obtain ⟨o, ho, -, hnone⟩ := (hall v (by simp)).getOrdOutput hid
      have ho' : ord.getOrdOutput v.txid v.vout = .ok o := ho
      rw [popBtcUtxo, ho', ok_bind] at h
      by_cases hrunes : o.hasRuneBalances = true
      · rw [if_pos hrunes] at h
        obtain ⟨hu, hsub, hzero⟩ := ih (fun w hw => hall w (by simp [hw])) h
        exact ⟨by simp [hu], hsub.trans (List.sublist_cons_self _ _), hzero⟩
      · rw [if_neg hrunes] at h
        obtain ⟨rfl, rfl⟩ := Prod.mk.inj (pure_eq_ok.1 h)
        exact ⟨by simp, List.sublist_cons_self _ _, hnone (by simpa using hrunes)⟩

lemma popBtcUtxo_error (hid : Function.Injective idOf) {utxos : List UTXO}
    (hall : ∀ u ∈ utxos, ord.Reports idOf chain u.outpoint) {e : PyError}
    (h : popBtcUtxo ord utxos = .error e) :
    ∃ text, e = .insufficientBTCBalanceError text := by
  induction utxos with
  | nil =>
      have he : PyError.insufficientBTCBalanceError _ = e := Except.error.inj h
      exact ⟨_, he.symm⟩
  | cons v utxos ih =>
      obtain ⟨o, ho, -, -⟩ := (hall v (by simp)).getOrdOutput hid
      have ho' : ord.getOrdOutput v.txid v.vout = .ok o := ho
      rw [popBtcUtxo, ho', ok_bind] at h
      by_cases hrunes : o.hasRuneBalances = true
      · rw [if_pos hrunes] at h
        exact ih (fun w hw => hall w (by simp [hw])) h
      · rw [if_neg hrunes] at h
        exact absurd h pure_ne_error

/-- **What the fee loop selects**: outputs of the wallet without runes. -/
theorem selectFee_ok (hid : Function.Injective idOf) {feeRate outputAmountSat : ℤ} {fuel : ℕ}
    {utxos : List UTXO} (hall : ∀ u ∈ utxos, ord.Reports idOf chain u.outpoint)
    {s s' : Selection}
    (h : ms.selectFee rpc ord feeRate outputAmountSat fuel utxos s = .ok s') :
    ∃ new, s.Extends s' new ∧ ∀ u ∈ new, u ∈ utxos ∧ ∀ id, chain u.outpoint id = 0 := by
  induction fuel generalizing utxos s with
  | zero => exact absurd h (by simp [selectFee])
  | succ fuel ih =>
      have hdone (heq : s = s') :
          ∃ new, s.Extends s' new ∧ ∀ u ∈ new, u ∈ utxos ∧ ∀ id, chain u.outpoint id = 0 :=
        ⟨[], heq ▸ Selection.Extends.refl s, by simp⟩
      rw [selectFee] at h
      by_cases hexact : s.inputAmountSat = outputAmountSat + ms.feeSat feeRate s.psbt
      · rw [if_pos hexact] at h
        exact hdone (pure_eq_ok.1 h)
      by_cases hchange : outputAmountSat + ms.feeSat feeRate s.psbt + DUST_SAT ≤ s.inputAmountSat
      · rw [if_neg hexact, if_pos hchange] at h
        exact hdone (pure_eq_ok.1 h)
      rw [if_neg hexact, if_neg hchange, bind_eq_ok] at h
      obtain ⟨⟨u, rest⟩, hpop, h⟩ := h
      obtain ⟨hu, hsub, hzero⟩ := popBtcUtxo_ok hid hall hpop
      have hrest : ∀ v ∈ rest, ord.Reports idOf chain v.outpoint :=
        fun v hv => hall v (hsub.subset hv)
      have hlift {new : List UTXO} (hnew : ∀ v ∈ new, v ∈ rest ∧ ∀ id, chain v.outpoint id = 0) :
          ∀ v ∈ new, v ∈ utxos ∧ ∀ id, chain v.outpoint id = 0 :=
        fun v hv => ⟨hsub.subset (hnew v hv).1, (hnew v hv).2⟩
      by_cases hscript : u.witnessScript.isNone = true
      · simp only [hscript, if_true] at h
        obtain ⟨new, hext, hnew⟩ := ih hrest h
        exact ⟨new, hext, hlift hnew⟩
      · simp only [hscript] at h
        obtain ⟨s₁, hadd, h⟩ := bind_eq_ok.1 h
        obtain ⟨new, hext, hnew⟩ := ih hrest h
        refine ⟨u :: new, (Selection.add_ok hadd).trans hext, fun v hv => ?_⟩
        rcases List.mem_cons.1 hv with rfl | hv
        · exact ⟨hu, hzero⟩
        · exact hlift hnew v hv

/-- The fee loop raises for want of satoshi only. -/
theorem selectFee_error (hid : Function.Injective idOf) {feeRate outputAmountSat : ℤ} {fuel : ℕ}
    {utxos : List UTXO} (hall : ∀ u ∈ utxos, ord.Reports idOf chain u.outpoint)
    (howns : ∀ u ∈ utxos, u.witnessScript.isSome = true → ms.Owns rpc u) {s : Selection}
    {e : PyError} (h : ms.selectFee rpc ord feeRate outputAmountSat fuel utxos s = .error e) :
    ∃ text, e = .insufficientBTCBalanceError text := by
  induction fuel generalizing utxos s with
  | zero =>
      have he : PyError.insufficientBTCBalanceError _ = e := Except.error.inj h
      exact ⟨_, he.symm⟩
  | succ fuel ih =>
      rw [selectFee] at h
      by_cases hexact : s.inputAmountSat = outputAmountSat + ms.feeSat feeRate s.psbt
      · rw [if_pos hexact] at h
        exact absurd h pure_ne_error
      by_cases hchange : outputAmountSat + ms.feeSat feeRate s.psbt + DUST_SAT ≤ s.inputAmountSat
      · rw [if_neg hexact, if_pos hchange] at h
        exact absurd h pure_ne_error
      rw [if_neg hexact, if_neg hchange, bind_eq_error] at h
      obtain hpop | ⟨⟨u, rest⟩, hpop, h⟩ := h
      · exact popBtcUtxo_error hid hall hpop
      obtain ⟨hu, hsub, -⟩ := popBtcUtxo_ok hid hall hpop
      have hrest : ∀ v ∈ rest, ord.Reports idOf chain v.outpoint :=
        fun v hv => hall v (hsub.subset hv)
      have howns' : ∀ v ∈ rest, v.witnessScript.isSome = true → ms.Owns rpc v :=
        fun v hv => howns v (hsub.subset hv)
      by_cases hscript : u.witnessScript.isNone = true
      · simp only [hscript, if_true] at h
        exact ih hrest howns' h
      · simp only [hscript] at h
        have hsome : u.witnessScript.isSome = true := by
          simpa [Option.isSome_iff_ne_none] using hscript
        obtain ⟨s₁, hadd⟩ := Selection.add_of_owns s (howns u hu hsome)
        rw [hadd] at h
        exact ih hrest howns' h

end OrdMultisig

end NbteBridge
