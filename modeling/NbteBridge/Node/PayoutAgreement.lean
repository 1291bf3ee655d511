import NbteBridge.Node.EventScan
import NbteBridge.Node.PayoutCheck
import NbteBridge.Ord.Accounting

/-!
# The builder of a payout and its checker

The leader builds the transaction of a payout and every node checks it before it signs, with
computations of their own.  The outputs and the edict the leader makes are those the check expects
(`createRunePsbt_single`), whether or not BTC change was left, and the fee rate lies in the range
that is accepted (`payoutFeeRate_inRange`).  The fee itself is computed for a transaction with a
change output, so without one it is compared with that of a smaller transaction: the two agree
exactly when the transaction is large enough for the margin (`FeeWithinMargin`).
-/

namespace NbteBridge

open Checked Tables

/-! ## The transaction built -/

namespace OrdMultisig

variable {ms : OrdMultisig} {rpc : BitcoinRpc} {ord : OrdApiClient} {codec : Codec}

/-- Coin selection for runes leaves the outputs as they are. -/
lemma selectRunes_vout {utxos : List UTXO} {required : RequiredRuneAmounts} {s s' : Selection}
    (h : ms.selectRunes rpc ord utxos required s = .ok s') :
    s'.psbt.unsignedTx.vout = s.psbt.unsignedTx.vout := by
  induction utxos generalizing required s with
  | nil => exact absurd h (by simp [selectRunes])
  | cons utxo utxos ih =>
      rcases selectRunes_cons_ok h with hskip | ⟨-, -, -, -, s₁, hadd, rfl | ⟨-, hrest⟩⟩
      · exact ih hskip
      · exact (Selection.add_ok hadd).vout
      · rw [ih hrest, (Selection.add_ok hadd).vout]

/-- The size of a transaction with a change output is the one that was estimated for it. -/
lemma feeSat_eq_of_change (ms : OrdMultisig) (feeRate : ℤ) (psbt : Psbt) (value : ℤ) :
    ms.feeSat feeRate psbt =
      ms.estimatePsbtSizeVb (psbt.addOutput ⟨value, ms.changeScriptPubkey⟩) * feeRate := by
  have hsize : (estimateP2wshMultisigTxVirtualSize psbt.unsignedTx ms.numRequiredSigners
      ms.multisigRedeemScript ms.changeScriptPubkey true) =
        ms.estimatePsbtSizeVb (psbt.addOutput ⟨value, ms.changeScriptPubkey⟩) := by
    rw [estimatePsbtSizeVb, estimateP2wshMultisigTxVirtualSize, estimateP2wshMultisigTxVirtualSize]
    simp [Psbt.addOutput, txOutSize]
  rw [feeSat, hsize]

/-- The change output, if there is one, and the fee that is left. -/
lemma finishPsbt_fee {feeRate outputAmountSat : ℤ} {maxNumInputs : ℕ} {s : Selection} {psbt : Psbt}
    (h : ms.finishPsbt feeRate outputAmountSat maxNumInputs s = .ok psbt) :
    (psbt = s.psbt ∧ psbt.getFee = .ok (ms.feeSat feeRate psbt)) ∨
    ∃ value, psbt = s.psbt.addOutput ⟨value, ms.changeScriptPubkey⟩ ∧
      psbt.getFee = .ok (ms.estimatePsbtSizeVb psbt * feeRate) := by
  simp only [finishPsbt, bind_eq_ok, exists_unit, require_eq_ok, pure_eq_ok] at h
  obtain ⟨-, -, fee, hfee, rfl, hpsbt⟩ := h
  split at hpsbt
  · rename_i hchange
    rw [if_pos hchange] at hfee
    rw [hpsbt] at hfee
    refine .inr ⟨_, hpsbt.symm, ?_⟩
    rw [hfee, ← hpsbt, ← feeSat_eq_of_change]
  · rename_i hchange
    rw [if_neg hchange, hpsbt] at hfee
    refine .inl ⟨hpsbt.symm, ?_⟩
    rw [hfee, ← hpsbt]

/-- The transaction of one transfer: its runestone, the rune change, the receiver's output and
maybe BTC change. -/
structure BuiltSingle (ms : OrdMultisig) (codec : Codec) (id : Runes.RuneId) (t : RuneTransfer)
    (feeRate : ℤ) (psbt : Psbt) : Prop where
  amount_pos : 0 < t.amount
  amount_lt : t.amount < 2 ^ 128
  outputs : ∃ script receiver change,
    codec.encipher ⟨[⟨id, t.amount.toNat, 2⟩], none, none, some 1⟩ = .ok script ∧
    codec.addressScript t.receiver = .ok receiver ∧
    psbt.unsignedTx.vout = ⟨0, script⟩ :: ⟨TARGET_POSTAGE_SAT, ms.changeScriptPubkey⟩ ::
      ⟨t.postage, receiver⟩ :: change ∧
    ((change = [] ∧ psbt.getFee = .ok (ms.feeSat feeRate psbt)) ∨
      ∃ value, change = [⟨value, ms.changeScriptPubkey⟩] ∧
        psbt.getFee = .ok (ms.estimatePsbtSizeVb psbt * feeRate))

/-- **What is built for one transfer.** -/
theorem createRunePsbt_single {t : RuneTransfer} {feeRate : ℤ} {maxNumInputs : ℕ} {psbt : Psbt}
    (h : ms.createRunePsbt rpc ord codec [t] feeRate maxNumInputs = .ok psbt) :
    ∃ response, ord.getRune t.rune.name = .ok (some response) ∧
      ms.BuiltSingle codec response.id t feeRate psbt := by
  simp only [createRunePsbt, createRunePsbtSelecting, transferEdicts, transferEdict, pyordEdict,
    bind_eq_ok, exists_unit, require_eq_ok, orError_eq_ok, pure_eq_ok, Prod.exists] at h
  obtain ⟨psbt', outs, ⟨-, es, ⟨edict, out, ⟨-, response?, hresponse, response, rfl, -, hpos, edict',
    ⟨hbound, rfl⟩, receiver, hreceiver, hedict⟩, rest, rfl, rfl⟩, -, initial, hinitial, utxos, -,
    s₁, hs₁, s₂, hs₂, final, hfinal, hresult⟩, rfl⟩ := h
  obtain ⟨rfl, rfl⟩ := Prod.mk.inj hedict
  obtain ⟨rfl, -⟩ := Prod.mk.inj hresult
  simp only [initialPsbt, bind_eq_ok, pure_eq_ok] at hinitial
  obtain ⟨script, hscript, rfl⟩ := hinitial
  have hvout : s₂.psbt.unsignedTx.vout = [⟨0, script⟩,
      ⟨TARGET_POSTAGE_SAT, ms.changeScriptPubkey⟩, ⟨t.postage, receiver⟩] := by
    obtain ⟨-, fees, hfees, -⟩ := (feeLoop_selectFee (Nat.lt_succ_self _)).pays hs₂
    rw [(Selection.addAll_extends hfees).vout, selectRunes_vout hs₁]
    rfl
  refine ⟨response, hresponse, hpos, hbound.2, script, receiver, ?_⟩
  rcases finishPsbt_fee hfinal with ⟨rfl, hfee⟩ | ⟨value, rfl, hfee⟩
  · exact ⟨[], hscript, hreceiver, hvout, .inl ⟨rfl, hfee⟩⟩
  · refine ⟨[⟨value, ms.changeScriptPubkey⟩], hscript, hreceiver, ?_, .inr ⟨value, rfl, hfee⟩⟩
    rw [Psbt.addOutput, hvout]
    rfl

end OrdMultisig

/-! ## Names of runes -/

/-- A row with the name and the number of one rune. -/
def RuneRow.IsRune (row : RuneRow) : Prop := ∃ rune : Rune, row.n = rune.n ∧ row.name = rune.name

/-- The rows of runes, and those that token deposits were given, are of runes. -/
structure Db.Named {Hash : Type} (db : Db Hash) : Prop where
  runes : ∀ n row, db.runes.get? n = some row → row.IsRune
  tokens : ∀ k row, db.runeTokenDeposits.get? k = some row → row.rune.IsRune

namespace Db.Named

open RuneBridgeService

variable {Hash : Type} {service : RuneBridgeService Hash} {views : Views Hash} {db db' : Db Hash}

lemma empty : (Db.empty : Db Hash).Named :=
  ⟨fun _ _ h => absurd h (by simp [Db.empty]), fun _ _ h => absurd h (by simp [Db.empty])⟩

/-- A rune's row added. -/
lemma setRune (h : db.Named) {n : ℕ} {row : RuneRow} (hrow : row.IsRune) :
    ({ db with runes := db.runes.set n row } : Db Hash).Named where
  runes := Table.forall_get?_set h.runes hrow
  tokens := h.tokens

/-- A token deposit's row written, with the row of a rune. -/
lemma setRuneTokenDeposit (h : db.Named) {key : RuneTokenDepositKey} {row : RuneTokenDeposit}
    (hrow : row.rune.IsRune) : (db.setRuneTokenDeposit key row).Named where
  runes := h.runes
  tokens := Table.forall_get?_set h.tokens hrow

lemma indexRunes {entries : List RuneEntry} (h : db.Named)
    (hindex : RuneBridgeService.indexRunes entries db = .ok db') : db'.Named := by
  induction entries generalizing db with
  | nil =>
      obtain rfl := pure_eq_ok.1 hindex
      exact h
  | cons entry entries ih =>
      simp only [RuneBridgeService.indexRunes, bind_eq_ok] at hindex
      obtain ⟨rune, -, hindex⟩ := hindex
      split at hindex
      · exact ih h hindex
      · exact ih (h.setRune ⟨rune, rfl, rfl⟩) hindex

lemma indexEvents {events : List RuneTransferToBtcEvent} (h : db.Named)
    (hindex : RuneBridgeService.indexEvents views events db = .ok db') : db'.Named := by
  induction events generalizing db with
  | nil =>
      obtain rfl := pure_eq_ok.1 hindex
      exact h
  | cons event events ih =>
      simp only [RuneBridgeService.indexEvents, indexEvent, bind_eq_ok, exists_unit,
        pure_eq_ok] at hindex
      obtain ⟨db₁, ⟨⟨rune, db₂⟩, hrune, -, rfl⟩, hrest⟩ := hindex
      have hadded : db₂.Named ∧ rune.IsRune := by
        unfold getOrAddRune at hrune
        split at hrune
        · rename_i row hrow
          obtain ⟨rfl, rfl⟩ := Prod.mk.inj (pure_eq_ok.1 hrune)
          exact ⟨h, h.runes _ _ hrow⟩
        · simp only [bind_eq_ok, pure_eq_ok] at hrune
          obtain ⟨rune', -, response, -, entry, -, heq⟩ := hrune
          obtain ⟨rfl, rfl⟩ := Prod.mk.inj heq
          exact ⟨h.setRune ⟨rune', rfl, rfl⟩, rune', rfl, rfl⟩
      exact ih (hadded.1.setRuneTokenDeposit hadded.2) hrest

/-- A row changed but for its rune. -/
lemma changeRuneTokenDeposit (h : db.Named) {key : RuneTokenDepositKey}
    {row row' : RuneTokenDeposit} (hrow : db.runeTokenDeposits.get? key = some row)
    (hrune : row'.rune = row.rune) : (db.setRuneTokenDeposit key row').Named :=
  h.setRuneTokenDeposit (by rw [hrune]; exact h.tokens key row hrow)

lemma scanRuneDeposits {n : ℕ} (h : db.Named)
    (hscan : service.scanRuneDeposits views db = .ok (n, db')) : db'.Named := by
  simp only [RuneBridgeService.scanRuneDeposits, indexDeposits, bind_eq_ok, exists_unit,
    require_eq_ok, pure_eq_ok] at hscan
  obtain ⟨batch, -, db₁, hrunes, ⟨m, db₂⟩, htxs, -, heq⟩ := hscan
  obtain ⟨-, rfl⟩ := Prod.mk.inj heq
  have hdb₁ := h.indexRunes hrunes
  exact ⟨fun n row hrow => hdb₁.runes n row (indexTxs_runes htxs ▸ hrow), fun k row hrow =>
    hdb₁.tokens k row ((indexTxs_kept htxs).runeTokenDeposits ▸ hrow)⟩

lemma scanRuneTokenDeposits {n : ℕ} (h : db.Named)
    (hscan : service.scanRuneTokenDeposits views db = .ok (n, db')) : db'.Named := by
  simp only [RuneBridgeService.scanRuneTokenDeposits, bind_eq_ok] at hscan
  obtain ⟨currentBlock, -, hscan⟩ := hscan
  split at hscan
  · obtain ⟨-, rfl⟩ := Prod.mk.inj (pure_eq_ok.1 hscan)
    exact h
  · simp only [bind_eq_ok, pure_eq_ok] at hscan
    obtain ⟨events, -, db₁, hindex, heq⟩ := hscan
    obtain ⟨-, rfl⟩ := Prod.mk.inj heq
    have hdb₁ := h.indexEvents hindex
    exact ⟨hdb₁.runes, hdb₁.tokens⟩

/-- Every transaction keeps the names. -/
theorem run (h : db.Named) {t : NodeTransaction Hash} (ht : t.run service views db = .ok db') :
    db'.Named := by
  cases NodeTransaction.run_effect ht with
  | unchanged => exact h
  | addresses => exact ⟨h.runes, h.tokens⟩
  | deposits hscan => exact h.scanRuneDeposits hscan
  | tokenDeposits hscan => exact h.scanRuneTokenDeposits hscan
  | signatures => exact ⟨h.runes, h.tokens⟩
  | deposit => exact ⟨h.runes, h.tokens⟩
  | tokenDeposit hrow => exact h.changeRuneTokenDeposit hrow rfl

end Db.Named

/-! ## Fees -/

lemma compactSizeLength_mono {n m : ℕ} (h : n ≤ m) :
    compactSizeLength n ≤ compactSizeLength m := by
  unfold compactSizeLength
  split_ifs <;> omega

/-- A change output makes a transaction larger. -/
lemma estimatePsbtSizeVb_le (ms : OrdMultisig) (psbt : Psbt) :
    0 < ms.estimatePsbtSizeVb psbt ∧ ms.estimatePsbtSizeVb psbt ≤
      estimateP2wshMultisigTxVirtualSize psbt.unsignedTx ms.numRequiredSigners
        ms.multisigRedeemScript ms.changeScriptPubkey true := by
  have hlength := compactSizeLength_mono
    (show psbt.unsignedTx.vout.length ≤ psbt.unsignedTx.vout.length + 1 by omega)
  simp only [OrdMultisig.estimatePsbtSizeVb, estimateP2wshMultisigTxVirtualSize,
    calculateTransactionVirtualSize, List.map_append, List.sum_append, List.length_append,
    List.map_cons, List.map_nil, List.sum_cons, List.sum_nil, List.length_cons, List.length_nil,
    zero_add, add_zero, if_true, Bool.false_eq_true, if_false]
  split_ifs <;> omega

namespace RuneBridgeService

open Binary64

variable {Hash : Type} {service : RuneBridgeService Hash} {views : Views Hash}

lemma feeMargin_bounds : 10989 / 10000 ≤ feeMargin ∧ feeMargin ≤ 11011 / 10000 := by
  obtain ⟨hlow, hhigh⟩ := round_bounds (show (0 : ℚ) ≤ 11 / 10 by norm_num)
  constructor
  · exact le_trans (by norm_num) hlow
  · exact le_trans hhigh (by norm_num)

/-- Rounding does not use up the margin. -/
lemma lt_mul_feeMargin {n : ℤ} (hn : 0 < n) :
    (n : ℚ) < mul (ofInt n) feeMargin ∧ mul (ofInt n) feeMargin ≤ 2 * n := by
  have hpos : (0 : ℚ) < n := by exact_mod_cast hn
  obtain ⟨hlow, hhigh⟩ := round_bounds hpos.le
  obtain ⟨hmlow, hmhigh⟩ := feeMargin_bounds
  have hproduct : 0 ≤ Binary64.round n * feeMargin := mul_nonneg (by linarith) (by linarith)
  obtain ⟨hplow, hphigh⟩ := round_bounds hproduct
  have hlower : 999 / 1000 * (n : ℚ) * (10989 / 10000) ≤ Binary64.round n * feeMargin :=
    mul_le_mul hlow hmlow (by norm_num) (by linarith)
  have hupper : Binary64.round n * feeMargin ≤ 1001 / 1000 * (n : ℚ) * (11011 / 10000) :=
    mul_le_mul hhigh hmhigh (by linarith) (by linarith)
  constructor
  · show (n : ℚ) < Binary64.round (Binary64.round n * feeMargin)
    linarith
  · show Binary64.round (Binary64.round n * feeMargin) ≤ 2 * (n : ℚ)
    linarith

lemma div_feeMargin_le {n : ℤ} (hn : 0 < n) : div (ofInt n) feeMargin ≤ n := by
  have hpos : (0 : ℚ) < n := by exact_mod_cast hn
  obtain ⟨hlow, hhigh⟩ := round_bounds hpos.le
  obtain ⟨hmlow, -⟩ := feeMargin_bounds
  have hmargin : 0 < feeMargin := by linarith
  have hquotient : Binary64.round n / feeMargin ≤ 99 / 100 * n := by
    rw [div_le_iff₀ hmargin]
    nlinarith
  have hnonneg : 0 ≤ Binary64.round n / feeMargin := div_nonneg (by linarith) hmargin.le
  obtain ⟨-, hqhigh⟩ := round_bounds hnonneg
  show Binary64.round (Binary64.round n / feeMargin) ≤ (n : ℚ)
  linarith

/-- **The rate of a payout is in the range that is accepted**, whatever the estimate. -/
lemma payoutFeeRate_inRange {rate : ℤ} (h : service.payoutFeeRate views = .ok rate) :
    ∃ fee, views.feeSatsPerVb = .ok fee ∧ 0 < rate ∧
      max (fee / 3) service.getMinFeeRateSatPerVbyte ≤ rate ∧
      rate ≤ max fee service.getMinFeeRateSatPerVbyte * 3 := by
  simp only [payoutFeeRate, bind_eq_ok, exists_unit, require_eq_ok, pure_eq_ok] at h
  obtain ⟨fee, hfee, -, rfl⟩ := h
  have hmin : 1 ≤ service.getMinFeeRateSatPerVbyte := by
    unfold getMinFeeRateSatPerVbyte
    split_ifs <;> norm_num
  have hrate : fee / 3 ≤ max (Decimals.truncate (mul feeMargin (ofInt fee)))
        service.getMinFeeRateSatPerVbyte ∧
      Decimals.truncate (mul feeMargin (ofInt fee)) ≤
        max fee service.getMinFeeRateSatPerVbyte * 3 := by
    rcases lt_or_ge 0 fee with hpos | hneg
    · obtain ⟨hlow, hhigh⟩ := lt_mul_feeMargin hpos
      have hcomm : mul feeMargin (ofInt fee) = mul (ofInt fee) feeMargin :=
        congrArg Binary64.round (mul_comm _ _)
      have hcast : (0 : ℚ) < fee := by exact_mod_cast hpos
      rw [hcomm, Decimals.truncate, if_pos (by linarith)]
      have hfloor : fee ≤ ⌊mul (ofInt fee) feeMargin⌋ := Int.le_floor.2 hlow.le
      have hfloor' : ⌊mul (ofInt fee) feeMargin⌋ ≤ 2 * fee := by
        have hle := (Int.floor_le (mul (ofInt fee) feeMargin)).trans hhigh
        exact_mod_cast hle
      omega
    · have htruncate : Decimals.truncate (mul feeMargin (ofInt fee)) ≤ 0 := by
        have hcast : (fee : ℚ) ≤ 0 := by exact_mod_cast hneg
        have hproduct : mul feeMargin (ofInt fee) ≤ 0 := by
          refine round_nonpos (mul_nonpos_of_nonneg_of_nonpos ?_ (round_nonpos hcast))
          linarith [feeMargin_bounds.1]
        unfold Decimals.truncate
        split_ifs with hsign
        · rw [le_antisymm hproduct hsign, Int.floor_zero]
        · exact Int.ceil_le.2 (by simpa using hproduct)
      omega
  exact ⟨fee, hfee, by omega, by omega, by omega⟩

end RuneBridgeService

/-- The fee, which is estimated with a change output, stands the comparison with the estimate for
the outputs there are. -/
def OrdMultisig.FeeWithinMargin (ms : OrdMultisig) (psbt : Psbt) (feeRate : ℤ) : Prop :=
  psbt.unsignedTx.vout.length = 4 ∨ (ms.feeSat feeRate psbt : ℚ) <
    Binary64.mul (Binary64.ofInt (ms.estimatePsbtSizeVb psbt * feeRate))
      RuneBridgeService.feeMargin

/-! ## A request for a signature -/

section Request

variable {Hash : Type} (service service' : RuneBridgeService Hash) (views views' : Views Hash)
  (db db' : Db Hash) (key : RuneTokenDepositKey) (psbt : Psbt)
  (question : SignRuneTokenToBtcTransferQuestion)

/-- What the nodes of one federation have in common. -/
structure SameFederation : Prop where
  codec : service'.codec = service.codec
  psbtCodec : service'.psbtCodec = service.psbtCodec
  numRequiredSigners :
    service'.ordMultisig.numRequiredSigners = service.ordMultisig.numRequiredSigners
  multisigRedeemScript :
    service'.ordMultisig.multisigRedeemScript = service.ordMultisig.multisigRedeemScript
  changeScriptPubkey :
    service'.ordMultisig.changeScriptPubkey = service.ordMultisig.changeScriptPubkey
  btcNetwork : service'.config.btcNetwork = service.config.btcNetwork

/-- A leader built the payout of a deposit, and asks a node that has recorded the same event and
has it as accepted.  The node sees the leader's fee estimate, and the same rune in `ord`. -/
structure SigningRequest : Prop where
  federation : SameFederation service service'
  named : db.Named
  built : ∃ transfer, RuneBridgeService.getRuneTokenToBtcTransfer key db = .ok transfer ∧
    service.createPayout views transfer = .ok (psbt, question)
  deposit : ∃ deposit deposit', db.runeTokenDeposits.get? key = some deposit ∧
    db'.runeTokenDeposits.get? key = some deposit' ∧ deposit'.status = .accepted ∧
    RuneTokenDeposit.recorded (key, deposit') = RuneTokenDeposit.recorded (key, deposit)
  rune : views'.ordClient.getRune question.transfer.runeName =
    views.ordClient.getRune question.transfer.runeName
  fee : views'.feeSatsPerVb = views.feeSatsPerVb

end Request

/-- The nodes of one federation estimate the same sizes. -/
lemma SameFederation.estimatePsbtSizeVb {Hash : Type} {service service' : RuneBridgeService Hash}
    (h : SameFederation service service') (psbt : Psbt) :
    service'.ordMultisig.estimatePsbtSizeVb psbt = service.ordMultisig.estimatePsbtSizeVb psbt := by
  simp only [OrdMultisig.estimatePsbtSizeVb, h.numRequiredSigners, h.multisigRedeemScript,
    h.changeScriptPubkey]

namespace RuneBridgeService

open Binary64

variable {Hash : Type} {service service' : RuneBridgeService Hash} {views views' : Views Hash}
  {db db' : Db Hash} {key : RuneTokenDepositKey} {psbt : Psbt}
  {question : SignRuneTokenToBtcTransferQuestion}

/-- The parts of a payout that was built. -/
lemma createPayout_ok {transfer : RuneTokenToBtcTransfer}
    (h : service.createPayout views transfer = .ok (psbt, question)) :
    ∃ rune response feeRate, rune.n = transfer.runeNumber ∧
      views.ordClient.getRune rune.name = .ok (some response) ∧
      service.payoutFeeRate views = .ok feeRate ∧
      service.ordMultisig.BuiltSingle service.codec response.id
        ⟨rune, transfer.receiverAddress, transfer.netRuneAmount, TARGET_POSTAGE_SAT⟩ feeRate psbt ∧
      question.transfer = transfer ∧ question.transfers = none ∧
      question.unsignedPsbtSerialized = service.psbtCodec.toBase64 psbt ∧
      question.feeRateSatsPerVb = .int feeRate := by
  simp only [createPayout, bind_eq_ok, pure_eq_ok] at h
  obtain ⟨feeRate, hrate, rune, hrune, psbt', hbuilt, heq⟩ := h
  obtain ⟨rfl, rfl⟩ := Prod.mk.inj heq
  obtain ⟨response, hresponse, hsingle⟩ := OrdMultisig.createRunePsbt_single hbuilt
  exact ⟨rune, response, feeRate, Rune.n_ofNumber hrune, hresponse, hrate, hsingle, rfl, rfl, rfl,
    rfl⟩

/-- The node's own row passes its check. -/
lemma validateTransfer_of_recorded (hdb : db.Named) {deposit deposit' : RuneTokenDeposit}
    {transfer : RuneTokenToBtcTransfer} (hrow : db.runeTokenDeposits.get? key = some deposit)
    (htransfer : getRuneTokenToBtcTransfer key db = .ok transfer)
    (hrow' : db'.runeTokenDeposits.get? key = some deposit') (haccepted : deposit'.status = .accepted)
    (hsame : RuneTokenDeposit.recorded (key, deposit') = RuneTokenDeposit.recorded (key, deposit)) :
    validateTransfer db' transfer = .ok () ∧
      ∃ rune : Rune, transfer.runeName = rune.name ∧ transfer.runeNumber = rune.n := by
  simp only [getRuneTokenToBtcTransfer, bind_eq_ok, runeTokenDeposit_eq_ok, exists_unit,
    require_eq_ok, pure_eq_ok] at htransfer
  obtain ⟨deposit₁, hget, -, -, rfl⟩ := htransfer
  obtain rfl : deposit = deposit₁ := Option.some.inj (hrow.symm.trans hget)
  obtain ⟨rune, hn, hname⟩ := hdb.tokens key deposit hrow
  have hreceiver := congrArg RecordedEvent.receiverBtcAddress hsame
  have hamount := congrArg RecordedEvent.netRuneAmountRaw hsame
  have hnumber := congrArg RecordedEvent.runeNumber hsame
  have hparsed : runeFromStr deposit.rune.name = .ok rune := by
    rw [hname]
    exact runeFromStr_name rune
  refine ⟨?_, rune, hname, hn⟩
  simp only [validateTransfer, bind_eq_ok, exists_unit, orError_eq_ok, require_eq_ok]
  exact ⟨deposit', hrow', haccepted, hreceiver, hamount, rune, hparsed,
    (show deposit'.rune.n = deposit.rune.n from hnumber).trans hn, hn.symm, hamount⟩

/-- The outputs and the runestone that were built for one transfer pass the checks of a node of the
same federation. -/
lemma checks_of_builtSingle (hfederation : SameFederation service service')
    (hc : service.codec.Lawful) {response : RuneResponse} {rune : Rune}
    {transfer : RuneTokenToBtcTransfer} {feeRate : ℤ}
    (hsingle : service.ordMultisig.BuiltSingle service.codec response.id
      ⟨rune, transfer.receiverAddress, transfer.netRuneAmount, TARGET_POSTAGE_SAT⟩ feeRate psbt)
    (hid : 0 < response.id.block)
    (hrune : views'.ordClient.getRune transfer.runeName = .ok (some response)) :
    service'.codec.decipher (psbt.unsignedTx.vout.map TxOut.scriptPubKey) =
        some (.runestone ⟨[⟨response.id, transfer.netRuneAmount.toNat, 2⟩], none, none, some 1⟩) ∧
      service'.validateOutputs psbt.unsignedTx
        ⟨[⟨response.id, transfer.netRuneAmount.toNat, 2⟩], none, none, some 1⟩ 1 = .ok () ∧
      service'.validateEdicts views' psbt.unsignedTx
        ⟨[⟨response.id, transfer.netRuneAmount.toNat, 2⟩], none, none, some 1⟩ 2 [transfer] =
          .ok () := by
  obtain ⟨script, receiver, change, hscript, hreceiver, hvout, hchange⟩ := hsingle.outputs
  -- the runestone is read back as it was written
  have hscripts : psbt.unsignedTx.vout.map TxOut.scriptPubKey = script ::
      (service.ordMultisig.changeScriptPubkey :: receiver :: change.map TxOut.scriptPubKey) := by
    rw [hvout]
    rfl
  have hencodable : Runes.Runestone.Encodable
      ⟨[⟨response.id, transfer.netRuneAmount.toNat, 2⟩], none, none, some 1⟩
      ((service.ordMultisig.changeScriptPubkey :: receiver ::
        change.map TxOut.scriptPubKey).length + 1) := by
    have hpos : 0 < transfer.netRuneAmount := hsingle.amount_pos
    have hlt : transfer.netRuneAmount < 2 ^ 128 := hsingle.amount_lt
    refine ⟨fun e he => ?_, fun e he => ?_, fun e he => ?_, fun p hp => ?_⟩
    · rw [List.mem_singleton.1 he]
      exact .inl hid
    · rw [List.mem_singleton.1 he]
      show transfer.netRuneAmount.toNat < 2 ^ 128
      omega
    · rw [List.mem_singleton.1 he]
      simp
    · obtain rfl := Option.some.inj hp
      simp
  obtain ⟨r, hdecipher, hedicts, hpointer, hmint, hetching⟩ :=
    hc.decipher_encipher _ script _ hscript rfl rfl hencodable
  obtain rfl : r = ⟨[⟨response.id, transfer.netRuneAmount.toNat, 2⟩], none, none, some 1⟩ := by
    obtain ⟨edicts, etching, mint, pointer⟩ := r
    obtain rfl : edicts = _ := List.perm_singleton.1 hedicts
    obtain rfl : etching = none := hetching
    obtain rfl : mint = none := hmint
    obtain rfl : pointer = some 1 := hpointer
    rfl
  have hlength : change.length = 0 ∨ (∃ value, change =
      [⟨value, service.ordMultisig.changeScriptPubkey⟩]) := by
    rcases hchange with ⟨rfl, -⟩ | ⟨value, rfl, -⟩
    · exact .inl rfl
    · exact .inr ⟨value, rfl⟩
  refine ⟨?_, ?_, ?_⟩
  · rw [hscripts, hfederation.codec, hdecipher]
  · simp only [validateOutputs, validateChangeOutput, bind_eq_ok, exists_unit, require_eq_ok,
      orError_eq_ok, hvout, hfederation.codec, hfederation.changeScriptPubkey]
    refine ⟨?_, _, rfl, _, rfl, rfl, script, hscript, rfl, rfl, rfl, ?_, rfl⟩
    · rcases hlength with hlen | ⟨value, rfl⟩
      · exact .inl (by simp [hlen])
      · exact .inr rfl
    · rcases hlength with hlen | ⟨value, rfl⟩
      · rw [if_neg (by simp [hlen])]
        rfl
      · simp
  · have hamount : ((transfer.netRuneAmount.toNat : ℕ) : ℤ) = transfer.netRuneAmount :=
      Int.toNat_of_nonneg hsingle.amount_pos.le
    simp only [validateEdicts, validateEdict, bind_eq_ok, exists_unit, require_eq_ok, orError_eq_ok,
      pure_eq_ok, hrune, hvout, hfederation.codec]
    exact ⟨⟨_, rfl, response, rfl, _, rfl, hamount, rfl, rfl, _, rfl, rfl, receiver, hreceiver,
      rfl⟩, trivial⟩

/-- The outputs and the runestone that were built pass the check, which goes on to the fee. -/
lemma validateSign_eq (hreq : SigningRequest service service' views views' db db' key psbt question)
    (hc : service.codec.Lawful)
    (hid : ∀ name response, views.ordClient.getRune name = .ok (some response) →
      0 < response.id.block)
    (hround : service.psbtCodec.fromBase64 (service.psbtCodec.toBase64 psbt) = .ok psbt) :
    service'.validateSignRuneTokenToBtcTransferQuestion views' db' question = (do
      service'.validateFee views' psbt question.feeRateSatsPerVb
      pure psbt) := by
  obtain ⟨transfer, htransfer, hbuilt⟩ := hreq.built
  obtain ⟨deposit, deposit', hrow, hrow', haccepted, hsame⟩ := hreq.deposit
  obtain ⟨rune, response, feeRate, hn, hresponse, -, hsingle, rfl, hnone, hserialized, -⟩ :=
    createPayout_ok hbuilt
  obtain ⟨hvalid, rune', hname', hn'⟩ :=
    validateTransfer_of_recorded hreq.named hrow htransfer hrow' haccepted hsame
  obtain rfl : rune = rune' := Rune.eq_of_n (hn.trans hn')
  have hrune : views'.ordClient.getRune question.transfer.runeName = .ok (some response) := by
    rw [hreq.rune, hname', hresponse]
  obtain ⟨hdecipher, houtputs, hedict⟩ :=
    checks_of_builtSingle hreq.federation hc hsingle (hid _ _ hresponse) hrune
  have htransfers : questionTransfers question = [question.transfer] := by
    rw [questionTransfers, hnone]
    rfl
  have hnodup : (require (([question.transfer].map RuneTokenToBtcTransfer.key).Nodup)
      (.validationError "Duplicate transfers") : PyResult Unit) = .ok () :=
    require_of (List.nodup_singleton _)
  have hrows : validateTransfers db' [question.transfer] = .ok () := by
    rw [validateTransfers, hvalid]
    rfl
  rw [validateSignRuneTokenToBtcTransferQuestion, htransfers]
  simp only [hnodup, hrows, ok_bind, hserialized, hreq.federation.psbtCodec, hround, hdecipher,
    houtputs, hedict, List.length_singleton]

/-- A fee that is exactly the fee rate times the size passes, if the rate is in the range. -/
lemma validateFee_of_exact {feeRate fee : ℤ} (hfee : views'.feeSatsPerVb = .ok fee)
    (hpos : 0 < feeRate)
    (hrange : max (fee / 3) service'.getMinFeeRateSatPerVbyte ≤ feeRate ∧
      feeRate ≤ max fee service'.getMinFeeRateSatPerVbyte * 3)
    (hgetFee : psbt.getFee = .ok (service'.ordMultisig.estimatePsbtSizeVb psbt * feeRate)) :
    service'.validateFee views' psbt (.int feeRate) = .ok () := by
  have hcalculated : 0 < (service'.ordMultisig.estimatePsbtSizeVb psbt : ℤ) * feeRate :=
    Int.mul_pos (by exact_mod_cast (estimatePsbtSizeVb_le service'.ordMultisig psbt).1) hpos
  obtain ⟨hlow, -⟩ := lt_mul_feeMargin hcalculated
  simp only [validateFee_int, hfee, hgetFee, ok_bind, bind_eq_ok, exists_unit, require_eq_ok]
  exact ⟨hrange, hlow, div_feeMargin_le hcalculated⟩

/-- The fee check passes a payout exactly when the fee is within the margin, and finds it too high
otherwise. -/
lemma validateFee_eq (hreq : SigningRequest service service' views views' db db' key psbt question) :
    ∃ feeRate, question.feeRateSatsPerVb = .int feeRate ∧
      (service.ordMultisig.FeeWithinMargin psbt feeRate →
        service'.validateFee views' psbt (.int feeRate) = .ok ()) ∧
      (¬ service.ordMultisig.FeeWithinMargin psbt feeRate →
        service'.validateFee views' psbt (.int feeRate) =
          .error (.validationError "Fee too high")) := by
  obtain ⟨transfer, -, hbuilt⟩ := hreq.built
  obtain ⟨rune, response, feeRate, -, -, hrate, hsingle, -, -, -, heq⟩ := createPayout_ok hbuilt
  refine ⟨feeRate, heq, ?_⟩
  obtain ⟨fee, hfee, hpos, hmin, hmax⟩ := payoutFeeRate_inRange hrate
  obtain ⟨script, receiver, change, -, -, hvout, hchange⟩ := hsingle.outputs
  obtain ⟨hsizepos, hsizele⟩ := estimatePsbtSizeVb_le service.ordMultisig psbt
  have hminRate : service'.getMinFeeRateSatPerVbyte = service.getMinFeeRateSatPerVbyte := by
    rw [getMinFeeRateSatPerVbyte, hreq.federation.btcNetwork, getMinFeeRateSatPerVbyte]
  have hsize := hreq.federation.estimatePsbtSizeVb psbt
  have hcalculated : 0 < (service.ordMultisig.estimatePsbtSizeVb psbt : ℤ) * feeRate :=
    Int.mul_pos (by exact_mod_cast hsizepos) hpos
  have hrange : (require (max (fee / 3) service.getMinFeeRateSatPerVbyte ≤ feeRate ∧
      feeRate ≤ max fee service.getMinFeeRateSatPerVbyte * 3)
      (.validationError "Fee rate not within range") : PyResult Unit) = .ok () :=
    require_of ⟨hmin, hmax⟩
  have hdiv := div_feeMargin_le hcalculated
  rcases hchange with ⟨rfl, hgetFee⟩ | ⟨value, rfl, hgetFee⟩
  · -- the fee is that of the larger transaction
    rw [validateFee_int]
    simp only [hreq.fee, hfee, hminRate, hrange, hsize, ok_bind]
    have hle : (service.ordMultisig.estimatePsbtSizeVb psbt : ℤ) * feeRate ≤
        service.ordMultisig.feeSat feeRate psbt :=
      mul_le_mul_of_nonneg_right (by exact_mod_cast hsizele) hpos.le
    have hnotlow : div (ofInt ((service.ordMultisig.estimatePsbtSizeVb psbt : ℤ) * feeRate))
        feeMargin ≤
          service.ordMultisig.feeSat feeRate psbt :=
      hdiv.trans (by exact_mod_cast hle)
    have hiff : service.ordMultisig.FeeWithinMargin psbt feeRate ↔
        (service.ordMultisig.feeSat feeRate psbt : ℚ) <
          mul (ofInt (service.ordMultisig.estimatePsbtSizeVb psbt * feeRate))
            feeMargin := by
      rw [OrdMultisig.FeeWithinMargin, hvout]
      simp
    rw [hiff, hgetFee]
    refine ⟨fun hlt => ?_, fun hge => ?_⟩
    · simp only [ok_bind, bind_eq_ok, exists_unit, require_eq_ok]
      exact ⟨hlt, hnotlow⟩
    · rw [ok_bind, bind_eq_error]
      exact .inl (require_eq_error.2 ⟨hge, rfl⟩)
  · have hwithin : service.ordMultisig.FeeWithinMargin psbt feeRate :=
      .inl (by rw [hvout]; rfl)
    refine ⟨fun _ => ?_, fun h => absurd hwithin h⟩
    have hfee' : views'.feeSatsPerVb = .ok fee := hreq.fee.trans hfee
    refine validateFee_of_exact hfee' hpos ?_ ?_
    · rw [hminRate]
      exact ⟨hmin, hmax⟩
    · rw [hsize, hgetFee]

end RuneBridgeService

/-- **Builder and checker agree up to the fee of a change output.**  A node asked to sign a payout
that was built for the deposit signs it exactly when the fee is within the margin, and otherwise
refuses it for its fee. -/
theorem payout_signed_iff_fee_within_margin {Hash : Type} {service service' : RuneBridgeService Hash}
    {views views' : Views Hash} {db db' : Db Hash} {key : RuneTokenDepositKey} {psbt : Psbt}
    {question : SignRuneTokenToBtcTransferQuestion}
    (hreq : SigningRequest service service' views views' db db' key psbt question)
    (hc : service.codec.Lawful)
    (hid : ∀ name response, views.ordClient.getRune name = .ok (some response) →
      0 < response.id.block)
    (hround : service.psbtCodec.fromBase64 (service.psbtCodec.toBase64 psbt) = .ok psbt)
    (hsign : ∃ signed, service'.ordMultisig.keyStoreSign psbt = .ok (psbt.inputs.length, signed)) :
    ∃ feeRate, question.feeRateSatsPerVb = .int feeRate ∧
      ((∃ answer, service'.answerSignRuneTokenToBtcTransferQuestion views' db' question =
        .ok answer) ↔ service.ordMultisig.FeeWithinMargin psbt feeRate) ∧
      (¬ service.ordMultisig.FeeWithinMargin psbt feeRate →
        service'.answerSignRuneTokenToBtcTransferQuestion views' db' question =
          .error (.validationError "Fee too high")) := by
  obtain ⟨feeRate, hrate, hpass, hfail⟩ := RuneBridgeService.validateFee_eq hreq
  have hvalidate := RuneBridgeService.validateSign_eq hreq hc hid hround
  rw [hrate] at hvalidate
  have hrefused (hout : ¬ service.ordMultisig.FeeWithinMargin psbt feeRate) :
      service'.answerSignRuneTokenToBtcTransferQuestion views' db' question =
        .error (.validationError "Fee too high") := by
    rw [RuneBridgeService.answerSignRuneTokenToBtcTransferQuestion, hvalidate, hfail hout]
    rfl
  refine ⟨feeRate, hrate, ⟨?_, fun hwithin => ?_⟩, hrefused⟩
  · rintro ⟨answer, hanswer⟩
    by_contra hout
    rw [hrefused hout] at hanswer
    exact absurd hanswer (by simp)
  · obtain ⟨signed, hsigned⟩ := hsign
    rw [RuneBridgeService.answerSignRuneTokenToBtcTransferQuestion, hvalidate, hpass hwithin]
    simp only [ok_bind, OrdMultisig.signPsbt, bind_eq_ok, exists_unit, require_eq_ok, pure_eq_ok]
    exact ⟨_, _, rfl, _, ⟨_, hsigned, rfl, rfl⟩, rfl⟩

/-! ## Examples -/

namespace ExampleNode

/-- A wallet whose one output pays for the transaction and leaves no change. -/
def exactViews : Views Bytes :=
  { views ['4'] with
    bitcoinRpc :=
      { listunspent := .ok [{ ExampleWallet.runeUtxo with amountSatoshi := 20143 }]
        gettransaction := fun _ => .ok ⟨[], [⟨20143, [0]⟩], [], 0⟩
        listsinceblock := fun _ _ => .ok ⟨"genesis", []⟩ } }

/-- The payout of `transfer` from that output. -/
def exactPayout : Psbt where
  unsignedTx :=
    { vin := [ExampleWallet.runeUtxo.outpoint]
      vout := (payout 1).unsignedTx.vout.take 3
      nSequence := [0xffffffff]
      nLockTime := 0 }
  inputs := [⟨some [81], some ⟨20143, [0]⟩, none, []⟩]

/-- The payout of `transfer` from both outputs of the wallet, with the change that is left. -/
def builtPayout : Psbt :=
  { payout 1 with
    unsignedTx :=
      { (payout 1).unsignedTx with
        vout := (payout 1).unsignedTx.vout.take 3 ++
          [⟨89797, ExampleWallet.ms.changeScriptPubkey⟩] } }

lemma getRuneTokenToBtcTransfer_db :
    RuneBridgeService.getRuneTokenToBtcTransfer tokenDepositKey db = .ok transfer := by
  decide +kernel

lemma sameFederation (service : RuneBridgeService Bytes) : SameFederation service service :=
  ⟨rfl, rfl, rfl, rfl, rfl, rfl⟩

lemma db_named : db.Named where
  runes n row h := absurd h (by simp [db, Db.empty])
  tokens k row h := by
    have hrow : (if k = tokenDepositKey then some tokenDeposit else none) = some row := by
      rw [← h, db, Table.get?_set, Table.get?_empty]
    by_cases hk : k = tokenDepositKey
    · rw [if_pos hk] at hrow
      rw [← Option.some.inj hrow]
      exact ⟨ExampleWallet.rune, rfl, rfl⟩
    · rw [if_neg hk] at hrow
      exact absurd hrow (by simp)

/-- The leader asks itself first. -/
lemma signingRequest {views : Views Bytes} {psbt : Psbt}
    (h : (service '4' [psbt]).createPayout views transfer = .ok (psbt, payoutQuestion "")) :
    SigningRequest (service '4' [psbt]) (service '4' [psbt]) views views db db tokenDepositKey psbt
      (payoutQuestion "") where
  federation := sameFederation _
  named := db_named
  built := ⟨transfer, getRuneTokenToBtcTransfer_db, h⟩
  deposit := ⟨tokenDeposit, tokenDeposit, rfl, rfl, rfl, rfl⟩
  rune := rfl
  fee := rfl

lemma createPayout_views : (service '4' [builtPayout]).createPayout (views ['4']) transfer =
    .ok (builtPayout, payoutQuestion "") := by
  decide +kernel

lemma createPayout_exactViews : (service '4' [exactPayout]).createPayout exactViews transfer =
    .ok (exactPayout, payoutQuestion "") := by
  decide +kernel

end ExampleNode

theorem payout_signed_iff_fee_within_margin_example :
    (∃ answer, (ExampleNode.service '4' [ExampleNode.builtPayout]
      ).answerSignRuneTokenToBtcTransferQuestion (ExampleNode.views ['4']) ExampleNode.db
        (ExampleNode.payoutQuestion "") = .ok answer) ↔
      ExampleWallet.ms.FeeWithinMargin ExampleNode.builtPayout 1 := by
  obtain ⟨feeRate, hrate, hiff, -⟩ := payout_signed_iff_fee_within_margin
    (ExampleNode.signingRequest ExampleNode.createPayout_views) UnaryCodec.codec_lawful
    (fun name response h => by
      have hsome : (if name = "A" then some ExampleWallet.runeResponse else none) =
          some response := Except.ok.inj h
      split at hsome
      · rw [← Option.some.inj hsome]
        decide
      · exact absurd hsome (by simp)) rfl ⟨_, rfl⟩
  obtain rfl : 1 = feeRate := PyNumber.int.inj hrate
  exact hiff

/-- **A payout nobody signs.**  Built from an output that leaves no change, it is refused for its
fee by the node that built it, which has the deposit as accepted. -/
theorem exact_payout_refused :
    let service := ExampleNode.service '4' [ExampleNode.exactPayout]
    SigningRequest service service ExampleNode.exactViews ExampleNode.exactViews ExampleNode.db
        ExampleNode.db ExampleNode.tokenDepositKey ExampleNode.exactPayout
        (ExampleNode.payoutQuestion "") ∧
      service.answerSignRuneTokenToBtcTransferQuestion ExampleNode.exactViews ExampleNode.db
        (ExampleNode.payoutQuestion "") = .error (.validationError "Fee too high") :=
  ⟨ExampleNode.signingRequest ExampleNode.createPayout_exactViews, by decide +kernel⟩

end NbteBridge
