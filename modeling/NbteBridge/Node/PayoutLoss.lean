import NbteBridge.Node.Answers
import NbteBridge.Node.Reference

/-!
# What a signed payout costs the multisig

A leader picks the inputs, the outputs and the fee rate of a payout.  The checks leave it one
output for each transfer, worth the postage, and a fee within a margin of the fee rate; whatever
else the inputs declare goes back to the change script.  The fee rate is what the wire delivers.
When that is NaN no comparison holds, so no check raises, and any fee is signed; with every other
rate the loss is bounded.

The source computes its margin of 1.1 in floating point.  The arithmetic is a parameter here
(`MarginArithmetic`), with the source's as one instance and the exact one as another.
-/

namespace NbteBridge

open Checked

/-! ## The margin -/

namespace MarginArithmetic

/-- In this arithmetic the limit of a fee is at most `margin` times the rate times the size. -/
structure Within (arithmetic : MarginArithmetic) (margin : ℚ) : Prop where
  limit : ∀ (psbtSize : ℕ) {rate : PyNumber} {r : ℚ}, rate.value = .ok (.finite r) → 0 ≤ r →
    ∃ fee, arithmetic.calculatedFee psbtSize rate = .finite fee ∧
      arithmetic.times fee ≤ margin * r * psbtSize

/-- A finite value is an integer's or a double's. -/
lemma calculatedFee_of_value (arithmetic : MarginArithmetic) (psbtSize : ℤ) {rate : PyNumber}
    {r : ℚ} (h : rate.value = .ok (.finite r)) :
    (∃ n : ℤ, r = n ∧ arithmetic.calculatedFee psbtSize rate =
        .finite (arithmetic.operand (psbtSize * n))) ∨
      arithmetic.calculatedFee psbtSize rate = .finite (arithmetic.product psbtSize r) := by
  cases rate with
  | int n =>
      obtain rfl : (n : ℚ) = r := Binary64.Double.finite.inj (Except.ok.inj h)
      exact .inl ⟨n, rfl, rfl⟩
  | float x =>
      obtain rfl : x = .finite r := Except.ok.inj h
      exact .inr rfl
  | other raised => cases h

lemma within_exact : exact.Within (11 / 10) where
  limit psbtSize rate r h hr := by
    rcases exact.calculatedFee_of_value psbtSize h with ⟨n, rfl, hfee⟩ | hfee
    · refine ⟨_, hfee, le_of_eq ?_⟩
      simp only [exact]
      push_cast
      ring
    · refine ⟨_, hfee, le_of_eq ?_⟩
      simp only [exact]
      push_cast
      ring

/-- Three or four roundings are within four units in the last place. -/
lemma within_binary64 : binary64.Within (11 / 10 * (1 + 1 / 2 ^ 50)) where
  limit psbtSize rate r h hr := by
    have hsize : (0 : ℚ) ≤ psbtSize := Nat.cast_nonneg _
    obtain ⟨hmargin, hmargin'⟩ := Binary64.round_le (show (0 : ℚ) ≤ 11 / 10 by norm_num)
    -- whatever the fee is computed from, it is rounded twice at most
    suffices hcalculated : ∃ fee, binary64.calculatedFee psbtSize rate = .finite fee ∧ 0 ≤ fee ∧
        fee ≤ (1 + 1 / 2 ^ 53) * ((1 + 1 / 2 ^ 53) * (psbtSize * r)) by
      obtain ⟨fee, hfee, hnonneg, hle⟩ := hcalculated
      refine ⟨fee, hfee, ?_⟩
      have hproduct : fee * RuneBridgeService.feeMargin ≤
          (1 + 1 / 2 ^ 53) * ((1 + 1 / 2 ^ 53) * (psbtSize * r)) * ((1 + 1 / 2 ^ 53) * (11 / 10)) :=
        mul_le_mul hle hmargin' hmargin (by positivity)
      refine (Binary64.round_le (mul_nonneg hnonneg hmargin)).2.trans ?_
      have hfactor : (1 + 1 / 2 ^ 53 : ℚ) ^ 4 ≤ 1 + 1 / 2 ^ 50 := by norm_num
      calc (1 + 1 / 2 ^ 53) * (fee * RuneBridgeService.feeMargin)
          ≤ (1 + 1 / 2 ^ 53) * ((1 + 1 / 2 ^ 53) * ((1 + 1 / 2 ^ 53) * (psbtSize * r)) *
              ((1 + 1 / 2 ^ 53) * (11 / 10))) :=
            mul_le_mul_of_nonneg_left hproduct (by norm_num)
        _ = (1 + 1 / 2 ^ 53) ^ 4 * (11 / 10 * r * psbtSize) := by ring
        _ ≤ (1 + 1 / 2 ^ 50) * (11 / 10 * r * psbtSize) :=
            mul_le_mul_of_nonneg_right hfactor (by positivity)
        _ = 11 / 10 * (1 + 1 / 2 ^ 50) * r * psbtSize := by ring
    rcases binary64.calculatedFee_of_value psbtSize h with ⟨n, rfl, hfee⟩ | hfee
    · have hnonneg : (0 : ℚ) ≤ ((psbtSize * n : ℤ) : ℚ) := by
        push_cast
        exact mul_nonneg hsize hr
      obtain ⟨hlow, hhigh⟩ := Binary64.round_le hnonneg
      refine ⟨_, hfee, hlow, hhigh.trans ?_⟩
      push_cast
      have hgrow : (psbtSize : ℚ) * n ≤ (1 + 1 / 2 ^ 53) * (psbtSize * n) := by
        have hproduct : (0 : ℚ) ≤ psbtSize * n := mul_nonneg hsize hr
        linarith
      exact mul_le_mul_of_nonneg_left hgrow (by norm_num)
    · obtain ⟨hlow, hhigh⟩ := Binary64.round_le hsize
      obtain ⟨hplow, hphigh⟩ := Binary64.round_le (mul_nonneg hlow hr)
      refine ⟨_, hfee, hplow, hphigh.trans ?_⟩
      refine mul_le_mul_of_nonneg_left ?_ (by norm_num)
      rw [← mul_assoc]
      exact mul_le_mul_of_nonneg_right hhigh hr

end MarginArithmetic

namespace RuneBridgeService

variable {Hash : Type} (arithmetic : MarginArithmetic) (service : RuneBridgeService Hash)
  (views : Views Hash) (db : Db Hash)

/-- `answer_sign_rune_token_to_btc_transfer_question` with the margin computed in this
arithmetic. -/
def answerSignRuneTokenToBtcTransferQuestionIn (message : SignRuneTokenToBtcTransferQuestion) :
    PyResult SignRuneTokenToBtcTransferAnswer := do
  let transfers := questionTransfers message
  require ((transfers.map RuneTokenToBtcTransfer.key).Nodup)
    (.validationError "Duplicate transfers")
  validateTransfers db transfers
  let unsignedPsbt ← service.psbtCodec.fromBase64 message.unsignedPsbtSerialized
  let unsignedTx := unsignedPsbt.unsignedTx
  match service.codec.decipher (unsignedTx.vout.map TxOut.scriptPubKey) with
  | none => .error (.validationError "Could not decipher runestone from hex tx")
  | some (.cenotaph _) => .error (.validationError "Runestone is a cenotaph")
  | some (.runestone runestone) => do
      service.validateOutputs unsignedTx runestone transfers.length
      service.validateEdicts views unsignedTx runestone 2 transfers
      service.validateFeeIn views arithmetic unsignedPsbt message.feeRateSatsPerVb
      let signedPsbt ← service.ordMultisig.signPsbt unsignedPsbt
      pure ⟨service.psbtCodec.toBase64 signedPsbt, service.ordMultisig.signerXpub⟩

variable {service views db}

/-- In floating point it is the source's answer. -/
lemma answerIn_binary64 {message : SignRuneTokenToBtcTransferQuestion}
    {answer : SignRuneTokenToBtcTransferAnswer}
    (h : service.answerSignRuneTokenToBtcTransferQuestion views db message = .ok answer) :
    service.answerSignRuneTokenToBtcTransferQuestionIn .binary64 views db message = .ok answer := by
  obtain ⟨psbt, hvalid, signed, hsigned, rfl⟩ := answerSign_eq_ok.1 h
  obtain ⟨hnodup, htransfers, hpsbt, r, hdecipher, houtputs, hedicts, hfee⟩ :=
    validateSign_eq_ok.1 hvalid
  simp only [answerSignRuneTokenToBtcTransferQuestionIn, bind_eq_ok, exists_unit, require_eq_ok]
  refine ⟨hnodup, htransfers, psbt, hpsbt, ?_⟩
  simp only [hdecipher, bind_eq_ok, exists_unit, pure_eq_ok]
  exact ⟨houtputs, hedicts, hfee, signed, hsigned, rfl⟩

end RuneBridgeService

/-! ## The outputs -/

/-- What a transaction pays to a script. -/
def Transaction.paidTo (tx : Transaction) (script : Script) : ℤ :=
  Psbt.outputValue (tx.vout.filter fun out => out.scriptPubKey = script)

/-- The outputs of a payout to `n` receivers: besides the change script's and an empty one, there
is one for each receiver, worth the postage. -/
structure PayoutOutputs (changeScript : Script) (n : ℕ) (vout : List TxOut) : Prop where
  parts : ∃ out0 out1 receivers change, vout = out0 :: out1 :: (receivers ++ change) ∧
    out0.nValue = 0 ∧ out1.scriptPubKey = changeScript ∧ receivers.length = n ∧
    (∀ out ∈ receivers, out.nValue = TARGET_POSTAGE_SAT) ∧
    ∀ out ∈ change, out.scriptPubKey = changeScript

/-- The value of the outputs that do not pay the change script. -/
def unreturned (changeScript : Script) (vout : List TxOut) : ℤ :=
  Psbt.outputValue (vout.filter fun out => out.scriptPubKey ≠ changeScript)

lemma unreturned_cons (changeScript : Script) (out : TxOut) (vout : List TxOut) :
    unreturned changeScript (out :: vout) =
      (if out.scriptPubKey = changeScript then 0 else out.nValue) +
        unreturned changeScript vout := by
  by_cases h : out.scriptPubKey = changeScript
  · simp [unreturned, h]
  · simp [unreturned, h, Psbt.outputValue]

lemma unreturned_append (changeScript : Script) (vout vout' : List TxOut) :
    unreturned changeScript (vout ++ vout') =
      unreturned changeScript vout + unreturned changeScript vout' := by
  simp [unreturned, Psbt.outputValue]

lemma outputValue_eq_paidTo_add (tx : Transaction) (changeScript : Script) :
    Psbt.outputValue tx.vout = tx.paidTo changeScript + unreturned changeScript tx.vout := by
  unfold Transaction.paidTo
  induction tx.vout with
  | nil => rfl
  | cons out vout ih =>
      have hvalue : Psbt.outputValue (out :: vout) = out.nValue + Psbt.outputValue vout := by
        simp [Psbt.outputValue]
      rw [hvalue, ih, unreturned_cons]
      by_cases h : out.scriptPubKey = changeScript
      · simp [h, Psbt.outputValue, add_assoc]
      · simp [h, add_left_comm]

lemma unreturned_receivers (changeScript : Script) {receivers : List TxOut}
    (h : ∀ out ∈ receivers, out.nValue = TARGET_POSTAGE_SAT) :
    unreturned changeScript receivers ≤ receivers.length * TARGET_POSTAGE_SAT := by
  induction receivers with
  | nil => simp [unreturned, Psbt.outputValue]
  | cons out receivers ih =>
      have hrest := ih fun out' hout' => h out' (by simp [hout'])
      have hpostage : (0 : ℤ) ≤ TARGET_POSTAGE_SAT := by decide
      rw [unreturned_cons, List.length_cons, Nat.cast_succ, add_mul, one_mul,
        h out (by simp)]
      split <;> linarith

lemma unreturned_change {changeScript : Script} {change : List TxOut}
    (h : ∀ out ∈ change, out.scriptPubKey = changeScript) : unreturned changeScript change = 0 := by
  have hnone : change.filter (fun out => out.scriptPubKey ≠ changeScript) = [] :=
    List.filter_eq_nil_iff.2 fun out hout => by simpa using h out hout
  rw [unreturned, hnone]
  rfl

/-- No output but the receivers' leaves the multisig. -/
lemma PayoutOutputs.unreturned_le {changeScript : Script} {n : ℕ} {vout : List TxOut}
    (h : PayoutOutputs changeScript n vout) :
    unreturned changeScript vout ≤ n * TARGET_POSTAGE_SAT := by
  obtain ⟨out0, out1, receivers, change, rfl, hout0, hout1, rfl, hreceivers, hchange⟩ := h.parts
  have hempty : (if out0.scriptPubKey = changeScript then 0 else out0.nValue) = 0 := by
    rw [hout0, ite_self]
  rw [unreturned_cons, unreturned_cons, unreturned_append, unreturned_change hchange, hempty,
    if_pos hout1]
  have hle := unreturned_receivers changeScript hreceivers
  linarith

namespace RuneBridgeService

variable {Hash : Type} {arithmetic : MarginArithmetic} {service : RuneBridgeService Hash}
  {views : Views Hash} {db : Db Hash}

/-- Each transfer's output is worth the postage. -/
lemma postage_of_validateEdicts {tx : Transaction} {r : Runes.Runestone} {k : ℕ}
    {transfers : List RuneTokenToBtcTransfer}
    (h : service.validateEdicts views tx r k transfers = .ok ()) :
    ∀ i < transfers.length, ∃ out, tx.vout[k + i]? = some out ∧
      out.nValue = TARGET_POSTAGE_SAT := by
  induction transfers generalizing k with
  | nil => simp
  | cons t transfers ih =>
      simp only [validateEdicts, validateEdict, bind_eq_ok, exists_unit, require_eq_ok,
        orError_eq_ok] at h
      obtain ⟨⟨_, -, _, -, _, -, -, -, -, out, hout, hpostage, -⟩, hrest⟩ := h
      intro i hi
      cases i with
      | zero => exact ⟨out, hout, hpostage⟩
      | succ i =>
          have hindex : k + (i + 1) = k + 1 + i := by omega
          rw [hindex]
          exact ih hrest i (by simpa using hi)

lemma payoutOutputs_of_checks {tx : Transaction} {r : Runes.Runestone}
    {transfers : List RuneTokenToBtcTransfer}
    (houtputs : service.validateOutputs tx r transfers.length = .ok ())
    (hedicts : service.validateEdicts views tx r 2 transfers = .ok ()) :
    PayoutOutputs service.ordMultisig.changeScriptPubkey transfers.length tx.vout := by
  simp only [validateOutputs, bind_eq_ok, exists_unit, require_eq_ok, orError_eq_ok] at houtputs
  obtain ⟨hlength, out0, hout0, out1, hout1, hzero, script, -, -, -, hscript1, hlast, -⟩ := houtputs
  have hpostage := postage_of_validateEdicts hedicts
  obtain ⟨vin, vout⟩ := tx
  obtain ⟨a, b, rest, rfl⟩ : ∃ a b rest, vout = a :: b :: rest := by
    cases vout with
    | nil => exact absurd hout0 (by simp)
    | cons a vout =>
        cases vout with
        | nil => exact absurd hout1 (by simp)
        | cons b rest => exact ⟨a, b, rest, rfl⟩
  obtain rfl : a = out0 := by simpa using hout0
  obtain rfl : b = out1 := by simpa using hout1
  simp only [List.length_cons] at hlength
  refine ⟨a, b, rest.take transfers.length, rest.drop transfers.length, ?_, hzero, hscript1, ?_,
    fun out hout => ?_, fun out hout => ?_⟩
  · rw [List.take_append_drop]
  · rw [List.length_take]
    omega
  · obtain ⟨i, hi, rfl⟩ := List.mem_take_iff_getElem.1 hout
    obtain ⟨out, hout, hvalue⟩ := hpostage i (by omega)
    have hindex : (a :: b :: rest)[2 + i]? = rest[i]? := by
      rw [add_comm]
      rfl
    rw [hindex, List.getElem?_eq_getElem (by omega)] at hout
    rw [Option.some.inj hout, hvalue]
  · obtain ⟨i, hi, rfl⟩ := List.mem_drop_iff_getElem.1 hout
    -- only one output can come after the receivers'
    have hthree : (a :: b :: rest).length = transfers.length + 3 := by
      simp only [List.length_cons]
      omega
    rw [validateChangeOutput, if_pos hthree] at hlast
    simp only [bind_eq_ok, require_eq_ok, orError_eq_ok] at hlast
    obtain ⟨last, hlast, hscript⟩ := hlast
    obtain rfl : i = 0 := by
      simp only [List.length_cons] at hthree
      omega
    have hindex : (a :: b :: rest)[transfers.length + 2]? = rest[transfers.length]? := rfl
    rw [hindex, List.getElem?_eq_getElem (by omega)] at hlast
    have heq : rest[transfers.length + 0] = last := Option.some.inj hlast
    rw [heq, hscript]

/-! ## The loss -/

/-- The transaction of a question takes less from the multisig than the postage of its transfers
and `margin` times its fee rate times its size: what its inputs declare beyond its outputs to the
change script.  Its fee rate is at most three times the node's estimate, or the least rate. -/
structure BoundedLoss (service : RuneBridgeService Hash) (views : Views Hash)
    (message : SignRuneTokenToBtcTransferQuestion) (margin : ℚ) (psbt : Psbt) : Prop where
  serialized : service.psbtCodec.fromBase64 message.unsignedPsbtSerialized = .ok psbt
  bounded : ∃ (r : ℚ) (estimate value : ℤ),
    message.feeRateSatsPerVb.value = .ok (.finite r) ∧ views.feeSatsPerVb = .ok estimate ∧
    r ≤ 3 * max estimate service.getMinFeeRateSatPerVbyte ∧
    Psbt.inputValue psbt.inputs = .ok value ∧
    ((value - psbt.unsignedTx.paidTo service.ordMultisig.changeScriptPubkey : ℤ) : ℚ) <
      (questionTransfers message).length * 10000 +
        margin * r * service.ordMultisig.estimatePsbtSizeVb psbt

lemma getFee_ok {psbt : Psbt} {fee : ℤ} (h : psbt.getFee = .ok fee) :
    Psbt.inputValue psbt.inputs = .ok (Psbt.outputValue psbt.unsignedTx.vout + fee) := by
  simp only [Psbt.getFee, bind_eq_ok, exists_unit, pure_eq_ok] at h
  obtain ⟨value, hvalue, -, rfl⟩ := h
  rw [hvalue]
  congr 1
  omega

lemma one_le_getMinFeeRate (service : RuneBridgeService Hash) :
    1 ≤ service.getMinFeeRateSatPerVbyte := by
  unfold getMinFeeRateSatPerVbyte
  split_ifs <;> norm_num

/-- A number that passes the fee check is a rate in the range, and limits the fee. -/
lemma validateFeeIn_ok {psbt : Psbt} {rate : PyNumber}
    (h : service.validateFeeIn views arithmetic psbt rate = .ok ()) (hnan : rate ≠ .float .nan) :
    ∃ (r : ℚ) (estimate fee : ℤ), rate.value = .ok (.finite r) ∧
      views.feeSatsPerVb = .ok estimate ∧ 0 ≤ r ∧
      r ≤ 3 * max estimate service.getMinFeeRateSatPerVbyte ∧ psbt.getFee = .ok fee ∧
      ((arithmetic.calculatedFee (service.ordMultisig.estimatePsbtSizeVb psbt) rate).map
        arithmetic.times).le fee = false := by
  simp only [validateFeeIn, bind_eq_ok, exists_unit, require_eq_ok] at h
  obtain ⟨estimate, hestimate, x, hvalue, ⟨hlow, hhigh⟩, fee, hfee, hlimit, -⟩ := h
  rcases Binary64.Double.finite_or_nan hlow hhigh with ⟨r, rfl, hmin, hmax⟩ | rfl
  · refine ⟨r, estimate, fee, hvalue, hestimate, ?_, ?_, hfee, hlimit⟩
    · have hone : (1 : ℤ) ≤ max (estimate / 3) service.getMinFeeRateSatPerVbyte :=
        le_max_of_le_right service.one_le_getMinFeeRate
      have hone' : (1 : ℚ) ≤ (max (estimate / 3) service.getMinFeeRateSatPerVbyte : ℤ) := by
        exact_mod_cast hone
      linarith
    · rw [mul_comm]
      exact_mod_cast hmax
  · cases rate with
    | int n => cases hvalue
    | float x =>
        obtain rfl : x = .nan := Except.ok.inj hvalue
        exact absurd rfl hnan
    | other raised => cases hvalue

/-- NaN passes the fee check whatever the fee is. -/
lemma validateFee_nan {psbt : Psbt} {estimate fee : ℤ}
    (hestimate : views.feeSatsPerVb = .ok estimate) (hfee : psbt.getFee = .ok fee) :
    service.validateFee views psbt (.float .nan) = .ok () := by
  simp only [validateFee, validateFeeIn, bind_eq_ok, exists_unit, require_eq_ok]
  exact ⟨estimate, hestimate, .nan, rfl, ⟨rfl, rfl⟩, fee, hfee, rfl, rfl⟩

/-- A node signs only a transaction with a bounded loss, unless the fee rate is NaN. -/
theorem boundedLoss_of_answerIn {margin : ℚ} (hwithin : arithmetic.Within margin)
    {message : SignRuneTokenToBtcTransferQuestion} {answer : SignRuneTokenToBtcTransferAnswer}
    (h : service.answerSignRuneTokenToBtcTransferQuestionIn arithmetic views db message =
      .ok answer) (hnan : message.feeRateSatsPerVb ≠ .float .nan) :
    ∃ psbt, service.BoundedLoss views message margin psbt := by
  simp only [answerSignRuneTokenToBtcTransferQuestionIn, bind_eq_ok, exists_unit] at h
  obtain ⟨-, -, psbt, hpsbt, h⟩ := h
  split at h
  · exact absurd h (by simp)
  · exact absurd h (by simp)
  simp only [bind_eq_ok, exists_unit] at h
  obtain ⟨houtputs, hedicts, hchecked, -⟩ := h
  obtain ⟨r, estimate, fee, hr, hestimate, hnonneg, hmax, hfee, hlimit⟩ :=
    validateFeeIn_ok hchecked hnan
  have hvalue := getFee_ok hfee
  have hleft := (payoutOutputs_of_checks houtputs hedicts).unreturned_le
  have hsplit := outputValue_eq_paidTo_add psbt.unsignedTx service.ordMultisig.changeScriptPubkey
  refine ⟨psbt, hpsbt, r, estimate, _, hr, hestimate, hmax, hvalue, ?_⟩
  have hloss : Psbt.outputValue psbt.unsignedTx.vout + fee -
      psbt.unsignedTx.paidTo service.ordMultisig.changeScriptPubkey ≤
        (questionTransfers message).length * 10000 + fee := by
    have hpostage : TARGET_POSTAGE_SAT = 10000 := rfl
    rw [hpostage] at hleft
    omega
  have hloss' : ((Psbt.outputValue psbt.unsignedTx.vout + fee -
      psbt.unsignedTx.paidTo service.ordMultisig.changeScriptPubkey : ℤ) : ℚ) ≤
        (questionTransfers message).length * 10000 + fee := by
    exact_mod_cast hloss
  have hfeeLt : (fee : ℚ) < margin * r * service.ordMultisig.estimatePsbtSizeVb psbt := by
    obtain ⟨calculated, hcalculated, hle⟩ :=
      hwithin.limit (service.ordMultisig.estimatePsbtSizeVb psbt) hr hnonneg
    rw [hcalculated, Binary64.Double.map_finite, Binary64.Double.le_finite,
      decide_eq_false_iff_not, not_le] at hlimit
    exact hlimit.trans_le hle
  linarith

lemma BoundedLoss.ne_nan {message : SignRuneTokenToBtcTransferQuestion} {margin : ℚ} {psbt : Psbt}
    (h : service.BoundedLoss views message margin psbt) :
    message.feeRateSatsPerVb ≠ .float .nan := by
  intro hnan
  obtain ⟨r, -, -, hr, -⟩ := h.bounded
  rw [hnan] at hr
  cases hr

end RuneBridgeService

/-! ## NaN for a rate

A transaction that passes the checks still passes when its first input declares more, and what it
declares more goes to the miner. -/

namespace Psbt

/-- The first of these inputs declares `extra` more. -/
def raiseFirst (extra : ℤ) : List PsbtInput → List PsbtInput
  | [] => []
  | inp :: inputs =>
      { inp with utxo := inp.utxo.map fun out => { out with nValue := out.nValue + extra } } ::
        inputs

@[simp] lemma length_raiseFirst (extra : ℤ) (inputs : List PsbtInput) :
    (raiseFirst extra inputs).length = inputs.length := by
  cases inputs <;> rfl

lemma inputValue_raiseFirst {inputs : List PsbtInput} (hne : inputs ≠ []) {value : ℤ}
    (h : inputValue inputs = .ok value) (extra : ℤ) :
    inputValue (raiseFirst extra inputs) = .ok (value + extra) := by
  cases inputs with
  | nil => exact absurd rfl hne
  | cons inp inputs =>
      simp only [inputValue, bind_eq_ok, orError_eq_ok, pure_eq_ok] at h
      obtain ⟨out, hout, rest, hrest, rfl⟩ := h
      simp only [raiseFirst, inputValue, hout, Option.map_some, bind_eq_ok, orError_eq_ok,
        pure_eq_ok]
      exact ⟨_, rfl, rest, hrest, by ring⟩

end Psbt

namespace RuneBridgeService

variable {Hash : Type} {service : RuneBridgeService Hash} {views : Views Hash} {db : Db Hash}

/-- With NaN for a rate, what the inputs declare is not checked beyond covering the outputs. -/
lemma validate_of_nan {message : SignRuneTokenToBtcTransferQuestion} {psbt costly : Psbt}
    (h : service.validateSignRuneTokenToBtcTransferQuestion views db message = .ok psbt)
    (hnan : message.feeRateSatsPerVb = .float .nan) {fee : ℤ} (hfee : costly.getFee = .ok fee)
    (htx : costly.unsignedTx = psbt.unsignedTx) {text : String}
    (htext : service.psbtCodec.fromBase64 text = .ok costly) :
    service.validateSignRuneTokenToBtcTransferQuestion views db
      { message with unsignedPsbtSerialized := text } = .ok costly := by
  obtain ⟨hnodup, htransfers, -, r, hdecipher, houtputs, hedicts, hchecked⟩ := validateSign_eq_ok.1 h
  simp only [validateFee, validateFeeIn, bind_eq_ok] at hchecked
  obtain ⟨estimate, hestimate, -⟩ := hchecked
  rw [← htx] at hdecipher houtputs hedicts
  refine validateSign_eq_ok.2
    ⟨hnodup, htransfers, htext, r, hdecipher, houtputs, hedicts, ?_⟩
  simp only [hnan]
  exact validateFee_nan hestimate hfee

/-- So there is no bound on what such a transaction may cost. -/
lemma costly_of_nan {message : SignRuneTokenToBtcTransferQuestion} {psbt : Psbt}
    (h : service.validateSignRuneTokenToBtcTransferQuestion views db message = .ok psbt)
    (hnan : message.feeRateSatsPerVb = .float .nan) (hne : psbt.inputs ≠ []) (bound : ℤ) :
    ∃ (costly : Psbt) (value : ℤ), costly.unsignedTx = psbt.unsignedTx ∧
      costly.inputs.length = psbt.inputs.length ∧ Psbt.inputValue costly.inputs = .ok value ∧
      bound < value - psbt.unsignedTx.paidTo service.ordMultisig.changeScriptPubkey ∧
      ∀ text, service.psbtCodec.fromBase64 text = .ok costly →
        service.validateSignRuneTokenToBtcTransferQuestion views db
          { message with unsignedPsbtSerialized := text } = .ok costly := by
  obtain ⟨-, -, -, r, -, -, -, hchecked⟩ := validateSign_eq_ok.1 h
  simp only [validateFee, validateFeeIn, bind_eq_ok, exists_unit] at hchecked
  obtain ⟨-, -, -, -, -, fee, hfee, -⟩ := hchecked
  simp only [Psbt.getFee, bind_eq_ok, exists_unit, require_eq_ok, pure_eq_ok] at hfee
  obtain ⟨value, hvalue, hnonneg, -⟩ := hfee
  -- enough for the bound, and never less than before
  obtain ⟨extra, hextra, hmore⟩ : ∃ extra : ℤ, 0 ≤ extra ∧ bound <
      value + extra - psbt.unsignedTx.paidTo service.ordMultisig.changeScriptPubkey :=
    ⟨max 0 (bound - value + psbt.unsignedTx.paidTo service.ordMultisig.changeScriptPubkey + 1),
      by omega, by omega⟩
  have hraised := Psbt.inputValue_raiseFirst hne hvalue extra
  have hfee : Psbt.getFee ⟨psbt.unsignedTx, Psbt.raiseFirst extra psbt.inputs⟩ =
      .ok (value + extra - Psbt.outputValue psbt.unsignedTx.vout) := by
    simp only [Psbt.getFee, bind_eq_ok, exists_unit, require_eq_ok, pure_eq_ok]
    exact ⟨value + extra, hraised, by omega, rfl⟩
  exact ⟨⟨psbt.unsignedTx, Psbt.raiseFirst extra psbt.inputs⟩, value + extra, rfl,
    Psbt.length_raiseFirst extra psbt.inputs, hraised, hmore,
    fun text htext => validate_of_nan h hnan hfee rfl htext⟩

end RuneBridgeService

/-- **Bounded loss of a signed payout**, for all fee rates but one.  Whatever question a leader
sends, the transaction a node signs takes less than the postage of its transfers and 1.1 times its
fee rate times its size from the multisig if and only if the fee rate is not NaN: so in exact
arithmetic, and up to the rounding in the source's floating point.  With NaN for a rate nothing
bounds the loss: a transaction that costs more than any bound passes the same checks. -/
theorem payout_loss_bounded_iff_rate_not_nan {Hash : Type} (service : RuneBridgeService Hash)
    (views : Views Hash) (db : Db Hash) (message : SignRuneTokenToBtcTransferQuestion) :
    (∀ answer, service.answerSignRuneTokenToBtcTransferQuestionIn .exact views db message =
        .ok answer →
      ((∃ psbt, service.BoundedLoss views message (11 / 10) psbt) ↔
        message.feeRateSatsPerVb ≠ .float .nan)) ∧
    (∀ answer, service.answerSignRuneTokenToBtcTransferQuestion views db message = .ok answer →
      ((∃ psbt, service.BoundedLoss views message (11 / 10 * (1 + 1 / 2 ^ 50)) psbt) ↔
        message.feeRateSatsPerVb ≠ .float .nan)) ∧
    ∀ psbt, service.validateSignRuneTokenToBtcTransferQuestion views db message = .ok psbt →
      message.feeRateSatsPerVb = .float .nan → psbt.inputs ≠ [] → ∀ bound : ℤ,
        ∃ (costly : Psbt) (value : ℤ), costly.unsignedTx = psbt.unsignedTx ∧
          costly.inputs.length = psbt.inputs.length ∧ Psbt.inputValue costly.inputs = .ok value ∧
          bound < value - psbt.unsignedTx.paidTo service.ordMultisig.changeScriptPubkey ∧
          ∀ text, service.psbtCodec.fromBase64 text = .ok costly →
            service.validateSignRuneTokenToBtcTransferQuestion views db
              { message with unsignedPsbtSerialized := text } = .ok costly := by
  refine ⟨fun answer h => ⟨?_, fun hnan => ?_⟩, fun answer h => ⟨?_, fun hnan => ?_⟩, ?_⟩
  · rintro ⟨psbt, hbounded⟩
    exact hbounded.ne_nan
  · exact RuneBridgeService.boundedLoss_of_answerIn MarginArithmetic.within_exact h hnan
  · rintro ⟨psbt, hbounded⟩
    exact hbounded.ne_nan
  · exact RuneBridgeService.boundedLoss_of_answerIn MarginArithmetic.within_binary64
      (RuneBridgeService.answerIn_binary64 h) hnan
  · intro psbt h hnan hne bound
    exact RuneBridgeService.costly_of_nan h hnan hne bound

/-- The example payout is signed in exact arithmetic, and so takes little from the multisig. -/
theorem payout_loss_bounded_iff_rate_not_nan_example :
    ∃ psbt, (ExampleNode.service '4' [ExampleNode.payout 1]).BoundedLoss (ExampleNode.views ['4'])
      (ExampleNode.payoutQuestion "") (11 / 10) psbt := by
  have hanswer : (ExampleNode.service '4' [ExampleNode.payout 1]
      ).answerSignRuneTokenToBtcTransferQuestionIn .exact (ExampleNode.views ['4']) ExampleNode.db
        (ExampleNode.payoutQuestion "") = .ok ⟨"", "xpub"⟩ := by
    decide +kernel
  exact ((payout_loss_bounded_iff_rate_not_nan (ExampleNode.service '4' [ExampleNode.payout 1])
    (ExampleNode.views ['4']) ExampleNode.db (ExampleNode.payoutQuestion "")).1 _ hanswer).2
      (by decide)

namespace ExampleNode

/-- The payout of `transfer` from outputs of a million satoshi more, all of it left to the miner. -/
def costlyPayout : Psbt :=
  { payout 1 with
    inputs := [⟨some [81], some ⟨1010000, [0]⟩, none, []⟩,
      ⟨some [81], some ⟨100000, [0]⟩, none, []⟩] }

/-- Its question has NaN for a fee rate. -/
def nanQuestion : SignRuneTokenToBtcTransferQuestion :=
  { payoutQuestion "" with feeRateSatsPerVb := .float .nan }

end ExampleNode

open ExampleNode in
/-- **A million satoshi signed away.**  At an estimate of one satoshi a byte the node signs, in
either arithmetic, and the loss is beyond the limit of every rate in the range. -/
theorem payout_of_any_fee_signed :
    let service := service '4' [costlyPayout]
    (∃ answer, service.answerSignRuneTokenToBtcTransferQuestionIn .exact (views ['4']) db
      nanQuestion = .ok answer) ∧
    (∃ answer, service.answerSignRuneTokenToBtcTransferQuestion (views ['4']) db nanQuestion =
      .ok answer) ∧
    (∀ psbt, ¬ service.BoundedLoss (views ['4']) nanQuestion (11 / 10) psbt) ∧
    ∃ value, Psbt.inputValue costlyPayout.inputs = .ok value ∧
      ∀ r : ℚ, r ≤ 3 * max 1 service.getMinFeeRateSatPerVbyte →
        1 * 10000 + 11 / 10 * r * service.ordMultisig.estimatePsbtSizeVb costlyPayout <
          ((value - costlyPayout.unsignedTx.paidTo service.ordMultisig.changeScriptPubkey : ℤ) :
            ℚ) := by
  intro service
  have hfacts : (service.answerSignRuneTokenToBtcTransferQuestionIn .exact (views ['4']) db
        nanQuestion).isOk = true ∧
      (service.answerSignRuneTokenToBtcTransferQuestion (views ['4']) db nanQuestion).isOk = true ∧
      Psbt.inputValue costlyPayout.inputs = .ok 1110000 ∧
      costlyPayout.unsignedTx.paidTo service.ordMultisig.changeScriptPubkey = 99796 ∧
      service.getMinFeeRateSatPerVbyte = 1 ∧
      service.ordMultisig.estimatePsbtSizeVb costlyPayout ≤ 1000 := by
    decide +kernel
  obtain ⟨hexact, hsigned, hvalue, hpaid, hmin, hsize⟩ := hfacts
  refine ⟨exists_ok_of_isOk hexact, exists_ok_of_isOk hsigned, fun psbt hbounded =>
    hbounded.ne_nan rfl, 1110000, hvalue, fun r hr => ?_⟩
  rw [hmin] at hr
  have hr3 : r ≤ 3 := by simpa using hr
  have hsize' : (service.ordMultisig.estimatePsbtSizeVb costlyPayout : ℚ) ≤ 1000 := by
    exact_mod_cast hsize
  have hproduct : r * service.ordMultisig.estimatePsbtSizeVb costlyPayout ≤ 3 * 1000 :=
    mul_le_mul hr3 hsize' (Nat.cast_nonneg _) (by norm_num)
  rw [hpaid]
  push_cast
  linarith

end NbteBridge
