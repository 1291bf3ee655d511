import NbteBridge.Node.Service

/-!
# Answers to signing questions

The two questions a leader asks its peers, as a peer answers them: to sign the mint of a deposit on
the EVM chain, and to sign the Bitcoin transaction that pays out handed-in rune tokens.  An error
text stands without the values the source prints into it.
-/

namespace NbteBridge

open Checked

/-! ## The margin of a fee -/

/-- How the fee of a size is computed, and its product and quotient with `fee_margin`. -/
structure MarginArithmetic where
  /-- An integer as an operand. -/
  operand : ℤ → ℚ
  /-- The product of an integer and a double. -/
  product : ℤ → ℚ → ℚ
  times : ℚ → ℚ
  divided : ℚ → ℚ

namespace MarginArithmetic

/-- The source's floating point. -/
def binary64 : MarginArithmetic where
  operand := Binary64.ofInt
  product n q := Binary64.mul (Binary64.ofInt n) q
  times q := Binary64.mul q RuneBridgeService.feeMargin
  divided q := Binary64.div q RuneBridgeService.feeMargin

/-- Exact fractions. -/
def exact : MarginArithmetic where
  operand n := n
  product n q := n * q
  times q := 11 / 10 * q
  divided q := q / (11 / 10)

/-- `psbt_size * fee_rate`, as the operand of what follows.  The product of integers is exact. -/
def calculatedFee (arithmetic : MarginArithmetic) (psbtSize : ℤ) : PyNumber → Binary64.Double
  | .int n => .finite (arithmetic.operand (psbtSize * n))
  | .float x => x.map (arithmetic.product psbtSize)
  | .other _ => .nan

end MarginArithmetic

namespace RuneBridgeService

variable {Hash : Type} (service : RuneBridgeService Hash) (views : Views Hash) (db : Db Hash)

/-! ## Rune to EVM -/

/-- `answer_sign_rune_to_evm_transfer_question`.  The database is not consulted. -/
def answerSignRuneToEvmTransferQuestion (message : SignRuneToEvmTransferQuestion) :
    PyResult (SignRuneToEvmTransferAnswer Hash) := do
  let transfer := message.transfer
  let runeResponse ← views.ordClient.getRune transfer.runeName
  let runeResponse ← orError runeResponse (.validationError "Rune not found")
  let rune ← runeFromStr transfer.runeName
  require (rune.n = transfer.runeNumber) (.validationError "Rune number mismatch")
  let registered ← views.contract.isRuneRegistered rune.n
  require (registered = true) (.validationError "Rune not registered")
  let paused ← views.contract.isRunePaused rune.n
  require (paused = false) (.validationError "Rune is paused")
  let divisibility := runeResponse.entry.divisibility
  let calculatedAmounts :=
    service.calculateRuneToEvmTransferAmounts transfer.amountRaw divisibility
  require (transfer.amountRaw = calculatedAmounts.amountRaw) (.validationError "Amount mismatch")
  require (transfer.netAmountRaw = calculatedAmounts.netAmountRaw)
    (.validationError "Net amount mismatch")
  require (transfer.netAmountRaw ≠ 0) (.validationError "Net amount is zero")
  let balanceAtOutput ← OrdMultisig.getRuneBalanceAtOutput views.ordClient transfer.txid
    transfer.vout transfer.runeName
  require ((balanceAtOutput : ℤ) = transfer.amountRaw)
    (.validationError "Balance at output is not the expected one")
  let messageHash ← views.contract.getAcceptTransferFromBtcMessageHash transfer.evmAddress rune.n
    transfer.netAmountRaw transfer.txid transfer.vout
  pure ⟨service.evmAccount.signMessage messageHash, service.evmAccount.address, messageHash⟩

/-! ## Rune token to BTC -/

/-- The transfers a question is about. -/
def questionTransfers (message : SignRuneTokenToBtcTransferQuestion) :
    List RuneTokenToBtcTransfer :=
  message.transfers.getD [message.transfer]

/-- A transfer against the node's own row of its event. -/
def validateTransfer (transfer : RuneTokenToBtcTransfer) : PyResult Unit := do
  let deposit ← orError (db.runeTokenDeposits.get? transfer.key) (.other "No row was found")
  require (deposit.status = .accepted) (.validationError "Deposit not accepted")
  require (deposit.receiverBtcAddress = transfer.receiverAddress)
    (.validationError "Receiver BTC address mismatch")
  require (deposit.netRuneAmountRaw = transfer.netRuneAmount)
    (.validationError "Net rune amount mismatch")
  let rune ← runeFromStr transfer.runeName
  require (deposit.rune.n = rune.n) (.validationError "Rune number mismatch")
  require (rune.n = transfer.runeNumber) (.validationError "Rune number/name mismatch")
  require (deposit.netRuneAmountRaw = transfer.netRuneAmount)
    (.validationError "Net rune amount mismatch")

def validateTransfers : List RuneTokenToBtcTransfer → PyResult Unit
  | [] => pure ()
  | transfer :: transfers => do
      validateTransfer db transfer
      validateTransfers transfers

/-- The BTC change output, when there is one. -/
def validateChangeOutput (unsignedTx : Transaction) (numTransfers : ℕ) : PyResult Unit :=
  if unsignedTx.vout.length = numTransfers + 3 then do
    let last ← orError unsignedTx.vout[numTransfers + 2]? (.other "list index out of range")
    require (last.scriptPubKey = service.ordMultisig.changeScriptPubkey)
      (.validationError "Expected change address at last output")
  else pure ()

/-- The outputs every payout has: the runestone, the rune change, and maybe the BTC change. -/
def validateOutputs (unsignedTx : Transaction) (runestone : Runes.Runestone)
    (numTransfers : ℕ) : PyResult Unit := do
  let vout := unsignedTx.vout
  require (vout.length = numTransfers + 2 ∨ vout.length = numTransfers + 3)
    (.validationError "Unexpected number of outputs")
  let out0 ← orError vout[0]? (.other "list index out of range")
  let out1 ← orError vout[1]? (.other "list index out of range")
  require (out0.nValue = 0) (.validationError "Expected value 0 OP_RETURN at output 0")
  let script ← service.codec.encipher runestone
  require (out0.scriptPubKey = script) (.validationError "Expected runestone at output 0")
  require (out1.nValue = TARGET_POSTAGE_SAT) (.validationError "Expected postage at output 2")
  require (out1.scriptPubKey = service.ordMultisig.changeScriptPubkey)
    (.validationError "Expected script pubkey of the change address at output 1")
  service.validateChangeOutput unsignedTx numTransfers
  require (runestone.edicts.length = numTransfers) (.validationError "Unexpected number of edicts")

/-- A transfer against its output and against the first edict of the runestone. -/
def validateEdict (unsignedTx : Transaction) (runestone : Runes.Runestone) (transferVout : ℕ)
    (transfer : RuneTokenToBtcTransfer) : PyResult Unit := do
  let runeResponse ← views.ordClient.getRune transfer.runeName
  let runeResponse ← orError runeResponse (.validationError "Rune not found in ord")
  let edict ← orError runestone.edicts[0]? (.other "list index out of range")
  require ((edict.amount : ℤ) = transfer.netRuneAmount) (.validationError "Amount mismatch")
  require (edict.id = runeResponse.id) (.validationError "Rune ID mismatch")
  require (edict.output = transferVout) (.validationError "Unexpected output of edict")
  let out ← orError unsignedTx.vout[transferVout]? (.other "list index out of range")
  require (out.nValue = TARGET_POSTAGE_SAT) (.validationError "Expected postage at output")
  let script ← service.codec.addressScript transfer.receiverAddress
  require (out.scriptPubKey = script) (.validationError "Expected script pubkey at output")

/-- The loop over the transfers; the first one's output has index `transferVout`. -/
def validateEdicts (unsignedTx : Transaction) (runestone : Runes.Runestone) :
    ℕ → List RuneTokenToBtcTransfer → PyResult Unit
  | _, [] => pure ()
  | transferVout, transfer :: transfers => do
      service.validateEdict views unsignedTx runestone transferVout transfer
      validateEdicts unsignedTx runestone (transferVout + 1) transfers

/-- The fee rate against the node's own estimate, and the fee against the fee rate, in this
arithmetic. -/
def validateFeeIn (arithmetic : MarginArithmetic) (unsignedPsbt : Psbt)
    (feeRateSatsPerVb : PyNumber) : PyResult Unit := do
  let expectedFeeRate ← views.feeSatsPerVb
  let feeRateMargin := 3
  let minFeeRate := service.getMinFeeRateSatPerVbyte
  let feeRateMin := max (expectedFeeRate / feeRateMargin) minFeeRate
  let feeRateMax := max expectedFeeRate minFeeRate * feeRateMargin
  let feeRate ← feeRateSatsPerVb.value
  -- every check raises if a comparison holds: NaN passes them all
  require (feeRate.lt feeRateMin = false ∧ feeRate.gt feeRateMax = false)
    (.validationError "Fee rate not within range")
  let psbtSize := service.ordMultisig.estimatePsbtSizeVb unsignedPsbt
  let calculatedFee := arithmetic.calculatedFee psbtSize feeRateSatsPerVb
  let actualFee ← unsignedPsbt.getFee
  require ((calculatedFee.map arithmetic.times).le actualFee = false)
    (.validationError "Fee too high")
  require ((calculatedFee.map arithmetic.divided).gt actualFee = false)
    (.validationError "Fee too low")

/-- In floating point, as the source has it. -/
def validateFee (unsignedPsbt : Psbt) (feeRateSatsPerVb : PyNumber) : PyResult Unit :=
  service.validateFeeIn views .binary64 unsignedPsbt feeRateSatsPerVb

open Binary64 in
/-- With an integer for a rate, the checks are two inequalities on the rate and two on the fee. -/
lemma validateFee_int (unsignedPsbt : Psbt) (feeRate : ℤ) :
    service.validateFee views unsignedPsbt (.int feeRate) = (do
      let expectedFeeRate ← views.feeSatsPerVb
      require (max (expectedFeeRate / 3) service.getMinFeeRateSatPerVbyte ≤ feeRate ∧
        feeRate ≤ max expectedFeeRate service.getMinFeeRateSatPerVbyte * 3)
        (.validationError "Fee rate not within range")
      let calculatedFee := service.ordMultisig.estimatePsbtSizeVb unsignedPsbt * feeRate
      let actualFee ← unsignedPsbt.getFee
      require ((actualFee : ℚ) < mul (ofInt calculatedFee) feeMargin)
        (.validationError "Fee too high")
      require (div (ofInt calculatedFee) feeMargin ≤ actualFee)
        (.validationError "Fee too low")) := by
  simp only [validateFee, validateFeeIn, PyNumber.value, pure_bind, MarginArithmetic.calculatedFee,
    MarginArithmetic.binary64, Double.lt_finite, Double.gt_finite, Double.map_finite,
    Double.le_finite, decide_eq_false_iff_not, not_lt, not_le, Int.cast_le]

/-- What `answer_sign_rune_token_to_btc_transfer_question` checks, down to the transaction it then
signs. -/
def validateSignRuneTokenToBtcTransferQuestion (message : SignRuneTokenToBtcTransferQuestion) :
    PyResult Psbt := do
  let transfers := questionTransfers message
  require ((transfers.map RuneTokenToBtcTransfer.key).Nodup)
    (.validationError "Duplicate transfers")
  validateTransfers db transfers
  let unsignedPsbt ← service.psbtCodec.fromBase64 message.unsignedPsbtSerialized
  let unsignedTx := unsignedPsbt.unsignedTx
  match service.codec.decipher (unsignedTx.vout.map TxOut.scriptPubKey) with
  | none => .error (.validationError "Could not decipher runestone from hex tx")
  | some (.cenotaph _) => .error (.validationError "Runestone is a cenotaph")
  | some (.runestone runestone) => do
      service.validateOutputs unsignedTx runestone transfers.length
      service.validateEdicts views unsignedTx runestone 2 transfers
      service.validateFee views unsignedPsbt message.feeRateSatsPerVb
      pure unsignedPsbt

/-- `answer_sign_rune_token_to_btc_transfer_question`. -/
def answerSignRuneTokenToBtcTransferQuestion (message : SignRuneTokenToBtcTransferQuestion) :
    PyResult SignRuneTokenToBtcTransferAnswer := do
  let unsignedPsbt ← service.validateSignRuneTokenToBtcTransferQuestion views db message
  let signedPsbt ← service.ordMultisig.signPsbt unsignedPsbt
  pure ⟨service.psbtCodec.toBase64 signedPsbt, service.ordMultisig.signerXpub⟩

variable {service views db}

/-- What passes the checks is the PSBT of the question, with a runestone in it that can be read. -/
lemma validateSign_eq_ok {message : SignRuneTokenToBtcTransferQuestion} {psbt : Psbt} :
    service.validateSignRuneTokenToBtcTransferQuestion views db message = .ok psbt ↔
      ((questionTransfers message).map RuneTokenToBtcTransfer.key).Nodup ∧
      validateTransfers db (questionTransfers message) = .ok () ∧
      service.psbtCodec.fromBase64 message.unsignedPsbtSerialized = .ok psbt ∧
      ∃ r, service.codec.decipher (psbt.unsignedTx.vout.map TxOut.scriptPubKey) =
          some (.runestone r) ∧
        service.validateOutputs psbt.unsignedTx r (questionTransfers message).length = .ok () ∧
        service.validateEdicts views psbt.unsignedTx r 2 (questionTransfers message) = .ok () ∧
        service.validateFee views psbt message.feeRateSatsPerVb = .ok () := by
  simp only [validateSignRuneTokenToBtcTransferQuestion, bind_eq_ok, exists_unit, require_eq_ok]
  constructor
  · rintro ⟨hnodup, htransfers, psbt', hpsbt, h⟩
    split at h
    · exact absurd h (by simp)
    · exact absurd h (by simp)
    · rename_i r hdecipher
      simp only [bind_eq_ok, exists_unit, pure_eq_ok] at h
      obtain ⟨houtputs, hedicts, hfee, rfl⟩ := h
      exact ⟨hnodup, htransfers, hpsbt, r, hdecipher, houtputs, hedicts, hfee⟩
  · rintro ⟨hnodup, htransfers, hpsbt, r, hdecipher, houtputs, hedicts, hfee⟩
    refine ⟨hnodup, htransfers, psbt, hpsbt, ?_⟩
    simp only [hdecipher, bind_eq_ok, exists_unit, pure_eq_ok]
    exact ⟨houtputs, hedicts, hfee, trivial⟩

/-- What is answered has passed the checks and is signed. -/
lemma answerSign_eq_ok {message : SignRuneTokenToBtcTransferQuestion}
    {answer : SignRuneTokenToBtcTransferAnswer} :
    service.answerSignRuneTokenToBtcTransferQuestion views db message = .ok answer ↔
      ∃ psbt, service.validateSignRuneTokenToBtcTransferQuestion views db message = .ok psbt ∧
        ∃ signed, service.ordMultisig.signPsbt psbt = .ok signed ∧
          ⟨service.psbtCodec.toBase64 signed, service.ordMultisig.signerXpub⟩ = answer := by
  simp only [answerSignRuneTokenToBtcTransferQuestion, bind_eq_ok, pure_eq_ok]

end RuneBridgeService

end NbteBridge
