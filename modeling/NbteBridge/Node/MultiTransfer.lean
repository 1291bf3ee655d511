import NbteBridge.Node.PayoutAgreement

/-!
# Questions about several transfers

A signing question may list its transfers, and `create_rune_psbt` pays any number of them.  The
check walks through edicts and transfers side by side, but compares every transfer with the first
edict: at the second transfer that edict would need two outputs.  So a question the node's own
builder answers for is signed when it lists one transfer, and refused when it lists more.
-/

namespace NbteBridge

open Checked

/-! ## The request -/

/-- What `create_rune_psbt` is called with for a transfer. -/
structure RuneTokenToBtcTransfer.Requests (t : RuneTokenToBtcTransfer) (transfer : RuneTransfer) :
    Prop where
  rune : runeFromStr t.runeName = .ok transfer.rune
  receiver : transfer.receiver = t.receiverAddress
  amount : transfer.amount = t.netRuneAmount
  postage : transfer.postage = TARGET_POSTAGE_SAT

/-- The node has the deposit of a transfer as accepted, with the transfer's data. -/
structure RuneTokenToBtcTransfer.Recorded {Hash : Type} (db : Db Hash)
    (t : RuneTokenToBtcTransfer) : Prop where
  deposit : ∃ deposit, db.runeTokenDeposits.get? t.key = some deposit ∧
    deposit.status = .accepted ∧ deposit.receiverBtcAddress = t.receiverAddress ∧
    deposit.netRuneAmountRaw = t.netRuneAmount ∧ deposit.rune.n = t.runeNumber
  rune : ∃ rune, runeFromStr t.runeName = .ok rune ∧ rune.n = t.runeNumber

/-- A leader built the transaction of several accepted deposits, with a BTC change output, and asks
a node for its signatures at a fee rate in the node's range.  The two see the same runes. -/
structure MultiTransferRequest {Hash : Type} (service service' : RuneBridgeService Hash)
    (views views' : Views Hash) (db' : Db Hash) (transfers : List RuneTokenToBtcTransfer)
    (feeRate : ℤ) (psbt : Psbt) (question : SignRuneTokenToBtcTransferQuestion) : Prop where
  federation : SameFederation service service'
  nonempty : transfers ≠ []
  distinct : (transfers.map RuneTokenToBtcTransfer.key).Nodup
  recorded : ∀ t ∈ transfers, t.Recorded db'
  built : ∃ runeTransfers maxNumInputs,
    List.Forall₂ RuneTokenToBtcTransfer.Requests transfers runeTransfers ∧
    service.ordMultisig.createRunePsbt views.bitcoinRpc views.ordClient service.codec
      runeTransfers feeRate maxNumInputs = .ok psbt
  btcChange : psbt.unsignedTx.vout.length = transfers.length + 3
  listed : question.transfers = some transfers
  serialized : question.unsignedPsbtSerialized = service.psbtCodec.toBase64 psbt
  asked : question.feeRateSatsPerVb = .int feeRate
  rate : ∃ estimate, views'.feeSatsPerVb = .ok estimate ∧
    max (estimate / 3) service'.getMinFeeRateSatPerVbyte ≤ feeRate ∧
    feeRate ≤ max estimate service'.getMinFeeRateSatPerVbyte * 3
  ord : ∀ t ∈ transfers, ∀ rune, runeFromStr t.runeName = .ok rune →
    views'.ordClient.getRune t.runeName = views.ordClient.getRune rune.name

/-- A transaction altered where the transfers are paid: it has no runestone with the same edicts,
whatever their order, or a receiver's output is another one. -/
def Transaction.Altered (codec : Codec) (numTransfers : ℕ) (tx tx' : Transaction) : Prop :=
  (∃ r, codec.decipher tx.scripts = some (.runestone r) ∧
    ∀ r', codec.decipher tx'.scripts = some (.runestone r') → ¬ r'.edicts.Perm r.edicts) ∨
  ∃ k < numTransfers, tx'.vout[2 + k]? ≠ tx.vout[2 + k]?

namespace RuneBridgeService

variable {Hash : Type} {service service' : RuneBridgeService Hash} {views views' : Views Hash}
  {db' : Db Hash} {transfers : List RuneTokenToBtcTransfer} {feeRate : ℤ} {psbt : Psbt}
  {question : SignRuneTokenToBtcTransferQuestion}

/-! ## What is refused -/

/-- Every transfer is compared with the first edict, which has one output. -/
lemma length_le_one_of_validateEdicts {tx : Transaction} {r : Runes.Runestone} {k : ℕ}
    (h : service'.validateEdicts views' tx r k transfers = .ok ()) : transfers.length ≤ 1 := by
  match transfers, h with
  | [], _ => simp
  | [t], _ => simp
  | t :: t' :: rest, h =>
      exfalso
      simp only [validateEdicts, validateEdict, bind_eq_ok, exists_unit, require_eq_ok,
        orError_eq_ok] at h
      obtain ⟨⟨_, -, _, -, e, he, -, -, houtput, -⟩, ⟨_, -, _, -, e', he', -, -, houtput', -⟩,
        -⟩ := h
      obtain rfl : e = e' := Option.some.inj (he.symm.trans he')
      omega

/-- What a signed question paid, if it lists one transfer: its edict and its output are those of the
transfer. -/
structure PaysSingle (service' : RuneBridgeService Hash) (views' : Views Hash)
    (t : RuneTokenToBtcTransfer) (tx : Transaction) : Prop where
  edict : ∃ r e response, service'.codec.decipher tx.scripts = some (.runestone r) ∧
    r.edicts = [e] ∧ views'.ordClient.getRune t.runeName = .ok (some response) ∧
    (e.amount : ℤ) = t.netRuneAmount ∧ e.id = response.id ∧ e.output = 2
  output : ∃ script, service'.codec.addressScript t.receiverAddress = .ok script ∧
    tx.vout[2]? = some ⟨TARGET_POSTAGE_SAT, script⟩

/-- A signed question lists at most one transfer, and its transaction pays that one. -/
theorem pays_of_answer {answer : SignRuneTokenToBtcTransferAnswer}
    (hlisted : question.transfers = some transfers)
    (h : service'.answerSignRuneTokenToBtcTransferQuestion views' db' question = .ok answer) :
    transfers.length ≤ 1 ∧ ∃ psbt,
      service'.psbtCodec.fromBase64 question.unsignedPsbtSerialized = .ok psbt ∧
      ∀ t, transfers = [t] → PaysSingle service' views' t psbt.unsignedTx := by
  have htransfers : questionTransfers question = transfers := by
    rw [questionTransfers, hlisted]
    rfl
  obtain ⟨psbt, hchecked, -⟩ := answerSign_eq_ok.1 h
  obtain ⟨-, -, hpsbt, r, hr, houtputs, hedicts, -⟩ := validateSign_eq_ok.1 hchecked
  rw [htransfers] at houtputs hedicts
  refine ⟨length_le_one_of_validateEdicts hedicts, psbt, hpsbt, fun t ht => ?_⟩
  obtain rfl := ht
  simp only [validateOutputs, bind_eq_ok, exists_unit, require_eq_ok, orError_eq_ok] at houtputs
  obtain ⟨-, -, -, -, -, -, -, -, -, -, -, -, hlength⟩ := houtputs
  obtain ⟨e, he⟩ := List.length_eq_one_iff.1 hlength
  simp only [validateEdicts, validateEdict, bind_eq_ok, exists_unit, require_eq_ok,
    orError_eq_ok] at hedicts
  obtain ⟨⟨_, hresponse, response, rfl, e', he', hamount, hid, houtput, out, hout, hpostage, script,
    hscript, heq⟩, -⟩ := hedicts
  obtain rfl : e = e' := by simpa [he] using he'
  refine ⟨⟨r, e, response, hr, he, hresponse, hamount, hid, houtput⟩, script, hscript, ?_⟩
  rw [hout, ← hpostage, ← heq]

/-- Two transactions that pay the same transfer are not altered from each other. -/
lemma PaysSingle.not_altered {t : RuneTokenToBtcTransfer} {tx tx' : Transaction}
    (h : PaysSingle service' views' t tx) (h' : PaysSingle service' views' t tx') :
    ¬ Transaction.Altered service'.codec 1 tx tx' := by
  obtain ⟨r, e, response, hr, hedicts, hresponse, hamount, hid, houtput⟩ := h.edict
  obtain ⟨r', e', response', hr', hedicts', hresponse', hamount', hid', houtput'⟩ := h'.edict
  obtain rfl : response = response' :=
    Option.some.inj (Except.ok.inj (hresponse.symm.trans hresponse'))
  have heq : e' = e := by
    obtain ⟨id, amount, output⟩ := e
    obtain ⟨id', amount', output'⟩ := e'
    simp only at hamount hamount' hid hid' houtput houtput'
    rw [Runes.Edict.mk.injEq]
    exact ⟨hid'.trans hid.symm, by omega, by omega⟩
  rintro (⟨r₀, hr₀, hnot⟩ | ⟨k, hk, hne⟩)
  · obtain rfl : r = r₀ := Runes.Artifact.runestone.inj (Option.some.inj (hr.symm.trans hr₀))
    apply hnot r' hr'
    rw [hedicts, hedicts', heq]
  · obtain ⟨script, hscript, hout⟩ := h.output
    obtain ⟨script', hscript', hout'⟩ := h'.output
    obtain rfl : script = script' := Except.ok.inj (hscript.symm.trans hscript')
    obtain rfl : k = 0 := by omega
    exact hne (hout'.trans hout.symm)

/-! ## What is signed -/

lemma validateTransfers_of_recorded (h : ∀ t ∈ transfers, t.Recorded db') :
    validateTransfers db' transfers = .ok () := by
  induction transfers with
  | nil => rfl
  | cons t transfers ih =>
      obtain ⟨⟨deposit, hrow, haccepted, hreceiver, hamount, hnumber⟩, rune, hrune, hn⟩ :=
        h t (by simp)
      simp only [validateTransfers, validateTransfer, bind_eq_ok, exists_unit, orError_eq_ok,
        require_eq_ok]
      exact ⟨⟨deposit, hrow, haccepted, hreceiver, hamount, rune, hrune, hnumber.trans hn.symm, hn,
        hamount⟩, ih fun t' ht' => h t' (by simp [ht'])⟩

/-- A request for one transfer is signed. -/
theorem signed_of_single {t : RuneTokenToBtcTransfer}
    (hreq : MultiTransferRequest service service' views views' db' [t] feeRate psbt question)
    (hc : service.codec.Lawful)
    (hid : ∀ name response, views.ordClient.getRune name = .ok (some response) →
      0 < response.id.block)
    (hround : service.psbtCodec.fromBase64 (service.psbtCodec.toBase64 psbt) = .ok psbt)
    (hsign : ∃ signed, service'.ordMultisig.keyStoreSign psbt = .ok (psbt.inputs.length, signed)) :
    ∃ answer, service'.answerSignRuneTokenToBtcTransferQuestion views' db' question =
      .ok answer := by
  obtain ⟨runeTransfers, maxNumInputs, hrequests, hbuilt⟩ := hreq.built
  obtain ⟨transfer, _, hrequest, hnil, rfl⟩ := List.forall₂_cons_left_iff.1 hrequests
  obtain rfl := List.forall₂_nil_left_iff.1 hnil
  obtain ⟨rune, receiver, amount, postage⟩ := transfer
  obtain ⟨hrune, rfl, rfl, rfl⟩ := hrequest
  obtain ⟨response, hresponse, hsingle⟩ := OrdMultisig.createRunePsbt_single hbuilt
  have hresponse' : views'.ordClient.getRune t.runeName = .ok (some response) := by
    rw [hreq.ord t (by simp) rune hrune, hresponse]
  obtain ⟨hdecipher, houtputs, hedicts⟩ :=
    checks_of_builtSingle hreq.federation hc hsingle (hid _ _ hresponse) hresponse'
  have hfee : service'.validateFee views' psbt question.feeRateSatsPerVb = .ok () := by
    rw [hreq.asked]
    obtain ⟨estimate, hestimate, hmin, hmax⟩ := hreq.rate
    have hpos : 0 < feeRate := by
      have hleast : 1 ≤ service'.getMinFeeRateSatPerVbyte := by
        unfold getMinFeeRateSatPerVbyte
        split_ifs <;> norm_num
      omega
    refine validateFee_of_exact hestimate hpos ⟨hmin, hmax⟩ ?_
    -- with a change output the fee is that of the transaction itself
    obtain ⟨script, receiver, change, -, -, hvout, ⟨rfl, -⟩ | ⟨value, -, hgetFee⟩⟩ :=
      hsingle.outputs
    · have hlength := hreq.btcChange
      rw [hvout] at hlength
      exact absurd hlength (by simp)
    · rw [hgetFee, hreq.federation.estimatePsbtSizeVb]
  have htransfers : questionTransfers question = [t] := by
    rw [questionTransfers, hreq.listed]
    rfl
  have hnodup : (require (([t].map RuneTokenToBtcTransfer.key).Nodup)
      (.validationError "Duplicate transfers") : PyResult Unit) = .ok () :=
    require_of hreq.distinct
  obtain ⟨signed, hsigned⟩ := hsign
  rw [answerSignRuneTokenToBtcTransferQuestion, validateSignRuneTokenToBtcTransferQuestion,
    htransfers]
  simp only [hnodup, validateTransfers_of_recorded hreq.recorded, ok_bind, hreq.serialized,
    hreq.federation.psbtCodec, hround, hdecipher, houtputs, hedicts, hfee, List.length_singleton,
    OrdMultisig.signPsbt, bind_eq_ok, exists_unit, require_eq_ok, pure_eq_ok]
  exact ⟨_, _, rfl, _, ⟨_, hsigned, rfl, rfl⟩, rfl⟩

end RuneBridgeService

open RuneBridgeService in
/-- **Questions about several transfers.**  The payout that was built for the listed deposits is
signed, and every alteration of its edicts or receivers refused, exactly when the question lists a
single transfer. -/
theorem multi_transfer_signed_iff_single {Hash : Type} {service service' : RuneBridgeService Hash}
    {views views' : Views Hash} {db' : Db Hash} {transfers : List RuneTokenToBtcTransfer}
    {feeRate : ℤ} {psbt : Psbt} {question : SignRuneTokenToBtcTransferQuestion}
    (hreq : MultiTransferRequest service service' views views' db' transfers feeRate psbt question)
    (hc : service.codec.Lawful)
    (hid : ∀ name response, views.ordClient.getRune name = .ok (some response) →
      0 < response.id.block)
    (hround : service.psbtCodec.fromBase64 (service.psbtCodec.toBase64 psbt) = .ok psbt)
    (hsign : ∃ signed, service'.ordMultisig.keyStoreSign psbt = .ok (psbt.inputs.length, signed)) :
    ((∃ answer, service'.answerSignRuneTokenToBtcTransferQuestion views' db' question =
        .ok answer) ∧
      ∀ text psbt', service'.psbtCodec.fromBase64 text = .ok psbt' →
        Transaction.Altered service'.codec transfers.length psbt.unsignedTx psbt'.unsignedTx →
        ∀ answer, service'.answerSignRuneTokenToBtcTransferQuestion views' db'
          { question with unsignedPsbtSerialized := text } ≠ .ok answer) ↔
      transfers.length = 1 := by
  constructor
  · rintro ⟨⟨answer, hanswer⟩, -⟩
    have hle := (pays_of_answer hreq.listed hanswer).1
    have hpos := List.length_pos_of_ne_nil hreq.nonempty
    omega
  · intro hone
    obtain ⟨t, rfl⟩ := List.length_eq_one_iff.1 hone
    obtain ⟨answer, hanswer⟩ := signed_of_single hreq hc hid hround hsign
    refine ⟨⟨answer, hanswer⟩, fun text psbt' htext haltered answer' hanswer' => ?_⟩
    obtain ⟨-, built, hbuilt, hpays⟩ := pays_of_answer hreq.listed hanswer
    have hlisted' : ({ question with unsignedPsbtSerialized := text } :
        SignRuneTokenToBtcTransferQuestion).transfers = some [t] := hreq.listed
    obtain ⟨-, signed, hsigned, hpays'⟩ := pays_of_answer hlisted' hanswer'
    rw [hreq.serialized, hreq.federation.psbtCodec, hround] at hbuilt
    obtain rfl := Except.ok.inj hbuilt
    obtain rfl : psbt' = signed := Except.ok.inj (htext.symm.trans hsigned)
    exact (hpays t rfl).not_altered (hpays' t rfl) haltered

/-! ## Examples -/

namespace ExampleNode

/-- A question that lists these transfers. -/
def listedQuestion (transfers : List RuneTokenToBtcTransfer) : SignRuneTokenToBtcTransferQuestion :=
  { payoutQuestion "" with transfers := some transfers }

/-- A second event of the same transaction, for another receiver. -/
def secondTransfer : RuneTokenToBtcTransfer :=
  { transfer with receiverAddress := "friend", eventLogIndex := 1 }

def twoDepositsDb : Db Bytes :=
  db.setRuneTokenDeposit secondTransfer.key
    { tokenDeposit with receiverBtcAddress := "friend" }

/-- The payout of both from the two outputs of the wallet, with the change that is left. -/
def doublePayout : Psbt :=
  { payout 1 with
    unsignedTx :=
      { (payout 1).unsignedTx with
        vout :=
          [⟨0, UnaryCodec.OP_RETURN :: UnaryCodec.encode
            ⟨[⟨ExampleWallet.runeId, 3, 2⟩, ⟨ExampleWallet.runeId, 3, 3⟩], none, none, some 1⟩⟩,
          ⟨10000, ExampleWallet.ms.changeScriptPubkey⟩,
          ⟨10000, 0 :: Packed.ascii "user"⟩,
          ⟨10000, 0 :: Packed.ascii "friend"⟩,
          ⟨79769, ExampleWallet.ms.changeScriptPubkey⟩] } }

lemma runeFromStr_transfer : runeFromStr transfer.runeName = .ok ExampleWallet.rune :=
  runeFromStr_name ExampleWallet.rune

lemma requests {t : RuneTokenToBtcTransfer} (hrune : t.runeName = "A")
    (hamount : t.netRuneAmount = 3) :
    t.Requests ⟨ExampleWallet.rune, t.receiverAddress, 3, TARGET_POSTAGE_SAT⟩ where
  rune := by
    rw [hrune]
    exact runeFromStr_transfer
  receiver := rfl
  amount := hamount.symm
  postage := rfl

lemma getRune_of_runeFromStr {name : String} (hname : name = "A") {rune : Rune}
    (h : runeFromStr name = .ok rune) :
    (views ['4']).ordClient.getRune name = (views ['4']).ordClient.getRune rune.name := by
  rw [hname] at h ⊢
  obtain rfl : ExampleWallet.rune = rune := Except.ok.inj (runeFromStr_transfer.symm.trans h)
  rfl

lemma singleRequest :
    MultiTransferRequest (service '4' [builtPayout]) (service '4' [builtPayout]) (views ['4'])
      (views ['4']) db [transfer] 1 builtPayout (listedQuestion [transfer]) where
  federation := sameFederation _
  nonempty := by simp
  distinct := by simp
  recorded t ht := by
    obtain rfl : t = transfer := by simpa using ht
    exact ⟨⟨tokenDeposit, rfl, rfl, rfl, rfl, rfl⟩, ExampleWallet.rune, runeFromStr_transfer, rfl⟩
  built := ⟨_, 200, .cons (requests rfl rfl) .nil, by decide +kernel⟩
  btcChange := rfl
  listed := rfl
  serialized := by decide +kernel
  asked := rfl
  rate := ⟨1, rfl, by decide⟩
  ord t ht rune hrune := by
    obtain rfl : t = transfer := by simpa using ht
    exact getRune_of_runeFromStr rfl hrune

lemma doubleRequest :
    MultiTransferRequest (service '4' [doublePayout]) (service '4' [doublePayout]) (views ['4'])
      (views ['4']) twoDepositsDb [transfer, secondTransfer] 1 doublePayout
      (listedQuestion [transfer, secondTransfer]) where
  federation := sameFederation _
  nonempty := by simp
  distinct := by decide
  recorded t ht := by
    rcases List.mem_cons.1 ht with rfl | ht
    · exact ⟨⟨tokenDeposit, rfl, rfl, rfl, rfl, rfl⟩, ExampleWallet.rune, runeFromStr_transfer, rfl⟩
    · obtain rfl : t = secondTransfer := by simpa using ht
      exact ⟨⟨_, rfl, rfl, rfl, rfl, rfl⟩, ExampleWallet.rune, runeFromStr_transfer, rfl⟩
  built := ⟨_, 200, .cons (requests rfl rfl) (.cons (requests rfl rfl) .nil), by decide +kernel⟩
  btcChange := rfl
  listed := rfl
  serialized := by decide +kernel
  asked := rfl
  rate := ⟨1, rfl, by decide⟩
  ord t ht rune hrune := by
    rcases List.mem_cons.1 ht with rfl | ht
    · exact getRune_of_runeFromStr rfl hrune
    · obtain rfl : t = secondTransfer := by simpa using ht
      exact getRune_of_runeFromStr rfl hrune

end ExampleNode

/-- The question that lists the one deposit of the example is signed. -/
theorem multi_transfer_signed_iff_single_example :
    ∃ answer, (ExampleNode.service '4' [ExampleNode.builtPayout]
      ).answerSignRuneTokenToBtcTransferQuestion (ExampleNode.views ['4']) ExampleNode.db
        (ExampleNode.listedQuestion [ExampleNode.transfer]) = .ok answer := by
  have hid : ∀ name response,
      (ExampleNode.views ['4']).ordClient.getRune name = .ok (some response) →
        0 < response.id.block := by
    intro name response h
    have hsome : (if name = "A" then some ExampleWallet.runeResponse else none) =
        some response := Except.ok.inj h
    split at hsome
    · rw [← Option.some.inj hsome]
      decide
    · exact absurd hsome (by simp)
  exact ((multi_transfer_signed_iff_single ExampleNode.singleRequest UnaryCodec.codec_lawful hid rfl
    ⟨_, rfl⟩).2 rfl).1

/-- **A question about two transfers is refused.**  Its transaction pays both deposits, which the
node has as accepted, but the second is compared with the edict of the first. -/
theorem double_payout_refused :
    let service := ExampleNode.service '4' [ExampleNode.doublePayout]
    MultiTransferRequest service service (ExampleNode.views ['4']) (ExampleNode.views ['4'])
        ExampleNode.twoDepositsDb [ExampleNode.transfer, ExampleNode.secondTransfer] 1
        ExampleNode.doublePayout
        (ExampleNode.listedQuestion [ExampleNode.transfer, ExampleNode.secondTransfer]) ∧
      service.answerSignRuneTokenToBtcTransferQuestion (ExampleNode.views ['4'])
        ExampleNode.twoDepositsDb
        (ExampleNode.listedQuestion [ExampleNode.transfer, ExampleNode.secondTransfer]) =
          .error (.validationError "Unexpected output of edict") :=
  ⟨ExampleNode.doubleRequest, by decide +kernel⟩

end NbteBridge
