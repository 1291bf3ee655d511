import NbteBridge.Foundations.Lists
import NbteBridge.Node.Answers
import NbteBridge.Node.Reference
import NbteBridge.Ord.Conservation

/-!
# What a signed payout does with runes

A peer signs the leader's transaction after comparing its outputs and its runestone with its own
rows.  This module settles the signed transaction under the Runes protocol and says exactly when
the receivers get their runes and the multisig keeps the rest.  The check compares the first edict
only, so it passes questions of at most one transfer (`acceptedPayout_of_answer`).  It looks
neither at the runestone's pointer nor at the runes of the inputs, and these are the whole
condition.
-/

namespace NbteBridge

open Checked

/-! ## What a payout is meant to do -/

/-- The id of the rune a transfer names. -/
def RuneTokenToBtcTransfer.runeId (idOf : Rune → Runes.RuneId) (t : RuneTokenToBtcTransfer) :
    Option Runes.RuneId :=
  match runeFromStr t.runeName with
  | .ok r => some (idOf r)
  | .error _ => none

/-- What transfers pay out of each rune. -/
def owedRunes (idOf : Rune → Runes.RuneId) (transfers : List RuneTokenToBtcTransfer) :
    Runes.Balances :=
  fun id => (transfers.map fun t => if t.runeId idOf = some id then t.netRuneAmount.toNat else 0).sum

namespace Transaction

variable (codec : Codec) (chain : Chain) (tx : Transaction)

/-- The outputs that pay the change script, those of the receivers apart. -/
def changeOutputs (changeScript : Script) (numTransfers : ℕ) : List ℕ :=
  (List.range tx.vout.length).filter fun o =>
    ¬ (2 ≤ o ∧ o < 2 + numTransfers) ∧ tx.scripts[o]? = some changeScript

/-- The runes of the inputs with what the transaction issues. -/
def heldRunes (i : Runes.Issuance) : Runes.Balances :=
  match codec.decipher tx.scripts with
  | some (.runestone r) => r.held i (tx.inputRunes chain)
  | _ => tx.inputRunes chain

/-- The output that gets what no edict moves. -/
def defaultOutput : Option ℕ :=
  match codec.decipher tx.scripts with
  | some (.runestone r) => Runes.defaultOutput (tx.scripts.map codec.isOpReturn) r.pointer
  | _ => Runes.defaultOutput (tx.scripts.map codec.isOpReturn) none

end Transaction

section Meaning

variable (idOf : Rune → Runes.RuneId) (codec : Codec) (chain : Chain) (i : Runes.Issuance)
  (changeScript : Script) (tx : Transaction) (transfers : List RuneTokenToBtcTransfer)

/-- The receivers get exactly their transfers, and what the inputs hold beyond them goes to the
change outputs. -/
structure SoundPayout : Prop where
  receiver : ∀ k t, transfers[k]? = some t → ∀ id, (tx.settle codec chain i).outputs (2 + k) id =
    if t.runeId idOf = some id then t.netRuneAmount.toNat else 0
  change : ∀ id, tx.inputRunes chain id - owedRunes idOf transfers id ≤
    ((tx.changeOutputs changeScript transfers.length).map fun o =>
      (tx.settle codec chain i).outputs o id).sum

/-- The inputs, with what the transaction issues, hold the amounts to be paid (and none of a rune
whose amount is zero, which asks for everything), and the default output is a change output, or
nothing is left for it. -/
structure CoveredPayout : Prop where
  funded : ∀ t ∈ transfers, ∀ id, t.runeId idOf = some id →
    t.netRuneAmount.toNat ≤ tx.heldRunes codec chain i id ∧
      (t.netRuneAmount = 0 → tx.heldRunes codec chain i id = 0)
  routed : ∀ o, tx.defaultOutput codec = some o →
    o ∉ tx.changeOutputs changeScript transfers.length → ∀ id,
      (if o = 0 then tx.inputRunes chain id else tx.heldRunes codec chain i id) ≤
        owedRunes idOf transfers id

end Meaning

/-- `ord` answers a name, with or without spacers, with the id of its rune. -/
structure OrdApiClient.Resolves (ord : OrdApiClient) (idOf : Rune → Runes.RuneId) : Prop where
  block_pos : ∀ r, 0 < (idOf r).block
  getRune : ∀ name r response, runeFromStr name = .ok r → ord.getRune name = .ok (some response) →
    response.id = idOf r

/-! ## What the check accepts -/

/-- The one transfer, its edict and its output. -/
structure AcceptedTransfer (idOf : Rune → Runes.RuneId) (codec : Codec) (tx : Transaction)
    (t : RuneTokenToBtcTransfer) (e : Runes.Edict) : Prop where
  amount : (e.amount : ℤ) = t.netRuneAmount
  runeId : t.runeId idOf = some e.id
  output : e.output = 2
  script : ∃ script, codec.addressScript t.receiverAddress = .ok script ∧
    tx.scripts[2]? = some script

/-- A transaction the check accepts. -/
structure AcceptedPayout (idOf : Rune → Runes.RuneId) (codec : Codec) (changeScript : Script)
    (tx : Transaction) (r : Runes.Runestone) (transfers : List RuneTokenToBtcTransfer) : Prop where
  decipher : codec.decipher tx.scripts = some (.runestone r)
  length : tx.vout.length = transfers.length + 2 ∨ tx.vout.length = transfers.length + 3
  runestone : ∃ script, codec.encipher r = .ok script ∧ tx.scripts[0]? = some script
  runeChange : tx.scripts[1]? = some changeScript
  btcChange : tx.vout.length = transfers.length + 3 →
    tx.scripts[transfers.length + 2]? = some changeScript
  edicts : (transfers = [] ∧ r.edicts = []) ∨
    ∃ t e, transfers = [t] ∧ r.edicts = [e] ∧ AcceptedTransfer idOf codec tx t e

namespace RuneBridgeService

variable {Hash : Type} {service : RuneBridgeService Hash} {views : Views Hash} {db : Db Hash}
  {idOf : Rune → Runes.RuneId} {tx : Transaction} {r : Runes.Runestone}

lemma getElem?_scripts {tx : Transaction} {o : ℕ} {out : TxOut} (h : tx.vout[o]? = some out) :
    tx.scripts[o]? = some out.scriptPubKey := by
  rw [Transaction.scripts, List.getElem?_map, h]
  rfl

lemma validateEdict_ok (hord : views.ordClient.Resolves idOf) {k : ℕ} {rune : Rune}
    {t : RuneTokenToBtcTransfer} (hrune : runeFromStr t.runeName = .ok rune)
    (h : service.validateEdict views tx r k t = .ok ()) :
    ∃ e, r.edicts[0]? = some e ∧ (e.amount : ℤ) = t.netRuneAmount ∧ t.runeId idOf = some e.id ∧
      e.output = k ∧ ∃ script, service.codec.addressScript t.receiverAddress = .ok script ∧
        tx.scripts[k]? = some script := by
  simp only [validateEdict, bind_eq_ok, exists_unit, require_eq_ok, orError_eq_ok] at h
  obtain ⟨response?, hresponse, response, rfl, e, he, hamount, hid, houtput, out, hout, -, script,
    hscript, heq⟩ := h
  refine ⟨e, he, hamount, ?_, houtput, script, hscript, ?_⟩
  · rw [hid, hord.getRune _ _ _ hrune hresponse, RuneTokenToBtcTransfer.runeId, hrune]
  · rw [getElem?_scripts hout, heq]

lemma runeFromStr_of_validateTransfers {transfers : List RuneTokenToBtcTransfer}
    (h : validateTransfers db transfers = .ok ()) :
    ∀ t ∈ transfers, ∃ rune, runeFromStr t.runeName = .ok rune := by
  induction transfers with
  | nil => simp
  | cons t transfers ih =>
      simp only [validateTransfers, validateTransfer, bind_eq_ok, exists_unit] at h
      obtain ⟨⟨deposit, -, -, -, -, rune, hrune, -⟩, hrest⟩ := h
      intro t' ht'
      rcases List.mem_cons.1 ht' with rfl | ht'
      · exact ⟨rune, hrune⟩
      · exact ih hrest t' ht'

/-- Every transfer is compared with the first edict, whose output is one output. -/
lemma edicts_of_validateEdicts (hord : views.ordClient.Resolves idOf)
    {transfers : List RuneTokenToBtcTransfer}
    (hrunes : ∀ t ∈ transfers, ∃ rune, runeFromStr t.runeName = .ok rune)
    (hlength : r.edicts.length = transfers.length)
    (h : service.validateEdicts views tx r 2 transfers = .ok ()) :
    (transfers = [] ∧ r.edicts = []) ∨
      ∃ t e, transfers = [t] ∧ r.edicts = [e] ∧ AcceptedTransfer idOf service.codec tx t e := by
  match transfers, hrunes, hlength, h with
  | [], _, hlength, _ =>
      left
      exact ⟨rfl, List.length_eq_zero_iff.1 hlength⟩
  | [t], hrunes, hlength, h =>
      right
      obtain ⟨rune, hrune⟩ := hrunes t (by simp)
      simp only [validateEdicts, bind_eq_ok, exists_unit] at h
      obtain ⟨e, he, hamount, hid, houtput, hscript⟩ := validateEdict_ok hord hrune h.1
      obtain ⟨e', he'⟩ := List.length_eq_one_iff.1 hlength
      obtain rfl : e' = e := by simpa [he'] using he
      exact ⟨t, e', rfl, he', hamount, hid, houtput, hscript⟩
  | t :: t' :: rest, hrunes, _, h =>
      exfalso
      obtain ⟨rune, hrune⟩ := hrunes t (by simp)
      obtain ⟨rune', hrune'⟩ := hrunes t' (by simp)
      simp only [validateEdicts, bind_eq_ok, exists_unit] at h
      obtain ⟨e, he, -, -, houtput, -⟩ := validateEdict_ok hord hrune h.1
      obtain ⟨e', he', -, -, houtput', -⟩ := validateEdict_ok hord hrune' h.2.1
      obtain rfl : e = e' := Option.some.inj (he.symm.trans he')
      omega

/-- **What a signature vouches for**: the outputs of the runestone and of the change, and a single
edict for a single transfer. -/
theorem acceptedPayout_of_answer (hord : views.ordClient.Resolves idOf)
    {message : SignRuneTokenToBtcTransferQuestion} {answer : SignRuneTokenToBtcTransferAnswer}
    (h : service.answerSignRuneTokenToBtcTransferQuestion views db message = .ok answer) :
    ∃ psbt, service.psbtCodec.fromBase64 message.unsignedPsbtSerialized = .ok psbt ∧
      ∃ r, AcceptedPayout idOf service.codec service.ordMultisig.changeScriptPubkey
        psbt.unsignedTx r (questionTransfers message) := by
  obtain ⟨psbt, hchecked, -⟩ := answerSign_eq_ok.1 h
  obtain ⟨-, htransfers, hpsbt, r, hr, houtputs, hedicts, -⟩ := validateSign_eq_ok.1 hchecked
  simp only [validateOutputs, bind_eq_ok, exists_unit, require_eq_ok, orError_eq_ok] at houtputs
  obtain ⟨hlength, out0, hout0, out1, hout1, -, script, hscript, hscript0, -, hscript1, hlast,
    hedictsLength⟩ := houtputs
  refine ⟨psbt, hpsbt, r, hr, hlength, ⟨script, hscript, ?_⟩, ?_, fun hthree => ?_, ?_⟩
  · rw [getElem?_scripts hout0, hscript0]
  · rw [getElem?_scripts hout1, hscript1]
  · rw [validateChangeOutput, if_pos hthree] at hlast
    simp only [bind_eq_ok, require_eq_ok, orError_eq_ok] at hlast
    obtain ⟨last, hlast, hscript⟩ := hlast
    rw [getElem?_scripts hlast, hscript]
  · exact edicts_of_validateEdicts hord (runeFromStr_of_validateTransfers htransfers)
      hedictsLength hedicts

/-- The signature is over the transaction of the question. -/
lemma signed_of_answer {message : SignRuneTokenToBtcTransferQuestion}
    {answer : SignRuneTokenToBtcTransferAnswer} {psbt : Psbt}
    (h : service.answerSignRuneTokenToBtcTransferQuestion views db message = .ok answer)
    (hpsbt : service.psbtCodec.fromBase64 message.unsignedPsbtSerialized = .ok psbt) :
    ∃ signed, service.ordMultisig.signPsbt psbt = .ok signed ∧
      answer.signedPsbtSerialized = service.psbtCodec.toBase64 signed := by
  obtain ⟨psbt', hvalid, signed, hsigned, rfl⟩ := answerSign_eq_ok.1 h
  obtain ⟨-, -, hpsbt', -⟩ := validateSign_eq_ok.1 hvalid
  obtain rfl : psbt = psbt' := Except.ok.inj (hpsbt.symm.trans hpsbt')
  exact ⟨signed, hsigned, rfl⟩

end RuneBridgeService

/-! ## Its settlement -/

namespace AcceptedPayout

variable {idOf : Rune → Runes.RuneId} {codec : Codec} {chain : Chain} {i : Runes.Issuance}
  {changeScript : Script} {tx : Transaction} {r : Runes.Runestone}
  {transfers : List RuneTokenToBtcTransfer}

/-- What the edicts move. -/
def paidRunes (codec : Codec) (chain : Chain) (i : Runes.Issuance) (tx : Transaction)
    (r : Runes.Runestone) : Runes.Balances :=
  fun id => (r.edicts.map fun e => e.paid (tx.heldRunes codec chain i) id).sum

lemma length_le (h : AcceptedPayout idOf codec changeScript tx r transfers) :
    transfers.length ≤ 1 := by
  rcases h.edicts with ⟨rfl, -⟩ | ⟨t, e, rfl, -⟩ <;> simp

lemma length_scripts (tx : Transaction) : tx.scripts.length = tx.vout.length :=
  List.length_map _

/-- Only output 0 is an `OP_RETURN`. -/
lemma isOpReturn_iff (h : AcceptedPayout idOf codec changeScript tx r transfers)
    (hc : codec.Lawful) (hchange : codec.isOpReturn changeScript = false) (o : ℕ) :
    (tx.scripts.map codec.isOpReturn)[o]? = some false ↔ 0 < o ∧ o < tx.vout.length := by
  rw [List.getElem?_map]
  constructor
  · intro hfalse
    obtain ⟨script, hscript, hflag⟩ := Option.map_eq_some_iff.1 hfalse
    refine ⟨Nat.pos_of_ne_zero fun hzero => ?_, ?_⟩
    · obtain ⟨script', hencipher, hscript'⟩ := h.runestone
      rw [hzero, hscript'] at hscript
      rw [← Option.some.inj hscript, hc.isOpReturn_encipher _ _ hencipher] at hflag
      exact absurd hflag (by simp)
    · rw [← length_scripts]
      exact (List.getElem?_eq_some_iff.1 hscript).1
  · rintro ⟨hpos, hlt⟩
    have hone : tx.scripts[1]?.map codec.isOpReturn = some false := by
      rw [h.runeChange, Option.map_some, hchange]
    have htwo (hthree : 2 < tx.vout.length) :
        tx.scripts[2]?.map codec.isOpReturn = some false := by
      rcases h.edicts with ⟨rfl, -⟩ | ⟨t, e, rfl, -, he⟩
      · have hlen := h.length
        rw [List.length_nil] at hlen
        have hscript : tx.scripts[2]? = some changeScript :=
          h.btcChange (by rw [List.length_nil]; omega)
        rw [hscript, Option.map_some, hchange]
      · obtain ⟨script, haddress, hscript⟩ := he.script
        rw [hscript, Option.map_some, hc.isOpReturn_addressScript _ _ haddress]
    have hthree (hfour : 3 < tx.vout.length) :
        tx.scripts[3]?.map codec.isOpReturn = some false := by
      have hlen := h.length
      have hle := h.length_le
      have hlast : transfers.length + 2 = 3 := by omega
      rw [← hlast, h.btcChange (by omega), Option.map_some, hchange]
    have hlen := h.length
    have hle := h.length_le
    have ho : o = 1 ∨ o = 2 ∨ o = 3 := by omega
    rcases ho with rfl | rfl | rfl
    · exact hone
    · exact htwo hlt
    · exact hthree hlt

/-- There is a default output. -/
lemma exists_defaultOutput (h : AcceptedPayout idOf codec changeScript tx r transfers)
    (hc : codec.Lawful) (hchange : codec.isOpReturn changeScript = false) :
    ∃ d, tx.defaultOutput codec = some d ∧ d < tx.vout.length := by
  have hdefault : tx.defaultOutput codec =
      Runes.defaultOutput (tx.scripts.map codec.isOpReturn) r.pointer := by
    rw [Transaction.defaultOutput, h.decipher]
  cases hp : r.pointer with
  | some p =>
      refine ⟨p, by rw [hdefault, hp]; rfl, ?_⟩
      rw [← length_scripts]
      exact (hc.decipher_encodable _ _ h.decipher).pointer_lt p hp
  | none =>
      have hlen := h.length
      have hone : 1 ∈ Runes.destinations (tx.scripts.map codec.isOpReturn) := by
        rw [Runes.destinations, List.mem_filter, List.mem_range, List.length_map, length_scripts,
          decide_eq_true_iff, h.isOpReturn_iff hc hchange]
        omega
      obtain ⟨d, hd⟩ := Option.ne_none_iff_exists'.1 fun hnone =>
        List.ne_nil_of_mem hone (List.head?_eq_none_iff.1 hnone)
      refine ⟨d, by rw [hdefault, hp]; exact hd, ?_⟩
      have hmem := List.mem_of_head? hd
      rw [Runes.destinations, List.mem_filter, List.mem_range, List.length_map,
        length_scripts] at hmem
      exact hmem.1

/-- **Where the runes go**: what the edict moves to output 2, the rest to the default output. -/
theorem outputs_settle (h : AcceptedPayout idOf codec changeScript tx r transfers)
    (hc : codec.Lawful) (hchange : codec.isOpReturn changeScript = false)
    (hblock : ∀ rune, 0 < (idOf rune).block) {d : ℕ} (hd : tx.defaultOutput codec = some d)
    (o : ℕ) (id : Runes.RuneId) :
    (tx.settle codec chain i).outputs o id =
      if 0 < o ∧ o < tx.vout.length then
        (if o = 2 then paidRunes codec chain i tx r id else 0) +
          if d = o then tx.heldRunes codec chain i id - paidRunes codec chain i tx r id else 0
      else 0 := by
  have hdefault : Runes.defaultOutput (tx.scripts.map codec.isOpReturn) r.pointer = some d := by
    rw [← hd, Transaction.defaultOutput, h.decipher]
  have hheld : tx.heldRunes codec chain i = r.held i (tx.inputRunes chain) := by
    rw [Transaction.heldRunes, h.decipher]
  have hflag : (tx.scripts.map codec.isOpReturn)[o]? = some false ↔
      0 < o ∧ o < tx.vout.length := h.isOpReturn_iff hc hchange o
  rw [Transaction.settle, h.decipher]
  rcases h.edicts with ⟨-, hnil⟩ | ⟨t, e, rfl, hsingle, he⟩
  · rw [Runes.outputs_settle_of_nil hnil, hdefault, hheld, paidRunes, hnil]
    simp only [hflag, Option.some.injEq, List.map_nil, List.sum_nil, ite_self, zero_add,
      Nat.sub_zero]
  · have hid : e.id ≠ .etched := by
      have hname := he.runeId
      unfold RuneTokenToBtcTransfer.runeId at hname
      split at hname
      · rename_i rune _
        intro hetched
        have hpos := hblock rune
        rw [Option.some.inj hname, hetched] at hpos
        exact absurd hpos (by decide)
      · exact absurd hname (by simp)
    have houtput : e.output < (tx.scripts.map codec.isOpReturn).length := by
      have hlen := h.length
      rw [List.length_map, length_scripts, he.output]
      simp only [List.length_singleton] at hlen
      omega
    rw [Runes.outputs_settle_of_single hsingle hid houtput, hdefault, he.output]
    simp only [hflag, Option.some.injEq, paidRunes, hsingle, hheld, List.map_cons, List.map_nil,
      List.sum_cons, List.sum_nil, add_zero, eq_comm]

/-! ## When it is what it is meant to be -/

lemma inputRunes_le_heldRunes (codec : Codec) (chain : Chain) (i : Runes.Issuance)
    (tx : Transaction) (id : Runes.RuneId) :
    tx.inputRunes chain id ≤ tx.heldRunes codec chain i id := by
  have hheld (r : Runes.Runestone) : tx.inputRunes chain id ≤ r.held i (tx.inputRunes chain) id := by
    rw [Runes.Runestone.held]
    omega
  unfold Transaction.heldRunes
  rcases codec.decipher tx.scripts with _ | r | _
  · exact le_rfl
  · exact hheld r
  · exact le_rfl

variable (chain i)

/-- What is moved is held. -/
lemma paidRunes_le (h : AcceptedPayout idOf codec changeScript tx r transfers)
    (id : Runes.RuneId) :
    paidRunes codec chain i tx r id ≤ tx.heldRunes codec chain i id := by
  rcases h.edicts with ⟨-, hnil⟩ | ⟨t, e, -, hsingle, -⟩
  · simp [paidRunes, hnil]
  · simpa [paidRunes, hsingle] using e.paid_le (tx.heldRunes codec chain i) id

/-- The edict moves what is owed exactly when the inputs hold it. -/
lemma paidRunes_eq_owedRunes_iff (h : AcceptedPayout idOf codec changeScript tx r transfers) :
    (∀ id, paidRunes codec chain i tx r id = owedRunes idOf transfers id) ↔
      ∀ t ∈ transfers, ∀ id, t.runeId idOf = some id →
        t.netRuneAmount.toNat ≤ tx.heldRunes codec chain i id ∧
          (t.netRuneAmount = 0 → tx.heldRunes codec chain i id = 0) := by
  rcases h.edicts with ⟨rfl, hnil⟩ | ⟨t, e, rfl, hsingle, he⟩
  · simp [paidRunes, hnil, owedRunes]
  · have hamount := he.amount
    have hnat : t.netRuneAmount.toNat = e.amount := by omega
    have howed (id : Runes.RuneId) :
        owedRunes idOf [t] id = if e.id = id then e.amount else 0 := by
      simp [owedRunes, he.runeId, hnat]
    have hpaid (id : Runes.RuneId) :
        paidRunes codec chain i tx r id = e.paid (tx.heldRunes codec chain i) id := by
      simp [paidRunes, hsingle]
    constructor
    · intro heq t' ht' id hid
      obtain rfl : t' = t := by simpa using ht'
      obtain rfl : e.id = id := Option.some.inj (he.runeId.symm.trans hid)
      have h1 := heq e.id
      rw [hpaid, howed, if_pos rfl, Runes.Edict.paid, if_pos rfl] at h1
      rw [hnat]
      by_cases hzero : e.amount = 0
      · rw [if_pos hzero] at h1
        omega
      · rw [if_neg hzero] at h1
        omega
    · intro hfunded id
      rw [hpaid, howed, Runes.Edict.paid]
      by_cases hid : e.id = id
      · obtain ⟨hle, hzero⟩ := hfunded t (by simp) e.id he.runeId
        rw [hnat] at hle
        rw [if_pos hid, if_pos hid, ← hid]
        by_cases h0 : e.amount = 0
        · rw [if_pos h0, hzero (by omega), h0]
        · rw [if_neg h0, min_eq_left hle]
      · rw [if_neg hid, if_neg hid]

lemma mem_changeOutputs {n o : ℕ} :
    o ∈ tx.changeOutputs changeScript n ↔
      o < tx.vout.length ∧ ¬ (2 ≤ o ∧ o < 2 + n) ∧ tx.scripts[o]? = some changeScript := by
  rw [Transaction.changeOutputs, List.mem_filter, List.mem_range, decide_eq_true_iff]

/-- The runestone and the receiver apart, every output is a change output. -/
lemma eq_of_notMem_changeOutputs (h : AcceptedPayout idOf codec changeScript tx r transfers)
    {o : ℕ} (ho : o < tx.vout.length)
    (hnot : o ∉ tx.changeOutputs changeScript transfers.length) :
    o = 0 ∨ (transfers.length = 1 ∧ o = 2) := by
  by_contra hother
  refine hnot (mem_changeOutputs.2 ⟨ho, ?_, ?_⟩)
  · have hle := h.length_le
    omega
  · have hlen := h.length
    have hle := h.length_le
    by_cases hone : o = 1
    · rw [hone, h.runeChange]
    · have hlast : o = transfers.length + 2 := by omega
      rw [hlast]
      exact h.btcChange (by omega)

lemma pos_of_mem_changeOutputs (h : AcceptedPayout idOf codec changeScript tx r transfers)
    (hc : codec.Lawful) (hchange : codec.isOpReturn changeScript = false) {n o : ℕ}
    (ho : o ∈ tx.changeOutputs changeScript n) : 0 < o := by
  obtain ⟨-, -, hscript⟩ := mem_changeOutputs.1 ho
  refine Nat.pos_of_ne_zero fun hzero => ?_
  obtain ⟨script, hencipher, hscript'⟩ := h.runestone
  rw [hzero, hscript'] at hscript
  have hflag := hc.isOpReturn_encipher _ _ hencipher
  rw [Option.some.inj hscript, hchange] at hflag
  exact absurd hflag (by simp)

/-- The change outputs get all that is not moved, if the default output is one of them. -/
lemma sum_changeOutputs (h : AcceptedPayout idOf codec changeScript tx r transfers)
    (hc : codec.Lawful) (hchange : codec.isOpReturn changeScript = false)
    (hblock : ∀ rune, 0 < (idOf rune).block) {d : ℕ} (hd : tx.defaultOutput codec = some d)
    (id : Runes.RuneId) :
    ((tx.changeOutputs changeScript transfers.length).map fun o =>
      (tx.settle codec chain i).outputs o id).sum =
      if d ∈ tx.changeOutputs changeScript transfers.length then
        tx.heldRunes codec chain i id - paidRunes codec chain i tx r id else 0 := by
  have hoff (o : ℕ) (ho : o ∈ tx.changeOutputs changeScript transfers.length) :
      (tx.settle codec chain i).outputs o id =
        if d = o then tx.heldRunes codec chain i id - paidRunes codec chain i tx r id else 0 := by
    have hpos := h.pos_of_mem_changeOutputs hc hchange ho
    obtain ⟨hlt, hreceiver, -⟩ := mem_changeOutputs.1 ho
    have hmoved : (if o = 2 then paidRunes codec chain i tx r id else 0) = 0 := by
      rcases h.edicts with ⟨-, hnil⟩ | ⟨t, e, rfl, -, -⟩
      · simp [paidRunes, hnil]
      · rw [List.length_singleton] at hreceiver
        exact if_neg (by omega)
    rw [h.outputs_settle hc hchange hblock hd, if_pos ⟨hpos, hlt⟩, hmoved, zero_add]
  have hnodup : (tx.changeOutputs changeScript transfers.length).Nodup :=
    List.nodup_range.filter _
  rw [List.map_congr_left hoff, Lists.sum_map_ite_eq_of_nodup hnodup]

lemma length_eq_one (h : AcceptedPayout idOf codec changeScript tx r transfers)
    {t : RuneTokenToBtcTransfer} (ht : t ∈ transfers) : transfers.length = 1 := by
  have hle := h.length_le
  have hpos := List.length_pos_of_mem ht
  omega

/-- A single transfer is owed its amount. -/
lemma owedRunes_of_mem (hle : transfers.length ≤ 1) {t : RuneTokenToBtcTransfer}
    (ht : t ∈ transfers) {id : Runes.RuneId} (hid : t.runeId idOf = some id) :
    owedRunes idOf transfers id = t.netRuneAmount.toNat := by
  have hpos := List.length_pos_of_mem ht
  obtain ⟨t', rfl⟩ := List.length_eq_one_iff.1 (show transfers.length = 1 by omega)
  obtain rfl : t = t' := by simpa using ht
  simp [owedRunes, hid]

/-- The receiver's output gets what is moved, and the rest too if it is the default output. -/
lemma receiver_iff (h : AcceptedPayout idOf codec changeScript tx r transfers)
    (hc : codec.Lawful) (hchange : codec.isOpReturn changeScript = false)
    (hblock : ∀ rune, 0 < (idOf rune).block) {d : ℕ} (hd : tx.defaultOutput codec = some d) :
    (∀ k t, transfers[k]? = some t → ∀ id, (tx.settle codec chain i).outputs (2 + k) id =
      if t.runeId idOf = some id then t.netRuneAmount.toNat else 0) ↔
    (transfers.length = 1 → ∀ id, paidRunes codec chain i tx r id +
      (if d = 2 then tx.heldRunes codec chain i id - paidRunes codec chain i tx r id else 0) =
        owedRunes idOf transfers id) := by
  rcases h.edicts with ⟨rfl, -⟩ | ⟨t, e, rfl, hsingle, he⟩
  · simp
  · have hlen := h.length
    rw [List.length_singleton] at hlen
    have htwo (id : Runes.RuneId) : (tx.settle codec chain i).outputs 2 id =
        paidRunes codec chain i tx r id +
          if d = 2 then tx.heldRunes codec chain i id - paidRunes codec chain i tx r id
            else 0 := by
      rw [h.outputs_settle hc hchange hblock hd, if_pos (by omega), if_pos rfl]
    have howed (id : Runes.RuneId) :
        owedRunes idOf [t] id = if t.runeId idOf = some id then t.netRuneAmount.toNat else 0 := by
      simp [owedRunes]
    constructor
    · intro hall _ id
      rw [← htwo, howed]
      exact hall 0 t rfl id
    · intro hall k t' hk id
      obtain ⟨rfl, rfl⟩ : k = 0 ∧ t = t' := by
        cases k with
        | zero => exact ⟨rfl, by simpa using hk⟩
        | succ k => simp at hk
      rw [add_zero, htwo, hall rfl, howed]

/-- A transaction the check accepts does what it is meant to do exactly when its inputs cover the
payout and its default output is the multisig's. -/
theorem sound_iff_covered (h : AcceptedPayout idOf codec changeScript tx r transfers)
    (hc : codec.Lawful) (hchange : codec.isOpReturn changeScript = false)
    (hblock : ∀ rune, 0 < (idOf rune).block) :
    SoundPayout idOf codec chain i changeScript tx transfers ↔
      CoveredPayout idOf codec chain i changeScript tx transfers := by
  obtain ⟨d, hd, hdlt⟩ := h.exists_defaultOutput hc hchange
  have hreceiver := h.receiver_iff chain i hc hchange hblock hd
  have hsum (id : Runes.RuneId) := h.sum_changeOutputs chain i hc hchange hblock hd id
  have hpaid (id : Runes.RuneId) := h.paidRunes_le chain i id
  have hinput (id : Runes.RuneId) := inputRunes_le_heldRunes codec chain i tx id
  have hfunded := h.paidRunes_eq_owedRunes_iff chain i
  have hplace := h.eq_of_notMem_changeOutputs hdlt
  constructor
  · intro hsound
    have hout := hreceiver.1 hsound.receiver
    have hreturn (id : Runes.RuneId) := hsum id ▸ hsound.change id
    -- what is moved is what is owed, even where the receiver's output is the default one
    have hmoved : ∀ id, paidRunes codec chain i tx r id = owedRunes idOf transfers id := by
      refine hfunded.2 fun t ht id hid => ?_
      have howed := owedRunes_of_mem h.length_le ht hid
      have hone : transfers.length = 1 := h.length_eq_one ht
      have hget := hout hone id
      by_cases hd2 : d = 2
      · rw [if_pos hd2] at hget
        have hle := hpaid id
        refine ⟨by omega, fun hzero => ?_⟩
        rw [hzero, Int.toNat_zero] at howed
        omega
      · rw [if_neg hd2, add_zero] at hget
        exact hfunded.1 (fun id => by simpa [hd2] using hout hone id) t ht id hid
    refine ⟨hfunded.1 hmoved, fun o ho hnot id => ?_⟩
    obtain rfl : o = d := Option.some.inj (ho.symm.trans hd)
    rcases hplace hnot with rfl | ⟨hone, rfl⟩
    · have hle := hreturn id
      rw [if_neg hnot] at hle
      rw [if_pos rfl]
      omega
    · have hget := hout hone id
      rw [if_pos rfl, hmoved id] at hget
      rw [if_neg (by decide)]
      omega
  · intro hcovered
    have hmoved := hfunded.2 hcovered.funded
    refine ⟨hreceiver.2 fun hone id => ?_, fun id => ?_⟩
    · by_cases hd2 : d = 2
      · have hnot : d ∉ tx.changeOutputs changeScript transfers.length := fun hmem =>
          (mem_changeOutputs.1 hmem).2.1 (by omega)
        have hle := hcovered.routed d hd hnot id
        rw [if_neg (by omega)] at hle
        rw [if_pos hd2, hmoved id]
        omega
      · rw [if_neg hd2, add_zero, hmoved id]
    · rw [hsum id, hmoved id]
      by_cases hmem : d ∈ tx.changeOutputs changeScript transfers.length
      · have hle := hinput id
        rw [if_pos hmem]
        omega
      · have hle := hcovered.routed d hd hmem id
        have hin := hinput id
        rw [if_neg hmem]
        split at hle <;> omega

end AcceptedPayout

/-- **The payouts that do what they are meant to do.**  Whatever question a peer signs, the
transaction it signs pays the receivers exactly their transfers and leaves the rest with the
multisig if and only if the inputs cover the payout and the default output is a change output or
gets nothing. -/
theorem sign_payout_sound_iff_covered {Hash : Type} {service : RuneBridgeService Hash}
    {views : Views Hash} {db : Db Hash} {idOf : Rune → Runes.RuneId} (chain : Chain)
    (i : Runes.Issuance) (hc : service.codec.Lawful)
    (hchange : service.codec.isOpReturn service.ordMultisig.changeScriptPubkey = false)
    (hord : views.ordClient.Resolves idOf) {message : SignRuneTokenToBtcTransferQuestion}
    {answer : SignRuneTokenToBtcTransferAnswer}
    (h : service.answerSignRuneTokenToBtcTransferQuestion views db message = .ok answer) :
    ∃ psbt signed, service.psbtCodec.fromBase64 message.unsignedPsbtSerialized = .ok psbt ∧
      service.ordMultisig.signPsbt psbt = .ok signed ∧
      answer.signedPsbtSerialized = service.psbtCodec.toBase64 signed ∧
      (SoundPayout idOf service.codec chain i service.ordMultisig.changeScriptPubkey
          psbt.unsignedTx (RuneBridgeService.questionTransfers message) ↔
        CoveredPayout idOf service.codec chain i service.ordMultisig.changeScriptPubkey
          psbt.unsignedTx (RuneBridgeService.questionTransfers message)) := by
  obtain ⟨psbt, hpsbt, r, haccepted⟩ := RuneBridgeService.acceptedPayout_of_answer hord h
  obtain ⟨signed, hsigned, hanswer⟩ := RuneBridgeService.signed_of_answer h hpsbt
  exact ⟨psbt, signed, hpsbt, hsigned, hanswer,
    haccepted.sound_iff_covered chain i hc hchange hord.block_pos⟩

namespace ExampleNode

lemma resolves : (views ['4']).ordClient.Resolves ExampleWallet.idOf where
  block_pos := ExampleWallet.names.block_pos
  getRune _ _ _ := ExampleWallet.resolves_getRune

/-- The same payout is signed with the pointer at the change output and at the receiver's. -/
lemma answer_payout (pointer : ℕ) (hpointer : pointer = 1 ∨ pointer = 2) :
    (service '4' [payout pointer]).answerSignRuneTokenToBtcTransferQuestion (views ['4']) db
      (payoutQuestion "") = .ok ⟨"", "xpub"⟩ := by
  rcases hpointer with rfl | rfl <;> decide +kernel

end ExampleNode

theorem sign_payout_sound_iff_covered_example :
    SoundPayout ExampleWallet.idOf UnaryCodec.codec ExampleWallet.chain ⟨fun _ => 0, none⟩
        ExampleWallet.ms.changeScriptPubkey (ExampleNode.payout 1).unsignedTx
        [ExampleNode.transfer] ↔
      CoveredPayout ExampleWallet.idOf UnaryCodec.codec ExampleWallet.chain ⟨fun _ => 0, none⟩
        ExampleWallet.ms.changeScriptPubkey (ExampleNode.payout 1).unsignedTx
        [ExampleNode.transfer] := by
  obtain ⟨psbt, signed, hpsbt, -, -, h⟩ := sign_payout_sound_iff_covered ExampleWallet.chain
    ⟨fun _ => 0, none⟩ UnaryCodec.codec_lawful (by decide) ExampleNode.resolves
    (ExampleNode.answer_payout 1 (.inl rfl))
  obtain rfl : ExampleNode.payout 1 = psbt := Except.ok.inj hpsbt
  exact h

/-- **A signed payout that overpays.**  The runestone's pointer is the receiver's output, which
gets all eight units of the inputs instead of three. -/
theorem signed_payout_not_sound :
    let service := ExampleNode.service '4' [ExampleNode.payout 2]
    service.psbtCodec.fromBase64 "" = .ok (ExampleNode.payout 2) ∧
      (∃ answer, service.answerSignRuneTokenToBtcTransferQuestion (ExampleNode.views ['4'])
        ExampleNode.db (ExampleNode.payoutQuestion "") = .ok answer) ∧
      ¬ SoundPayout ExampleWallet.idOf service.codec ExampleWallet.chain ⟨fun _ => 0, none⟩
        service.ordMultisig.changeScriptPubkey (ExampleNode.payout 2).unsignedTx
        [ExampleNode.transfer] := by
  refine ⟨rfl, ⟨_, ExampleNode.answer_payout 2 (.inr rfl)⟩, fun h => ?_⟩
  have hreceived := h.receiver 0 ExampleNode.transfer rfl ExampleWallet.runeId
  have height : ((ExampleNode.payout 2).unsignedTx.settle UnaryCodec.codec ExampleWallet.chain
      ⟨fun _ => 0, none⟩).outputs 2 ExampleWallet.runeId = 8 := by decide +kernel
  have hid : ExampleNode.transfer.runeId ExampleWallet.idOf = some ExampleWallet.runeId := by
    have hrune : runeFromStr ExampleNode.transfer.runeName = .ok ExampleWallet.rune :=
      runeFromStr_name ExampleWallet.rune
    rw [RuneTokenToBtcTransfer.runeId, hrune, ← ExampleWallet.idOf_rune]
  rw [if_pos hid] at hreceived
  exact absurd (height.symm.trans hreceived) (by decide)

end NbteBridge
