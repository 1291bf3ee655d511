import NbteBridge.Bridge.Deposits

/-!
# What leaves the multisig was released

A transaction that spends the multisig's outputs carries an honest node's signature, so it pays one
event that the node has a row of, and the rest of its runes comes back as change.  No two such
transactions are for one event.  What flows out of the multisig is therefore at most what the bridge
has released, event by event.
-/

namespace NbteBridge

open Checked Coins Runs

/-! ## What a node knows of events -/

namespace RuneBridgeService

variable {Hash : Type} {service : RuneBridgeService Hash} {views : Views Hash} {db db' : Db Hash}

/-- The events of a scan are among those the EVM node shows in blocks that are deep enough. -/
lemma scanRuneTokenDeposits_shown (hdb : db.Numbered) {n : ℕ}
    (h : service.scanRuneTokenDeposits views db = .ok (n, db')) {e : RecordedEvent}
    (he : e ∈ db'.recordedEvents) :
    e ∈ db.recordedEvents ∨ ∃ head, views.evm.blockNumber = .ok head ∧ ∃ first last events event,
      last ≤ head - service.config.evmBlockSafetyMargin ∧
      views.evm.getLogs first last = .ok events ∧ event ∈ events ∧
      e = RuneTransferToBtcEvent.recorded event := by
  simp only [scanRuneTokenDeposits, bind_eq_ok] at h
  obtain ⟨head, hhead, h⟩ := h
  split at h
  · obtain ⟨-, rfl⟩ := Prod.mk.inj (pure_eq_ok.1 h)
    exact .inl he
  · rename_i hle
    simp only [bind_eq_ok, pure_eq_ok] at h
    obtain ⟨events, hevents, db₁, hindex, heq⟩ := h
    obtain ⟨-, rfl⟩ := Prod.mk.inj heq
    obtain ⟨hrows, -⟩ := indexEvents_recorded hdb hindex
    have hrecorded : e ∈ db.recordedEvents ++
        (events.mergeSort RuneTransferToBtcEvent.le).map RuneTransferToBtcEvent.recorded :=
      hrows ▸ he
    rcases List.mem_append.1 hrecorded with hold | hnew
    · exact .inl hold
    · obtain ⟨event, hevent, rfl⟩ := List.mem_map.1 hnew
      rw [EvmRpc.getEvents_eq] at hevents
      simp only [bind_eq_ok, pure_eq_ok] at hevents
      obtain ⟨parts, hparts, rfl⟩ := hevents
      obtain ⟨part, hpart, hmem⟩ := List.mem_flatten.1 (List.mem_mergeSort.1 hevent)
      obtain ⟨batch, hbatch, hlogs⟩ :=
        Lists.exists_left_of_forall₂ (forall₂_of_mapM_ok hparts) hpart
      have htiles := EvmRpc.tiles_eventBatches 100 (by norm_num) (Int.le_add_one (not_lt.1 hle))
        le_rfl
      obtain ⟨-, -, hend⟩ := htiles.le_of_mem hbatch
      exact .inr ⟨head, hhead, batch.1, batch.2, part, event, hend, hlogs, hmem, rfl⟩

/-- A transfer that is signed agrees with the node's row of its event. -/
lemma recorded_of_validateTransfers {transfers : List RuneTokenToBtcTransfer}
    (h : validateTransfers db transfers = .ok ()) {t : RuneTokenToBtcTransfer}
    (ht : t ∈ transfers) :
    ∃ e ∈ db.recordedEvents, e.key = t.key ∧ e.netRuneAmountRaw = t.netRuneAmount ∧
      ∃ rune, runeFromStr t.runeName = .ok rune ∧ rune.n = e.runeNumber := by
  induction transfers with
  | nil => cases ht
  | cons t' transfers ih =>
      simp only [validateTransfers, validateTransfer, bind_eq_ok, exists_unit, orError_eq_ok,
        require_eq_ok] at h
      obtain ⟨⟨row, hrow, -, -, hamount, rune, hrune, hn, -⟩, hrest⟩ := h
      rcases List.mem_cons.1 ht with rfl | ht
      · refine ⟨RuneTokenDeposit.recorded (t.key, row),
          List.mem_map_of_mem (Tables.Table.mem_of_get? hrow), rfl, hamount, rune, hrune, hn.symm⟩
      · exact ih hrest ht

lemma recorded_of_answer {question : SignRuneTokenToBtcTransferQuestion}
    {answer : SignRuneTokenToBtcTransferAnswer}
    (h : service.answerSignRuneTokenToBtcTransferQuestion views db question = .ok answer)
    {t : RuneTokenToBtcTransfer} (ht : t ∈ questionTransfers question) :
    ∃ e ∈ db.recordedEvents, e.key = t.key ∧ e.netRuneAmountRaw = t.netRuneAmount ∧
      ∃ rune, runeFromStr t.runeName = .ok rune ∧ rune.n = e.runeNumber := by
  obtain ⟨psbt, hchecked, -⟩ := answerSign_eq_ok.1 h
  obtain ⟨-, hvalid, -⟩ := validateSign_eq_ok.1 hchecked
  exact recorded_of_validateTransfers hvalid ht

end RuneBridgeService

/-! ## Sound payouts in a longer chain -/

lemma SoundPayout.concat {idOf : Rune → Runes.RuneId} {codec : Codec}
    {mined : List MinedTransaction} {m : MinedTransaction} {i : Runes.Issuance}
    {changeScript : Script} {tx : Transaction} {transfers : List RuneTokenToBtcTransfer}
    (h : SoundPayout idOf codec (chainOf mined) i changeScript tx transfers)
    (hfresh : m.txid ∉ mined.map MinedTransaction.txid)
    (hin : ∀ o ∈ tx.vin, o ∈ outpointsOf mined) :
    SoundPayout idOf codec (chainOf (mined ++ [m])) i changeScript tx transfers := by
  obtain ⟨hreceiver, hchange⟩ := h
  refine ⟨?_, ?_⟩
  · rw [settle_concat hfresh hin]
    exact hreceiver
  · rw [settle_concat hfresh hin, inputRunes_concat hfresh hin]
    exact hchange

namespace BridgeSetup

variable {Node T R Hash Sig : Type} [Erc20 T] [AccessControlEnumerable R]
  {B : BridgeSetup Node Hash Sig} {s s' : BridgeState Node T R Hash}

omit [Erc20 T] [AccessControlEnumerable R] in
lemma Shows.mono {w w' : World T R} {i : ℕ} {key : RuneTokenDepositKey} {rune : ℕ} {net : ℤ}
    (h : B.Shows w i key rune net) (happend : ∃ new, w'.releases = w.releases ++ new) :
    B.Shows w' i key rune net := by
  obtain ⟨hkey, r, hr, hrest⟩ := h
  obtain ⟨new, hnew⟩ := happend
  refine ⟨hkey, r, ?_, hrest⟩
  have hlt : i < w.releases.length := (List.getElem?_eq_some_iff.1 hr).1
  rw [hnew, List.getElem?_append_left hlt, hr]

/-- Blocks that follow do not make a transaction spend from the multisig. -/
lemma spendsCustody_of_concat {mined : List MinedTransaction} {m : MinedTransaction}
    {tx : Transaction} (hfresh : m.txid ∉ mined.map MinedTransaction.txid)
    (hin : ∀ o ∈ tx.vin, o ∈ outpointsOf mined) (h : B.SpendsCustody (mined ++ [m]) tx) :
    B.SpendsCustody mined tx := by
  obtain ⟨coin, hcoin, hid, hcustody⟩ := h
  rw [paymentsOf_concat, made_concat] at hcoin
  rcases List.mem_append.1 hcoin with hold | hnew
  · exact ⟨coin, hold, hid, hcustody⟩
  · exact absurd (List.mem_map_of_mem hnew) (notMem_outputs_of_fresh hfresh (hin _ hid))

/-! ## The invariant -/

/-- What an honest node's signature of a payout vouches for. -/
structure Vouched (B : BridgeSetup Node Hash Sig) (s : BridgeState Node T R Hash)
    (signature : PayoutSignature Node) (transfers : List RuneTokenToBtcTransfer) : Prop where
  events : signature.events = transfers.map RuneTokenToBtcTransfer.key
  single : transfers.length ≤ 1
  inputs : ∀ o ∈ signature.tx.vin, o ∈ outpointsOf s.mined
  shown : ∀ t ∈ transfers, ∃ i rune, runeFromStr t.runeName = .ok rune ∧
    B.Shows s.world i t.key rune.n t.netRuneAmount
  sound : ∀ i, SoundPayout B.idOf B.codec (chainOf s.mined) i B.changeScript signature.tx transfers

structure PayoutsVouched (B : BridgeSetup Node Hash Sig) (s : BridgeState Node T R Hash) :
    Prop where
  numbered : ∀ node ∉ B.federation.faulty, (s.nodes.db node).Numbered
  rows : ∀ node ∉ B.federation.faulty, ∀ e ∈ (s.nodes.db node).recordedEvents,
    ∃ i, B.Shows s.world i e.key e.runeNumber e.netRuneAmountRaw
  conflict : B.federation.HonestConflict s.nodes
  signatures : ∀ signature ∈ s.nodes.signed, signature.signer ∉ B.federation.faulty →
    ∃ transfers, B.Vouched s signature transfers
  mined : ∀ m ∈ s.mined, B.SpendsCustody s.mined m.tx → RunesSettled B.codec s.mined m ∧
    ∃ signature ∈ s.nodes.signed, signature.signer ∉ B.federation.faulty ∧ signature.tx = m.tx

omit [Erc20 T] [AccessControlEnumerable R] in
/-- Calls only add releases. -/
lemma PayoutsVouched.call (h : B.PayoutsVouched s) {world : World T R}
    (happend : ∃ new, world.releases = s.world.releases ++ new) :
    B.PayoutsVouched { s with world := world } where
  numbered := h.numbered
  rows node hnode e he := by
    obtain ⟨i, hi⟩ := h.rows node hnode e he
    exact ⟨i, hi.mono happend⟩
  conflict := h.conflict
  signatures signature hsignature hhonest := by
    obtain ⟨transfers, hv⟩ := h.signatures signature hsignature hhonest
    refine ⟨transfers, { hv with shown := fun t ht => ?_ }⟩
    obtain ⟨i, rune, hrune, hi⟩ := hv.shown t ht
    exact ⟨i, rune, hrune, hi.mono happend⟩
  mined := h.mined

omit [Erc20 T] [AccessControlEnumerable R] in
/-- A mined transaction leaves what was signed as it was. -/
lemma PayoutsVouched.mine (h : B.PayoutsVouched s) (hmined : MinedInOrder s.mined)
    {m : MinedTransaction} (hminable : Minable B.codec s.mined m)
    (hsigned : B.SpendsCustody s.mined m.tx → B.FullySigned s.nodes m.tx) :
    B.PayoutsVouched { s with mined := s.mined ++ [m] } where
  numbered := h.numbered
  rows := h.rows
  conflict := h.conflict
  signatures signature hsignature hhonest := by
    obtain ⟨transfers, hv⟩ := h.signatures signature hsignature hhonest
    refine ⟨transfers, { hv with inputs := fun o ho => ?_, sound := fun i => ?_ }⟩
    · exact outpointsOf_concat (hv.inputs o ho)
    · exact (hv.sound i).concat hminable.fresh hv.inputs
  mined m' hm' hspends := by
    rcases List.mem_append.1 hm' with hold | hnew
    · have hin := hmined.spent_made m' hold
      obtain ⟨hsettled, hsignature⟩ :=
        h.mined m' hold (spendsCustody_of_concat hminable.fresh hin hspends)
      exact ⟨hsettled.concat hminable.fresh hin, hsignature⟩
    · obtain rfl := List.mem_singleton.1 hnew
      have hin := fun o ho => (hminable.unspent o ho).1
      refine ⟨hminable.settled.concat hminable.fresh hin, ?_⟩
      obtain ⟨holders, hcard, hholders⟩ :=
        hsigned (spendsCustody_of_concat hminable.fresh hin hspends)
      obtain ⟨node, hnode, hhonest⟩ := Finset.exists_mem_notMem_of_card_lt_card
        (B.federation.fewFaulty.trans_le hcard)
      obtain ⟨signature, hsignature, rfl, htx⟩ := hholders node hnode
      exact ⟨signature, hsignature, hhonest, htx⟩

variable [DecidableEq Node]

omit [Erc20 T] [AccessControlEnumerable R] in
/-- A node's own transaction: what a scan adds is shown by the EVM node. -/
lemma PayoutsVouched.work (h : B.PayoutsVouched s) {node : Node} {views : Views Hash}
    {t : NodeTransaction Hash} {db : Db Hash} (honest : node ∉ B.federation.faulty)
    (htruthful : B.Truthful s (.work node views t))
    (hrun : t.run (B.federation.service node) views (s.nodes.db node) = .ok db) :
    B.PayoutsVouched
      { s with nodes := { s.nodes with db := Function.update s.nodes.db node db } } where
  numbered node' hnode' := by
    by_cases hsame : node' = node
    · subst hsame
      simpa using (h.numbered node' honest).run hrun
    · simpa [Function.update_of_ne hsame] using h.numbered node' hnode'
  rows node' hnode' e he := by
    by_cases hsame : node' = node
    · subst hsame
      simp only [Function.update_self] at he
      by_cases hscan : t = .scanRuneTokenDeposits
      · subst hscan
        simp only [NodeTransaction.run, bind_eq_ok, pure_eq_ok] at hrun
        obtain ⟨⟨n, db'⟩, hscan, rfl⟩ := hrun
        rcases RuneBridgeService.scanRuneTokenDeposits_shown (h.numbered node' honest) hscan he with
          hold | ⟨head, hhead, first, last, events, event, hlast, hlogs, hevent, rfl⟩
        · exact h.rows node' honest e hold
        · exact htruthful head hhead first last events hlast hlogs event hevent
      · rw [(NodeTransaction.run_recordedEvents hscan hrun).1] at he
        exact h.rows node' honest e he
    · simp only [Function.update_of_ne hsame] at he
      exact h.rows node' hnode' e he
  conflict := h.conflict
  signatures signature hsignature hhonest := by
    obtain ⟨transfers, hv⟩ := h.signatures signature hsignature hhonest
    exact ⟨transfers, ⟨hv.events, hv.single, hv.inputs, hv.shown, hv.sound⟩⟩
  mined := h.mined

omit [Erc20 T] [AccessControlEnumerable R] [DecidableEq Node] in
/-- A signature is added that vouches for its payout, or is a faulty node's. -/
lemma PayoutsVouched.sign (h : B.PayoutsVouched s) {signature : PayoutSignature Node}
    (hconflict :
      B.federation.HonestConflict { s.nodes with signed := s.nodes.signed ++ [signature] })
    (hnew : signature.signer ∉ B.federation.faulty → ∃ transfers, B.Vouched s signature transfers) :
    B.PayoutsVouched
      { s with nodes := { s.nodes with signed := s.nodes.signed ++ [signature] } } where
  numbered := h.numbered
  rows := h.rows
  conflict := hconflict
  signatures σ hσ hhonest := by
    rcases List.mem_append.1 hσ with hold | hσ
    · obtain ⟨transfers, hv⟩ := h.signatures σ hold hhonest
      exact ⟨transfers, ⟨hv.events, hv.single, hv.inputs, hv.shown, hv.sound⟩⟩
    · obtain rfl := List.mem_singleton.1 hσ
      obtain ⟨transfers, hv⟩ := hnew hhonest
      exact ⟨transfers, ⟨hv.events, hv.single, hv.inputs, hv.shown, hv.sound⟩⟩
  mined m hm hspends := by
    obtain ⟨hsettled, σ, hσ, hrest⟩ := h.mined m hm hspends
    exact ⟨hsettled, σ, List.mem_append_left _ hσ, hrest⟩

omit [Erc20 T] [AccessControlEnumerable R] [DecidableEq Node] in
/-- **What an honest signature vouches for.** -/
lemma PayoutsVouched.vouched_of_answer (hB : B.Lawful) (h : B.PayoutsVouched s) {node : Node}
    {views : Views Hash} {question : SignRuneTokenToBtcTransferQuestion} {psbt : Psbt}
    {answer : SignRuneTokenToBtcTransferAnswer} (honest : node ∉ B.federation.faulty)
    (hord : views.ordClient.Resolves B.idOf) (hcovered : B.Covered s (.ask node views question))
    (hpsbt : (B.federation.service node).psbtCodec.fromBase64 question.unsignedPsbtSerialized =
      .ok psbt)
    (hanswer : (B.federation.service node).answerSignRuneTokenToBtcTransferQuestion views
      (s.nodes.db node) question = .ok answer) :
    B.Vouched s (Federation.signature node question psbt)
      (RuneBridgeService.questionTransfers question) := by
  obtain ⟨psbt', hpsbt', r, haccepted⟩ := RuneBridgeService.acceptedPayout_of_answer hord hanswer
  obtain rfl : psbt = psbt' := Except.ok.inj (hpsbt.symm.trans hpsbt')
  rw [hB.nodes_codec, hB.nodes_change] at haccepted
  obtain ⟨hin, hcover⟩ := hcovered psbt hpsbt
  refine ⟨rfl, haccepted.length_le, hin, fun t ht => ?_, fun i => ?_⟩
  · obtain ⟨e, he, hkey, hamount, rune, hrune, hn⟩ :=
      RuneBridgeService.recorded_of_answer hanswer ht
    obtain ⟨i, hi⟩ := h.rows node honest e he
    refine ⟨i, rune, hrune, ?_⟩
    rw [← hkey, ← hamount, hn]
    exact hi
  · exact (haccepted.sound_iff_covered _ i hB.codec hB.change_notOpReturn hB.block_pos).2 (hcover i)

variable {a : BridgeAction Node Hash Sig}

/-- **One step.** -/
lemma PayoutsVouched.step (hB : B.Lawful) (h : B.PayoutsVouched s) (hmined : MinedInOrder s.mined)
    (hcondition : B.PaysCovered s a) (hs : B.Step s a s') : B.PayoutsVouched s' := by
  cases hs with
  | call _ hstep => exact h.call hstep.releases
  | signMint =>
      refine ⟨h.numbered, h.rows, h.conflict, fun signature hsignature hhonest => ?_, h.mined⟩
      obtain ⟨transfers, hv⟩ := h.signatures signature hsignature hhonest
      exact ⟨transfers, ⟨hv.events, hv.single, hv.inputs, hv.shown, hv.sound⟩⟩
  | mine hminable hsigned => exact h.mine hmined hminable hsigned
  | node htruthful hstep =>
      obtain ⟨hcovered, hnot⟩ := hcondition
      have hconflict := h.conflict.step hnot hstep
      cases hstep with
      | work honest hrun => exact h.work honest htruthful hrun
      | refused => exact h
      | forged hfaulty => exact h.sign hconflict fun hhonest => absurd hfaulty hhonest
      | signed honest hpsbt hanswer =>
          exact h.sign hconflict fun _ =>
            ⟨_, h.vouched_of_answer hB honest htruthful hcovered hpsbt hanswer⟩

omit [Erc20 T] [AccessControlEnumerable R] [DecidableEq Node] in
lemma Start.payoutsVouched (h : B.Start s) : B.PayoutsVouched s where
  numbered node _ := by
    rw [h.nodes.db]
    exact .empty
  rows node _ e he := by
    rw [h.nodes.db] at he
    cases he
  conflict signature hsignature := by
    rw [h.nodes.signed] at hsignature
    cases hsignature
  signatures signature hsignature := by
    rw [h.nodes.signed] at hsignature
    cases hsignature
  mined m _ hspends := by
    obtain ⟨coin, hcoin, -, hcustody⟩ := hspends
    rw [h.unfunded coin hcoin] at hcustody
    exact absurd hcustody (by simp)

lemma payoutsVouched [LawfulErc20 T] (hB : B.Lawful)
    {condition : BridgeState Node T R Hash → BridgeAction Node Hash Sig → Prop}
    {tr : List (BridgeAction Node Hash Sig)}
    (hcondition : ∀ s a, condition s a → B.PaysCovered s a) (h : B.RunWith condition tr s) :
    B.PayoutsVouched s := by
  refine h.invariant (I := fun _ s => B.PayoutsVouched s) (fun s hs => hs.payoutsVouched) ?_
  intro tr s a s' hrun hvouched hs
  exact hvouched.step hB (minedInOrder hrun) (hcondition s a hs.1) hs.2

end BridgeSetup

end NbteBridge
