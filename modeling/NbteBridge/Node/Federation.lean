import NbteBridge.Foundations.Runs
import NbteBridge.Node.PayoutQuorum
import NbteBridge.Node.Transactions

/-!
# Payouts of a federation

The nodes of a bridge as one system: each has its own database, does its own transactions, and
signs the payouts it is asked to sign.  Which node leads, what a leader asks and when nodes are
restarted is left open: any node may be asked anything at any time, by itself when it leads.  Key
holders that are faulty sign what they like.

A node that is asked looks at its own row of the event, and only a leader that broadcasts moves that
row past `ACCEPTED`.  Nothing is kept of what a node has signed, so an event is paid once as long as
the payouts the honest nodes are asked to sign for it cannot both confirm
(`event_paid_once_unless_asked_again`), and a change of leader pays it twice
(`event_paid_twice`).
-/

namespace NbteBridge

open Checked Runs Tables

/-- Two transactions that are the same, or of which only one can confirm. -/
def Transaction.Conflicts (tx tx' : Transaction) : Prop := tx = tx' ∨ ∃ o ∈ tx.vin, o ∈ tx'.vin

lemma Transaction.Conflicts.refl (tx : Transaction) : tx.Conflicts tx := .inl rfl

lemma Transaction.Conflicts.symm {tx tx' : Transaction} (h : tx.Conflicts tx') :
    tx'.Conflicts tx := by
  rcases h with rfl | ⟨o, ho, ho'⟩
  · exact .refl tx
  · exact .inr ⟨o, ho', ho⟩

/-! ## The federation -/

/-- A signature of a transaction, as the payout of these events. -/
structure PayoutSignature (Node : Type) where
  signer : Node
  events : List RuneTokenDepositKey
  tx : Transaction
  deriving DecidableEq

/-- The nodes of a bridge, of which too few are faulty to sign a payout by themselves. -/
structure Federation (Node Hash : Type) where
  service : Node → RuneBridgeService Hash
  numRequiredSigners : ℕ
  agreed : ∀ node, (service node).ordMultisig.numRequiredSigners = numRequiredSigners
  faulty : Finset Node
  fewFaulty : faulty.card < numRequiredSigners

/-- The databases, and the signatures there are, oldest first. -/
structure FederationState (Node Hash : Type) where
  db : Node → Db Hash
  signed : List (PayoutSignature Node)

inductive FederationAction (Node Hash : Type)
  /-- A node's own transaction. -/
  | work (node : Node) (views : Views Hash) (t : NodeTransaction Hash)
  /-- A node is asked to sign a payout. -/
  | ask (node : Node) (views : Views Hash) (question : SignRuneTokenToBtcTransferQuestion)
  /-- A faulty key holder signs. -/
  | forge (signature : PayoutSignature Node)

variable {Node Hash : Type}

namespace Federation

variable [DecidableEq Node] (F : Federation Node Hash)

/-- The signature a node gives with its answer to a question for `psbt`. -/
def signature (node : Node) (question : SignRuneTokenToBtcTransferQuestion) (psbt : Psbt) :
    PayoutSignature Node where
  signer := node
  events := (RuneBridgeService.questionTransfers question).map RuneTokenToBtcTransfer.key
  tx := psbt.unsignedTx

inductive Step : FederationState Node Hash → FederationAction Node Hash →
    FederationState Node Hash → Prop
  | work {s : FederationState Node Hash} {node : Node} {views : Views Hash}
      {t : NodeTransaction Hash} {db : Db Hash} (honest : node ∉ F.faulty)
      (h : t.run (F.service node) views (s.db node) = .ok db) :
      Step s (.work node views t) { s with db := Function.update s.db node db }
  | signed {s : FederationState Node Hash} {node : Node} {views : Views Hash}
      {question : SignRuneTokenToBtcTransferQuestion} {psbt : Psbt}
      {answer : SignRuneTokenToBtcTransferAnswer} (honest : node ∉ F.faulty)
      (hpsbt : (F.service node).psbtCodec.fromBase64 question.unsignedPsbtSerialized = .ok psbt)
      (h : (F.service node).answerSignRuneTokenToBtcTransferQuestion views (s.db node) question =
        .ok answer) :
      Step s (.ask node views question)
        { s with signed := s.signed ++ [signature node question psbt] }
  | refused {s : FederationState Node Hash} {node : Node} {views : Views Hash}
      {question : SignRuneTokenToBtcTransferQuestion} {e : PyError} (honest : node ∉ F.faulty)
      (h : (F.service node).answerSignRuneTokenToBtcTransferQuestion views (s.db node) question =
        .error e) :
      Step s (.ask node views question) s
  | forged {s : FederationState Node Hash} {signature : PayoutSignature Node}
      (hfaulty : signature.signer ∈ F.faulty) :
      Step s (.forge signature) { s with signed := s.signed ++ [signature] }

/-- Before the nodes' first transactions. -/
structure Start (s : FederationState Node Hash) : Prop where
  db : ∀ node, s.db node = .empty
  signed : s.signed = []

/-- Enough key holders have signed the transaction as a payout of the event. -/
def Collected (s : FederationState Node Hash) (key : RuneTokenDepositKey) (tx : Transaction) :
    Prop :=
  ∃ holders : Finset Node, F.numRequiredSigners ≤ holders.card ∧
    ∀ node ∈ holders, ∃ signature ∈ s.signed,
      signature.signer = node ∧ key ∈ signature.events ∧ signature.tx = tx

/-- **The property.**  Of the payouts of an event that are fully signed only one can confirm, and an
honest node signs no two that can both confirm. -/
structure PaysOnce (s : FederationState Node Hash) : Prop where
  collected : ∀ key tx tx', F.Collected s key tx → F.Collected s key tx' → tx.Conflicts tx'
  honest : ∀ signature ∈ s.signed, ∀ signature' ∈ s.signed, signature.signer ∉ F.faulty →
    signature'.signer = signature.signer → ∀ key ∈ signature.events, key ∈ signature'.events →
      signature.tx.Conflicts signature'.tx

/-- A node is asked again: its own row of an event is still `ACCEPTED`, and it is to sign a payout
that can confirm next to one an honest node signed for the event. -/
def AskedAgain (s : FederationState Node Hash) : FederationAction Node Hash → Prop
  | .ask node _ question =>
      ∃ psbt, (F.service node).psbtCodec.fromBase64 question.unsignedPsbtSerialized = .ok psbt ∧
        ∃ transfer ∈ RuneBridgeService.questionTransfers question,
          (∃ row, (s.db node).runeTokenDeposits.get? transfer.key = some row ∧
            row.status = .accepted) ∧
          ∃ signature ∈ s.signed, signature.signer ∉ F.faulty ∧ transfer.key ∈ signature.events ∧
            ¬ psbt.unsignedTx.Conflicts signature.tx
  | _ => False

end Federation

/-! ## Runs -/

namespace RuneBridgeService

variable {service : RuneBridgeService Hash} {views : Views Hash} {db : Db Hash}

lemma accepted_of_validateTransfers {transfers : List RuneTokenToBtcTransfer}
    (h : validateTransfers db transfers = .ok ()) {transfer : RuneTokenToBtcTransfer}
    (hmem : transfer ∈ transfers) :
    ∃ row, db.runeTokenDeposits.get? transfer.key = some row ∧ row.status = .accepted := by
  induction transfers with
  | nil => cases hmem
  | cons t transfers ih =>
      simp only [validateTransfers, validateTransfer, bind_eq_ok, exists_unit, orError_eq_ok,
        require_eq_ok] at h
      obtain ⟨⟨row, hrow, haccepted, -⟩, hrest⟩ := h
      rcases List.mem_cons.1 hmem with rfl | hmem
      · exact ⟨row, hrow, haccepted⟩
      · exact ih hrest hmem

/-- A node signs for events that are accepted in its own database. -/
lemma accepted_of_answer {question : SignRuneTokenToBtcTransferQuestion}
    {answer : SignRuneTokenToBtcTransferAnswer}
    (h : service.answerSignRuneTokenToBtcTransferQuestion views db question = .ok answer)
    {transfer : RuneTokenToBtcTransfer} (hmem : transfer ∈ questionTransfers question) :
    ∃ row, db.runeTokenDeposits.get? transfer.key = some row ∧ row.status = .accepted := by
  obtain ⟨psbt, hchecked, -⟩ := answerSign_eq_ok.1 h
  obtain ⟨-, hvalid, -⟩ := validateSign_eq_ok.1 hchecked
  exact accepted_of_validateTransfers hvalid hmem

end RuneBridgeService

namespace Federation

variable [DecidableEq Node] {F : Federation Node Hash} {s s' : FederationState Node Hash}
  {a : FederationAction Node Hash}

/-- Signatures of honest nodes for one event are of transactions that conflict. -/
def HonestConflict (F : Federation Node Hash) (s : FederationState Node Hash) : Prop :=
  ∀ signature ∈ s.signed, ∀ signature' ∈ s.signed, signature.signer ∉ F.faulty →
    signature'.signer ∉ F.faulty → ∀ key ∈ signature.events, key ∈ signature'.events →
      signature.tx.Conflicts signature'.tx

omit [DecidableEq Node] in
/-- A signature is added. -/
lemma HonestConflict.add (h : F.HonestConflict s) {signature : PayoutSignature Node}
    (hnew : signature.signer ∉ F.faulty → ∀ signature' ∈ s.signed, signature'.signer ∉ F.faulty →
      ∀ key ∈ signature.events, key ∈ signature'.events → signature.tx.Conflicts signature'.tx) :
    F.HonestConflict { s with signed := s.signed ++ [signature] } := by
  intro σ hσ σ' hσ' hhonest hhonest' key hkey hkey'
  rcases List.mem_append.1 hσ with hold | hσ
  · rcases List.mem_append.1 hσ' with hold' | hσ'
    · exact h σ hold σ' hold' hhonest hhonest' key hkey hkey'
    · obtain rfl := List.mem_singleton.1 hσ'
      exact (hnew hhonest' σ hold hhonest key hkey' hkey).symm
  · obtain rfl := List.mem_singleton.1 hσ
    rcases List.mem_append.1 hσ' with hold' | hσ'
    · exact hnew hhonest σ' hold' hhonest' key hkey hkey'
    · obtain rfl := List.mem_singleton.1 hσ'
      exact .refl _

/-- **One step.**  A node signs only while its own row is accepted. -/
lemma HonestConflict.step (h : F.HonestConflict s) (hcond : ¬ F.AskedAgain s a)
    (hs : F.Step s a s') : F.HonestConflict s' := by
  cases hs with
  | work honest hrun => exact h
  | refused honest hanswer => exact h
  | forged hfaulty => exact h.add fun hhonest => absurd hfaulty hhonest
  | @signed node views question psbt answer honest hpsbt hanswer =>
      refine h.add fun _ signature' hsigned hhonest' key hkey hkey' => ?_
      obtain ⟨transfer, htransfer, rfl⟩ := List.mem_map.1 hkey
      by_contra hno
      exact hcond ⟨psbt, hpsbt, transfer, htransfer,
        RuneBridgeService.accepted_of_answer hanswer htransfer, signature', hsigned, hhonest', hkey',
        hno⟩

omit [DecidableEq Node] in
/-- Enough signatures are those of an honest node too. -/
lemma Collected.exists_honest {key : RuneTokenDepositKey} {tx : Transaction}
    (h : F.Collected s key tx) : ∃ signature ∈ s.signed, signature.signer ∉ F.faulty ∧
      key ∈ signature.events ∧ signature.tx = tx := by
  obtain ⟨holders, hcard, hholders⟩ := h
  obtain ⟨node, hnode, hhonest⟩ :=
    Finset.exists_mem_notMem_of_card_lt_card (F.fewFaulty.trans_le hcard)
  obtain ⟨signature, hsigned, rfl, hkey, htx⟩ := hholders node hnode
  exact ⟨signature, hsigned, hhonest, hkey, htx⟩

omit [DecidableEq Node] in
lemma HonestConflict.paysOnce (h : F.HonestConflict s) : F.PaysOnce s where
  collected key tx tx' htx htx' := by
    obtain ⟨signature, hsigned, hhonest, hkey, rfl⟩ := htx.exists_honest
    obtain ⟨signature', hsigned', hhonest', hkey', rfl⟩ := htx'.exists_honest
    exact h signature hsigned signature' hsigned' hhonest hhonest' key hkey hkey'
  honest signature hsigned signature' hsigned' hhonest hsame key hkey hkey' :=
    h signature hsigned signature' hsigned' hhonest (hsame ▸ hhonest) key hkey hkey'

end Federation

/-- **At most one payout.**  In every run in which no honest node is asked again, an event is paid
at most once. -/
theorem event_paid_once_unless_asked_again [DecidableEq Node] {F : Federation Node Hash}
    {tr : List (FederationAction Node Hash)} {s : FederationState Node Hash}
    (h : Run Federation.Start (fun s a s' => ¬ F.AskedAgain s a ∧ F.Step s a s') tr s) :
    F.PaysOnce s := by
  apply Federation.HonestConflict.paysOnce
  refine h.invariant_of_condition (C := fun s a => ¬ F.AskedAgain s a) ?_ ?_
  · intro s hstart signature hsigned
    rw [hstart.signed] at hsigned
    cases hsigned
  · intro s a s' hconflict hcond hs
    exact hconflict.step hcond hs

/-! ## Examples -/

namespace Federation

variable [DecidableEq Node] (F : Federation Node Hash)

/-- What an action that succeeds leads to. -/
def exec (s : FederationState Node Hash) :
    FederationAction Node Hash → PyResult (FederationState Node Hash)
  | .work node views t => do
      require (node ∉ F.faulty) (.other "faulty")
      let db ← t.run (F.service node) views (s.db node)
      pure { s with db := Function.update s.db node db }
  | .ask node views question => do
      require (node ∉ F.faulty) (.other "faulty")
      let psbt ← (F.service node).psbtCodec.fromBase64 question.unsignedPsbtSerialized
      let _ ← (F.service node).answerSignRuneTokenToBtcTransferQuestion views (s.db node) question
      pure { s with signed := s.signed ++ [signature node question psbt] }
  | .forge signature => do
      require (signature.signer ∈ F.faulty) (.other "honest")
      pure { s with signed := s.signed ++ [signature] }

def execAll : List (FederationAction Node Hash) → FederationState Node Hash →
    PyResult (FederationState Node Hash)
  | [], s => pure s
  | a :: as, s => do
      let s ← F.exec s a
      execAll as s

variable {F} {s s' : FederationState Node Hash} {a : FederationAction Node Hash}

lemma step_of_exec (h : F.exec s a = .ok s') : F.Step s a s' := by
  cases a with
  | work node views t =>
      simp only [exec, bind_eq_ok, exists_unit, require_eq_ok, pure_eq_ok] at h
      obtain ⟨honest, db, hrun, rfl⟩ := h
      exact .work honest hrun
  | ask node views question =>
      simp only [exec, bind_eq_ok, exists_unit, require_eq_ok, pure_eq_ok] at h
      obtain ⟨honest, psbt, hpsbt, answer, hanswer, rfl⟩ := h
      exact .signed honest hpsbt hanswer
  | forge signature =>
      simp only [exec, bind_eq_ok, exists_unit, require_eq_ok, pure_eq_ok] at h
      obtain ⟨hfaulty, rfl⟩ := h
      exact .forged hfaulty

/-- A run of actions that succeed, with what their steps keep. -/
lemma run_of_execAll {R : FederationState Node Hash → FederationAction Node Hash →
      FederationState Node Hash → Prop} {I : FederationState Node Hash → Prop}
    {as tr : List (FederationAction Node Hash)} (hrun : Run Start R tr s) (hs : I s)
    (hstep : ∀ a ∈ as, ∀ s s', I s → F.exec s a = .ok s' → R s a s' ∧ I s')
    (h : F.execAll as s = .ok s') : Run Start R (tr ++ as) s' := by
  induction as generalizing tr s with
  | nil =>
      obtain rfl := pure_eq_ok.1 h
      rwa [List.append_nil]
  | cons a as ih =>
      simp only [execAll, bind_eq_ok] at h
      obtain ⟨s₁, hexec, hrest⟩ := h
      obtain ⟨hfirst, hs₁⟩ := hstep a (by simp) s s₁ hs hexec
      have hrun' := ih (hrun.step hfirst) hs₁ (fun a ha => hstep a (by simp [ha])) hrest
      rwa [List.append_assoc] at hrun'

/-- An action that is about one transaction only. -/
def About (F : Federation Node Hash) (tx : Transaction) : FederationAction Node Hash → Prop
  | .work .. => True
  | .ask node _ question => ∃ psbt,
      (F.service node).psbtCodec.fromBase64 question.unsignedPsbtSerialized = .ok psbt ∧
        psbt.unsignedTx = tx
  | .forge signature => signature.tx = tx

/-- Nobody is asked again for the same transaction. -/
lemma not_askedAgain_of_about {tx : Transaction} (ha : F.About tx a)
    (hs : ∀ signature ∈ s.signed, signature.tx = tx) (h : F.exec s a = .ok s') :
    ¬ F.AskedAgain s a ∧ ∀ signature ∈ s'.signed, signature.tx = tx := by
  have hadd {signature : PayoutSignature Node} (hnew : signature.tx = tx) :
      ∀ σ ∈ s.signed ++ [signature], σ.tx = tx := by
    intro σ hσ
    rcases List.mem_append.1 hσ with hold | hσ
    · exact hs σ hold
    · obtain rfl := List.mem_singleton.1 hσ
      exact hnew
  cases a with
  | work node views t =>
      simp only [exec, bind_eq_ok, exists_unit, pure_eq_ok] at h
      obtain ⟨-, db, -, rfl⟩ := h
      exact ⟨fun hagain => hagain, hs⟩
  | ask node views question =>
      obtain ⟨psbt, hpsbt, rfl⟩ := ha
      simp only [exec, bind_eq_ok, exists_unit, pure_eq_ok] at h
      obtain ⟨-, psbt', hpsbt', answer, -, rfl⟩ := h
      obtain rfl : psbt = psbt' := Except.ok.inj (hpsbt.symm.trans hpsbt')
      refine ⟨?_, hadd rfl⟩
      rintro ⟨psbt', hpsbt', -, -, -, signature, hsigned, -, -, hno⟩
      obtain rfl : psbt = psbt' := Except.ok.inj (hpsbt.symm.trans hpsbt')
      exact hno (.inl (hs signature hsigned).symm)
  | forge signature =>
      simp only [exec, bind_eq_ok, exists_unit, pure_eq_ok] at h
      obtain ⟨-, rfl⟩ := h
      exact ⟨fun hagain => hagain, hadd ha⟩

end Federation

namespace ExampleNode

/-! ### A change of leader -/

/-- The change of `quorumPayout`, once that is in a block. -/
def changeUtxos : List UTXO :=
  [⟨"paid", 1, 10000, 7, none, some "change", some [81]⟩,
    ⟨"paid", 3, 89761, 7, none, some "change", some [81]⟩]

/-- What there is to see then. -/
def laterViews : Views Bytes :=
  { views ['4'] with
    bitcoinRpc :=
      { listunspent := .ok changeUtxos
        gettransaction := fun _ => .ok quorumPayout.unsignedTx
        listsinceblock := fun _ _ => .ok ⟨"genesis", []⟩ }
    ordClient :=
      { ExampleWallet.ord with
        getOutput := fun txid vout => .ok
          { indexed := true, spent := false, transaction := txid, value := 10000
            runes := if vout = 1 then [("A", ⟨5, 0⟩)] else []
            inscriptions := [] } } }

/-- The payout of `transfer` that is built then. -/
def laterPayout : Psbt where
  unsignedTx :=
    { vin := changeUtxos.map UTXO.outpoint
      vout := quorumPayout.unsignedTx.vout.take 3 ++
        [⟨79522, ExampleWallet.ms.changeScriptPubkey⟩]
      nSequence := [0xffffffff, 0xffffffff]
      nLockTime := 0 }
  inputs :=
    [⟨some [81], some ⟨10000, ExampleWallet.ms.changeScriptPubkey⟩, none, []⟩,
      ⟨some [81], some ⟨89761, ExampleWallet.ms.changeScriptPubkey⟩, none, []⟩]

/-- Three honest nodes, two of which sign a payout. -/
def federation : Federation (Fin 3) Bytes where
  service node :=
    { service (Char.ofNat (node.val + 52)) [quorumPayout, laterPayout] with
      ordMultisig := { ExampleWallet.ms with numRequiredSigners := 2 } }
  numRequiredSigners := 2
  agreed _ := rfl
  faulty := ∅
  fewFaulty := by decide

def beforeScans : FederationState (Fin 3) Bytes := ⟨fun _ => .empty, []⟩

/-- All scan the event, and the first node asks itself and the second to sign the payout. -/
def firstPayout : List (FederationAction (Fin 3) Bytes) :=
  [.work 0 (views ['4']) .scanRuneTokenDeposits, .work 1 (views ['4']) .scanRuneTokenDeposits,
    .work 2 (views ['4']) .scanRuneTokenDeposits, .ask 0 (views ['4']) (payoutQuestion ""),
    .ask 1 (views ['4']) (payoutQuestion "")]

/-- The first node broadcasts the payout.  Then the second node leads, and asks itself and the third
to sign the payout that it builds. -/
def secondPayout : List (FederationAction (Fin 3) Bytes) :=
  [.work 0 (views ['4']) (.beginPayout tokenDepositKey quorumPayout),
    .work 0 (views ['4']) (.finishPayout tokenDepositKey "paid"),
    .ask 1 laterViews (payoutQuestion "x"), .ask 2 laterViews (payoutQuestion "x")]

lemma started_beforeScans : Federation.Start beforeScans := ⟨fun _ => rfl, rfl⟩

lemma about_firstPayout : ∀ a ∈ firstPayout, federation.About quorumPayout.unsignedTx a := by
  have hask (node : Fin 3) : federation.About quorumPayout.unsignedTx
      (.ask node (views ['4']) (payoutQuestion "")) := ⟨quorumPayout, rfl, rfl⟩
  intro a ha
  simp only [firstPayout, List.mem_cons, List.not_mem_nil, or_false] at ha
  rcases ha with rfl | rfl | rfl | rfl | rfl
  · trivial
  · trivial
  · trivial
  · exact hask 0
  · exact hask 1

/-- Two nodes signed this transaction. -/
lemma collected_of_signed {s : FederationState (Fin 3) Bytes} {m n : Fin 3} (hne : m ≠ n)
    {text : String} {psbt : Psbt} (h : ∀ node ∈ [m, n],
      Federation.signature node (payoutQuestion text) psbt ∈ s.signed) :
    federation.Collected s tokenDepositKey psbt.unsignedTx := by
  refine ⟨{m, n}, (Finset.card_pair hne).ge, ?_⟩
  intro node hnode
  have hsigned := h node (by simpa using hnode)
  refine ⟨_, hsigned, rfl, ?_, rfl⟩
  exact List.mem_cons_self

end ExampleNode

open ExampleNode in
/-- One leader and one payout. -/
theorem event_paid_once_unless_asked_again_example :
    ∃ s, federation.Collected s tokenDepositKey quorumPayout.unsignedTx ∧ federation.PaysOnce s := by
  obtain ⟨s, hexec⟩ : ∃ s, federation.execAll firstPayout beforeScans = .ok s :=
    exists_ok_of_isOk (by decide +kernel)
  have hsigned : (federation.execAll firstPayout beforeScans).map FederationState.signed = .ok
      [Federation.signature 0 (payoutQuestion "") quorumPayout,
        Federation.signature 1 (payoutQuestion "") quorumPayout] := by
    decide +kernel
  rw [hexec] at hsigned
  have hcollected : federation.Collected s tokenDepositKey quorumPayout.unsignedTx := by
    apply @collected_of_signed s 0 1 (by decide) ""
    rw [Except.ok.inj hsigned]
    decide
  refine ⟨s, hcollected, event_paid_once_unless_asked_again
    (Federation.run_of_execAll (I := fun s => ∀ signature ∈ s.signed,
      signature.tx = quorumPayout.unsignedTx) (.init started_beforeScans) ?_ ?_ hexec)⟩
  · intro signature hsigned
    cases hsigned
  · intro a ha s s' hs h
    obtain ⟨hnot, hs'⟩ := Federation.not_askedAgain_of_about (about_firstPayout a ha) hs h
    exact ⟨⟨hnot, Federation.step_of_exec h⟩, hs'⟩

open ExampleNode in
/-- **A second payout.**  No node is faulty; two nodes sign the payout of the first leader, and after
it was broadcast two nodes sign the one the next leader builds from its change. -/
theorem event_paid_twice :
    federation.faulty = ∅ ∧
    (federation.service 0).createPayout (views ['4']) transfer =
      .ok (quorumPayout, payoutQuestion "") ∧
    (federation.service 1).createPayout laterViews transfer =
      .ok (laterPayout, payoutQuestion "x") ∧
    ∃ s, Run Federation.Start federation.Step (firstPayout ++ secondPayout) s ∧
      federation.Collected s tokenDepositKey quorumPayout.unsignedTx ∧
      federation.Collected s tokenDepositKey laterPayout.unsignedTx ∧ ¬ federation.PaysOnce s := by
  refine ⟨rfl, by decide +kernel, by decide +kernel, ?_⟩
  obtain ⟨s, hexec⟩ : ∃ s, federation.execAll (firstPayout ++ secondPayout) beforeScans = .ok s :=
    exists_ok_of_isOk (by decide +kernel)
  have hsigned : (federation.execAll (firstPayout ++ secondPayout) beforeScans).map
      FederationState.signed = .ok
        [Federation.signature 0 (payoutQuestion "") quorumPayout,
          Federation.signature 1 (payoutQuestion "") quorumPayout,
          Federation.signature 1 (payoutQuestion "x") laterPayout,
          Federation.signature 2 (payoutQuestion "x") laterPayout] := by
    decide +kernel
  rw [hexec] at hsigned
  have hfirst : federation.Collected s tokenDepositKey quorumPayout.unsignedTx := by
    apply @collected_of_signed s 0 1 (by decide) ""
    rw [Except.ok.inj hsigned]
    decide
  have hsecond : federation.Collected s tokenDepositKey laterPayout.unsignedTx := by
    apply @collected_of_signed s 1 2 (by decide) "x"
    rw [Except.ok.inj hsigned]
    decide
  have hrun : Run Federation.Start federation.Step ([] ++ (firstPayout ++ secondPayout)) s :=
    Federation.run_of_execAll (I := fun _ => True) (.init started_beforeScans) trivial
      (fun a _ s s' _ h => ⟨Federation.step_of_exec h, trivial⟩) hexec
  refine ⟨s, hrun, hfirst, hsecond, ?_⟩
  · intro honce
    have hconflict := honce.collected _ _ _ hfirst hsecond
    revert hconflict
    unfold Transaction.Conflicts
    decide

end NbteBridge
