import NbteBridge.Node.Signatures
import NbteBridge.P2p.Network

/-!
# The answers to a mint question

What the leader makes of the answers of its peers, which are objects of any kind until they are
looked into.  A validation error prunes an answer; whatever else looking into it raises ends the
round, so one answer that raises keeps all the others from being stored (`mint_unblocked_iff`).
-/

namespace NbteBridge

open Checked Tables Runs

/-! ## Looking into an answer -/

/-- A text; of the rest, what can be in a set is refused by the call it is an argument of. -/
def PyObject.text : PyObject → PyResult String
  | value (.str s) => pure s
  | _ => .error (.other "TypeError")

/-- `HexBytes(value)`, as a text of these bytes. -/
def PyObject.hexBytes : PyObject → PyResult String
  | value (.str s) => pure s
  | value (.bool b) => pure (if b then "0x01" else "0x00")
  | value (.int n) =>
      if 0 ≤ n then pure (String.ofList ('0' :: 'x' :: Nat.toDigits 16 n.toNat))
      else .error (.valueError "negative")
  | _ => .error (.other "TypeError")

def SignRuneToEvmTransferAnswer.toObject {Hash : Type} (answer : SignRuneToEvmTransferAnswer Hash) :
    PyObject :=
  .namespaceOf [("signature", .value (.str answer.signature)),
    ("signer", .value (.str answer.signer))]

namespace RuneBridgeService

variable {Hash : Type} (service : RuneBridgeService Hash) (views : Views Hash)

def signerOf (answer : PyObject) : PyResult String := do
  let signer ← answer.attribute "signer"
  signer.text

/-- `validate_sign_rune_to_evm_transfer_answer`, of an answer that names this signer: the signature
it carries. -/
def validateAnswer (messageHash : Hash) (answer : PyObject) (signer : String) :
    PyResult String := do
  let isFederator ← views.contract.isFederator signer
  require (isFederator = true) (.validationError "Signer is not a federator")
  let value ← answer.attribute "signature"
  let signature ← value.hexBytes
  let recovered ← service.recoverMessage messageHash signature
  require (recovered = signer) (.validationError "Recovered signer does not match expected")
  pure signature

/-- `_prune_invalid_sign_rune_to_evm_transfer_answers`. -/
def pruneInvalidAnswers (messageHash : Hash) :
    List String → List PyObject → PyResult (List (SignRuneToEvmTransferAnswer Hash))
  | _, [] => pure []
  | signers, answer :: answers => do
      let signer ← signerOf answer
      if signer ∈ signers then pruneInvalidAnswers messageHash signers answers
      else match service.validateAnswer views messageHash answer signer with
        | .error (.validationError _) => pruneInvalidAnswers messageHash signers answers
        | .error e => .error e
        | .ok signature => do
            let rest ← pruneInvalidAnswers messageHash (signer :: signers) answers
            pure (⟨signature, signer, messageHash⟩ :: rest)

/-- `update_rune_deposit_signatures`. -/
def updateSignatures (key : RuneDepositKey) (messageHash : Hash) (answers : List PyObject)
    (db : Db Hash) : PyResult (Bool × Db Hash) := do
  let deposit ← runeDeposit key db
  require (deposit.status = .accepted) (.validationError "Deposit not accepted")
  let deposit := { deposit with acceptTransferMessageHash := some messageHash }
  let answers ← service.pruneInvalidAnswers views messageHash [] answers
  let deposit := answers.foldl addSignature deposit
  let numRequired ← views.contract.numRequiredFederators
  pure (decide (numRequired ≤ deposit.acceptTransferSignatures.length),
    db.setRuneDeposit key deposit)

/-- The leader asks its peers and stores their signatures and its own. -/
def mintRound (network : PyroNetwork) (key : RuneDepositKey)
    (selfResponse : SignRuneToEvmTransferAnswer Hash) (peers : List PeerBehaviour) (db : Db Hash) :
    PyResult (Bool × Db Hash) := do
  let responses ← network.ask peers
  service.updateSignatures views key selfResponse.messageHash (selfResponse.toObject :: responses)
    db

/-! ## Valid answers -/

/-- The object is an answer of this signer, with this signature, that passes the validation. -/
structure ValidAnswer (messageHash : Hash) (answer : PyObject) (signer signature : String) :
    Prop where
  names : signerOf answer = .ok signer
  valid : service.validateAnswer views messageHash answer signer = .ok signature

/-- Each answer can be looked into where it stands: it names a signer, and is only validated when
no valid answer of that signer came before, which raises nothing but a validation error. -/
def Checkable (messageHash : Hash) (signers : List String) (answers : List PyObject) : Prop :=
  ∀ before answer after, answers = before ++ answer :: after → ∃ signer,
    signerOf answer = .ok signer ∧
      (signer ∈ signers ∨
        (∃ earlier ∈ before, ∃ signature, service.ValidAnswer views messageHash earlier signer
          signature) ∨
        (∃ signature, service.validateAnswer views messageHash answer signer = .ok signature) ∨
        ∃ text, service.validateAnswer views messageHash answer signer =
          .error (.validationError text))

variable {service views} {messageHash : Hash} {answer : PyObject} {signer signer' signature : String}
  {signers : List String} {answers : List PyObject}
  {kept : List (SignRuneToEvmTransferAnswer Hash)}

lemma ValidAnswer.signer_unique
    (h : service.ValidAnswer views messageHash answer signer signature)
    (hsigner : signerOf answer = .ok signer') : signer' = signer :=
  Except.ok.inj (hsigner.symm.trans h.names)

/-- A valid answer is by a federator, from whose signature it is recovered. -/
lemma ValidAnswer.recovered (h : service.ValidAnswer views messageHash answer signer signature) :
    views.contract.isFederator signer = .ok true ∧
      service.recoverMessage messageHash signature = .ok signer := by
  have hvalid := h.valid
  simp only [validateAnswer, bind_eq_ok, exists_unit, require_eq_ok, pure_eq_ok] at hvalid
  obtain ⟨isFederator, hfederator, rfl, _, -, signature', -, recovered, hrecovered, rfl, rfl⟩ :=
    hvalid
  exact ⟨hfederator, hrecovered⟩

/-- The answer of a node is looked into as it is. -/
lemma validAnswer_toObject {answer : SignRuneToEvmTransferAnswer Hash} :
    service.ValidAnswer views messageHash answer.toObject answer.signer answer.signature ↔
      service.validateSignRuneToEvmTransferAnswer views messageHash answer = .ok () := by
  have hvalidate : service.validateAnswer views messageHash answer.toObject answer.signer =
      (service.validateSignRuneToEvmTransferAnswer views messageHash answer >>=
        fun _ => pure answer.signature) := by
    simp only [validateAnswer, validateSignRuneToEvmTransferAnswer, bind_assoc]
    rfl
  constructor
  · intro h
    have hvalid := h.valid
    rw [hvalidate, bind_eq_ok] at hvalid
    obtain ⟨⟨⟩, hvalid, -⟩ := hvalid
    exact hvalid
  · intro h
    refine ⟨rfl, ?_⟩
    rw [hvalidate, h]
    rfl

/-! ## Pruning -/

/-- What is kept of the answers: a valid one of each signer that has one. -/
structure Pruned (service : RuneBridgeService Hash) (views : Views Hash) (messageHash : Hash)
    (signers : List String) (answers : List PyObject)
    (kept : List (SignRuneToEvmTransferAnswer Hash)) : Prop where
  nodup : (kept.map SignRuneToEvmTransferAnswer.signer).Nodup
  fresh : ∀ a ∈ kept, a.signer ∉ signers
  valid : ∀ a ∈ kept, ∃ answer ∈ answers,
    service.ValidAnswer views messageHash answer a.signer a.signature
  complete : ∀ answer ∈ answers, ∀ signer signature,
    service.ValidAnswer views messageHash answer signer signature →
      signer ∈ signers ∨ ∃ a ∈ kept, a.signer = signer

lemma Pruned.skip (h : Pruned service views messageHash signers answers kept)
    (hskip : ∀ signer signature, service.ValidAnswer views messageHash answer signer signature →
      signer ∈ signers) :
    Pruned service views messageHash signers (answer :: answers) kept where
  nodup := h.nodup
  fresh := h.fresh
  valid a ha := by
    obtain ⟨answer', hmem, hvalid⟩ := h.valid a ha
    exact ⟨answer', List.mem_cons_of_mem _ hmem, hvalid⟩
  complete answer' hmem signer signature hvalid := by
    rcases List.mem_cons.1 hmem with rfl | hmem
    · exact .inl (hskip signer signature hvalid)
    · exact h.complete answer' hmem signer signature hvalid

lemma Pruned.keep (hvalid : service.ValidAnswer views messageHash answer signer signature)
    (hnew : signer ∉ signers)
    (h : Pruned service views messageHash (signer :: signers) answers kept) :
    Pruned service views messageHash signers (answer :: answers)
      (⟨signature, signer, messageHash⟩ :: kept) where
  nodup := by
    rw [List.map_cons, List.nodup_cons]
    refine ⟨fun hmem => ?_, h.nodup⟩
    obtain ⟨a, ha, hsigner⟩ := List.mem_map.1 hmem
    exact h.fresh a ha (by rw [hsigner]; exact List.mem_cons_self)
  fresh a ha := by
    rcases List.mem_cons.1 ha with rfl | ha
    · exact hnew
    · exact fun hold => h.fresh a ha (List.mem_cons_of_mem _ hold)
  valid a ha := by
    rcases List.mem_cons.1 ha with rfl | ha
    · exact ⟨answer, List.mem_cons_self, hvalid⟩
    · obtain ⟨answer', hmem, hvalid'⟩ := h.valid a ha
      exact ⟨answer', List.mem_cons_of_mem _ hmem, hvalid'⟩
  complete answer' hmem signer' signature' hvalid' := by
    rcases List.mem_cons.1 hmem with rfl | hmem
    · have heq := hvalid.signer_unique hvalid'.names
      exact .inr ⟨_, List.mem_cons_self, heq.symm⟩
    · rcases h.complete answer' hmem signer' signature' hvalid' with hold | ⟨a, ha, rfl⟩
      · rcases List.mem_cons.1 hold with rfl | hold
        · exact .inr ⟨_, List.mem_cons_self, rfl⟩
        · exact .inl hold
      · exact .inr ⟨a, List.mem_cons_of_mem _ ha, rfl⟩

lemma Checkable.tail (h : service.Checkable views messageHash signers (answer :: answers))
    {signers' : List String} (hsub : ∀ s ∈ signers, s ∈ signers')
    (hskip : ∀ signer signature, service.ValidAnswer views messageHash answer signer signature →
      signer ∈ signers') :
    service.Checkable views messageHash signers' answers := by
  rintro before answer' after rfl
  obtain ⟨signer, hsigner, hcase⟩ := h (answer :: before) answer' after rfl
  refine ⟨signer, hsigner, ?_⟩
  rcases hcase with hold | ⟨earlier, hmem, signature, hvalid⟩ | hrest
  · exact .inl (hsub signer hold)
  · rcases List.mem_cons.1 hmem with rfl | hmem
    · exact .inl (hskip signer signature hvalid)
    · exact .inr (.inl ⟨earlier, hmem, signature, hvalid⟩)
  · exact .inr (.inr hrest)

/-- **Pruning.**  It succeeds when each answer can be looked into where it stands. -/
lemma pruneInvalidAnswers_of_checkable
    (h : service.Checkable views messageHash signers answers) :
    ∃ kept, service.pruneInvalidAnswers views messageHash signers answers = .ok kept ∧
      Pruned service views messageHash signers answers kept := by
  induction answers generalizing signers with
  | nil => exact ⟨[], rfl, by simp, by simp, by simp, by simp⟩
  | cons answer answers ih =>
      obtain ⟨signer, hsigner, hcase⟩ := h [] answer answers rfl
      rw [pruneInvalidAnswers, hsigner]
      simp only [ok_bind]
      by_cases hseen : signer ∈ signers
      · have hskip : ∀ signer' signature,
            service.ValidAnswer views messageHash answer signer' signature → signer' ∈ signers := by
          intro signer' signature hvalid
          rw [← hvalid.signer_unique hsigner]
          exact hseen
        obtain ⟨kept, hkept, hpruned⟩ := ih (h.tail (fun _ hs => hs) hskip)
        rw [if_pos hseen]
        exact ⟨kept, hkept, hpruned.skip hskip⟩
      · rw [if_neg hseen]
        rcases hcase with hold | ⟨_, hmem, -⟩ | ⟨signature, hvalid⟩ | ⟨text, hinvalid⟩
        · exact absurd hold hseen
        · exact absurd hmem (by simp)
        · have hanswer : service.ValidAnswer views messageHash answer signer signature :=
            ⟨hsigner, hvalid⟩
          obtain ⟨kept, hkept, hpruned⟩ := @ih (signer :: signers) (h.tail
            (fun _ hs => List.mem_cons_of_mem _ hs) fun signer' signature' hvalid' => by
              rw [← hvalid'.signer_unique hsigner]
              exact List.mem_cons_self)
          simp only [hvalid, hkept, ok_bind]
          exact ⟨_, rfl, hpruned.keep hanswer hseen⟩
        · have hskip : ∀ signer' signature,
              service.ValidAnswer views messageHash answer signer' signature →
                signer' ∈ signers := by
            intro signer' signature hvalid
            obtain rfl := hvalid.signer_unique hsigner
            exact absurd (hinvalid.symm.trans hvalid.valid) (by simp)
          obtain ⟨kept, hkept, hpruned⟩ := ih (h.tail (fun _ hs => hs) hskip)
          simp only [hinvalid]
          exact ⟨kept, hkept, hpruned.skip hskip⟩

/-- And only then. -/
lemma checkable_of_pruneInvalidAnswers
    (h : service.pruneInvalidAnswers views messageHash signers answers = .ok kept) :
    service.Checkable views messageHash signers answers := by
  induction answers generalizing signers kept with
  | nil =>
      intro before answer after heq
      exact absurd heq (by simp)
  | cons answer answers ih =>
      rw [pruneInvalidAnswers] at h
      obtain ⟨signer, hsigner, h⟩ := bind_eq_ok.1 h
      have htail {signers' : List String} (ih : service.Checkable views messageHash signers' answers)
          (hsub : ∀ s ∈ signers', s ∈ signers ∨
            ∃ signature, service.ValidAnswer views messageHash answer s signature)
          (hhead : signer ∈ signers ∨
            (∃ signature, service.validateAnswer views messageHash answer signer =
              .ok signature) ∨
            ∃ text, service.validateAnswer views messageHash answer signer =
              .error (.validationError text)) :
          service.Checkable views messageHash signers (answer :: answers) := by
        intro before answer' after heq
        rcases List.cons_eq_append_iff.1 heq with ⟨rfl, heq⟩ | ⟨before', rfl, rfl⟩
        · obtain ⟨rfl, rfl⟩ := List.cons.inj heq
          exact ⟨signer, hsigner, hhead.imp_right .inr⟩
        · obtain ⟨signer', hsigner', hcase⟩ := ih before' answer' after rfl
          refine ⟨signer', hsigner', ?_⟩
          rcases hcase with hold | ⟨earlier, hmem, signature, hvalid⟩ | hrest
          · rcases hsub signer' hold with hold | ⟨signature, hvalid⟩
            · exact .inl hold
            · exact .inr (.inl ⟨answer, List.mem_cons_self, signature, hvalid⟩)
          · exact .inr (.inl ⟨earlier, List.mem_cons_of_mem _ hmem, signature, hvalid⟩)
          · exact .inr (.inr hrest)
      by_cases hseen : signer ∈ signers
      · rw [if_pos hseen] at h
        exact htail (ih h) (fun _ hs => .inl hs) (.inl hseen)
      · rw [if_neg hseen] at h
        cases hvalid : service.validateAnswer views messageHash answer signer with
        | error e =>
            rw [hvalid] at h
            cases e
            case validationError text =>
              exact htail (ih h) (fun _ hs => .inl hs) (.inr (.inr ⟨text, hvalid⟩))
            all_goals exact absurd h (by simp)
        | ok signature =>
            rw [hvalid] at h
            obtain ⟨rest, hrest, -⟩ := bind_eq_ok.1 h
            refine htail (ih hrest) (fun s hs => ?_) (.inr (.inl ⟨signature, hvalid⟩))
            rcases List.mem_cons.1 hs with rfl | hs
            · exact .inr ⟨signature, hsigner, hvalid⟩
            · exact .inl hs

/-- What is kept are valid answers of nodes. -/
lemma Pruned.validated (h : Pruned service views messageHash signers answers kept) :
    ∀ a ∈ kept, service.validateSignRuneToEvmTransferAnswer views messageHash a = .ok () := by
  intro a ha
  obtain ⟨answer, -, hvalid⟩ := h.valid a ha
  obtain ⟨hfederator, hrecovered⟩ := hvalid.recovered
  simp only [validateSignRuneToEvmTransferAnswer, hfederator, hrecovered, ok_bind, require_of]

lemma pruneInvalidSignRuneToEvmTransferAnswers_self
    (hnodup : (kept.map SignRuneToEvmTransferAnswer.signer).Nodup)
    (hfresh : ∀ a ∈ kept, a.signer ∉ signers)
    (hvalid : ∀ a ∈ kept,
      service.validateSignRuneToEvmTransferAnswer views messageHash a = .ok ()) :
    service.pruneInvalidSignRuneToEvmTransferAnswers views messageHash signers kept = .ok kept := by
  induction kept generalizing signers with
  | nil => rfl
  | cons a kept ih =>
      rw [List.map_cons, List.nodup_cons] at hnodup
      have hrest := @ih (a.signer :: signers) hnodup.2 (fun b hb => ?_)
        fun b hb => hvalid b (List.mem_cons_of_mem _ hb)
      · rw [pruneInvalidSignRuneToEvmTransferAnswers, if_neg (hfresh a List.mem_cons_self),
          hvalid a List.mem_cons_self]
        simp only [hrest, ok_bind]
        rfl
      · rw [List.mem_cons, not_or]
        refine ⟨fun heq => hnodup.1 ?_, hfresh b (List.mem_cons_of_mem _ hb)⟩
        rw [← heq]
        exact List.mem_map_of_mem hb

/-- Storing what came back is storing answers of nodes, those that are kept. -/
lemma updateSignatures_eq_ok {key : RuneDepositKey} {db : Db Hash} {r : Bool × Db Hash}
    (h : service.updateSignatures views key messageHash answers db = .ok r) :
    ∃ kept, service.pruneInvalidAnswers views messageHash [] answers = .ok kept ∧
      service.updateRuneDepositSignatures views key messageHash kept db = .ok r := by
  simp only [updateSignatures, bind_eq_ok, exists_unit, require_eq_ok] at h
  obtain ⟨deposit, hrow, hstatus, kept, hkept, numRequired, hnum, h⟩ := h
  obtain ⟨kept', hkept', hpruned⟩ :=
    pruneInvalidAnswers_of_checkable (checkable_of_pruneInvalidAnswers hkept)
  obtain rfl : kept = kept' := Except.ok.inj (hkept.symm.trans hkept')
  refine ⟨kept, hkept, ?_⟩
  have hself := pruneInvalidSignRuneToEvmTransferAnswers_self hpruned.nodup hpruned.fresh
    hpruned.validated
  simp only [updateRuneDepositSignatures, hrow, ok_bind, require_of hstatus, hself, hnum]
  exact h

/-- Of distinct signers those are added that had no signature yet. -/
lemma foldl_addSignature_of_nodup (deposit : RuneDeposit Hash)
    (hnodup : (kept.map SignRuneToEvmTransferAnswer.signer).Nodup) :
    kept.foldl addSignature deposit =
      let added := kept.filter fun a => a.signer ∉ deposit.acceptTransferSigners
      { deposit with
        acceptTransferSigners := deposit.acceptTransferSigners ++
          added.map SignRuneToEvmTransferAnswer.signer
        acceptTransferSignatures := deposit.acceptTransferSignatures ++
          added.map SignRuneToEvmTransferAnswer.signature } := by
  induction kept generalizing deposit with
  | nil => simp
  | cons a kept ih =>
      rw [List.map_cons, List.nodup_cons] at hnodup
      rw [List.foldl_cons]
      by_cases hold : a.signer ∈ deposit.acceptTransferSigners
      · have hhead : addSignature deposit a = deposit := if_pos hold
        have htail : (a :: kept).filter (fun b => b.signer ∉ deposit.acceptTransferSigners) =
            kept.filter fun b => b.signer ∉ deposit.acceptTransferSigners :=
          List.filter_cons_of_neg (by simpa using hold)
        rw [hhead, ih _ hnodup.2, htail]
      · have hhead : addSignature deposit a =
            { deposit with
              acceptTransferSigners := deposit.acceptTransferSigners ++ [a.signer]
              acceptTransferSignatures := deposit.acceptTransferSignatures ++ [a.signature] } :=
          if_neg hold
        have htail : (a :: kept).filter (fun b => b.signer ∉ deposit.acceptTransferSigners) =
            a :: kept.filter fun b => b.signer ∉ deposit.acceptTransferSigners :=
          List.filter_cons_of_pos (by simpa using hold)
        have hsame : kept.filter (fun b => b.signer ∉ deposit.acceptTransferSigners ++ [a.signer]) =
            kept.filter fun b => b.signer ∉ deposit.acceptTransferSigners := by
          apply List.filter_congr
          intro b hb
          have hne : b.signer ≠ a.signer := by
            intro heq
            exact hnodup.1 (heq ▸ List.mem_map_of_mem hb)
          simp [hne]
        rw [hhead, ih _ hnodup.2, htail]
        simp only [hsame, List.map_cons, List.append_assoc, List.singleton_append]

end RuneBridgeService

/-! ## Runs of a node -/

/-- A run of a node's transactions, with whatever configuration it was started for each and whatever
it then saw. -/
abbrev NodeRun {Hash : Type} := Run (fun db : Db Hash => db = Db.empty)
  fun db (a : RuneBridgeService Hash × Views Hash × NodeTransaction Hash) db' =>
    a.2.2.run a.1 a.2.1 db = .ok db'

/-- Each signer has a signature. -/
def PairedSignatures {Hash : Type} (db : Db Hash) : Prop :=
  ∀ key row, db.runeDeposits.get? key = some row →
    row.acceptTransferSigners.length = row.acceptTransferSignatures.length

section Paired

variable {Hash : Type} {db db' : Db Hash}

lemma PairedSignatures.run {service : RuneBridgeService Hash} {views : Views Hash}
    {t : NodeTransaction Hash} (hpaired : PairedSignatures db)
    (ht : t.run service views db = .ok db') : PairedSignatures db' := by
  intro k row' hrow'
  cases hupdate : t.isUpdate with
  | false =>
      rcases NodeTransaction.run_signaturesKept hupdate ht k row' hrow' with
        ⟨row, hrow, hkept⟩ | ⟨hsigners, hsignatures⟩
      · rw [hkept.signers, hkept.signatures]
        exact hpaired k row hrow
      · rw [hsigners, hsignatures]
  | true =>
      cases t
      case updateRuneDepositSignatures key messageHash answers =>
        simp only [NodeTransaction.run, bind_eq_ok, pure_eq_ok] at ht
        obtain ⟨⟨ready, db₁⟩, ht, rfl⟩ := ht
        obtain ⟨deposit, kept, -, _, hrow, -, -, -, rfl, -, rfl⟩ :=
          RuneBridgeService.updateRuneDepositSignatures_ok ht
        rw [Db.setRuneDeposit, Table.get?_set] at hrow'
        by_cases hk : k = key
        · rw [if_pos hk, Option.some.injEq] at hrow'
          obtain ⟨added, -, heq⟩ := RuneBridgeService.foldl_addSignature_eq kept
            { deposit with acceptTransferMessageHash := some messageHash }
          rw [← hrow', heq]
          simp only [List.length_append, List.length_map, hpaired key deposit hrow]
        · rw [if_neg hk] at hrow'
          exact hpaired k row' hrow'
      all_goals exact absurd hupdate (by simp [NodeTransaction.isUpdate])

lemma NodeRun.paired {tr : List (RuneBridgeService Hash × Views Hash × NodeTransaction Hash)}
    (hrun : NodeRun tr db) : PairedSignatures db := by
  refine hrun.stateInvariant (I := PairedSignatures) ?_ fun db a db' hi hs => hi.run hs
  rintro _ rfl key row hrow
  exact absurd hrow (by simp [Db.empty])

end Paired

/-! ## One faulty peer -/

section Round

variable {Hash : Type} (service : RuneBridgeService Hash) (views : Views Hash)
  (network : PyroNetwork) (key : RuneDepositKey) (own : SignRuneToEvmTransferAnswer Hash)
  (peers : List PeerBehaviour)

/-- A peer returned a valid answer of this signer. -/
def Answers (signer : String) : Prop :=
  ∃ v ∈ PyroNetwork.returned peers, ∃ answer signature, network.deserialize v = .ok answer ∧
    service.ValidAnswer views own.messageHash answer signer signature

/-- What is stored: signatures of valid answers, by signers who had none, and in the end one of each
signer with a valid answer. -/
structure StoresValid (row stored : RuneDeposit Hash)
    (new : List (SignRuneToEvmTransferAnswer Hash)) : Prop where
  added : stored =
    { row with
      acceptTransferMessageHash := some own.messageHash
      acceptTransferSigners := row.acceptTransferSigners ++
        new.map SignRuneToEvmTransferAnswer.signer
      acceptTransferSignatures := row.acceptTransferSignatures ++
        new.map SignRuneToEvmTransferAnswer.signature }
  valid : ∀ a ∈ new,
    service.validateSignRuneToEvmTransferAnswer views own.messageHash a = .ok ()
  nodup : (new.map SignRuneToEvmTransferAnswer.signer).Nodup
  fresh : ∀ a ∈ new, a.signer ∉ row.acceptTransferSigners
  complete : ∀ signer, signer = own.signer ∨ Answers service views network own peers signer →
    signer ∈ stored.acceptTransferSigners ∧ ∀ signature,
      (signer, signature) ∈ stored.acceptTransferSigners.zip stored.acceptTransferSignatures →
        service.recoverMessage own.messageHash signature = .ok signer

/-- The round stores the valid signatures and reports that there are enough. -/
def Unblocked (row : RuneDeposit Hash) (db : Db Hash) : Prop :=
  ∃ db' stored new, service.mintRound views network key own peers db = .ok (true, db') ∧
    db'.runeDeposits.get? key = some stored ∧
    StoresValid service views network own peers row stored new

/-- No peer does any harm: no exception but one of the transport is raised by calling a peer, by
deserializing what it returned, or by looking into it; and who answers now is not stored with a
signature for another mint. -/
structure Harmless (row : RuneDeposit Hash) : Prop where
  raises : ∀ e, PeerBehaviour.raises e ∉ peers
  readable : ∃ answers, List.Forall₂ (fun v answer => network.deserialize v = .ok answer)
      (PyroNetwork.returned peers) answers ∧
    service.Checkable views own.messageHash [] (own.toObject :: answers)
  stored : ∀ signer signature,
    (signer, signature) ∈ row.acceptTransferSigners.zip row.acceptTransferSignatures →
    signer = own.signer ∨ Answers service views network own peers signer →
      service.recoverMessage own.messageHash signature = .ok signer

end Round

section Unblocked

variable {Hash : Type} {service : RuneBridgeService Hash} {views : Views Hash}
  {network : PyroNetwork} {key : RuneDepositKey} {own : SignRuneToEvmTransferAnswer Hash}
  {peers : List PeerBehaviour} {row : RuneDeposit Hash} {db : Db Hash}

lemma Unblocked.harmless
    (hpaired : row.acceptTransferSigners.length = row.acceptTransferSignatures.length)
    (h : Unblocked service views network key own peers row db) :
    Harmless service views network own peers row := by
  obtain ⟨db', stored, new, hround, -, hstores⟩ := h
  obtain ⟨answers, hask, hupdate⟩ := bind_eq_ok.1 hround
  obtain ⟨hraises, hall⟩ := network.ask_eq_ok.1 hask
  obtain ⟨kept, hkept, -⟩ := RuneBridgeService.updateSignatures_eq_ok hupdate
  refine ⟨hraises, ⟨answers, hall, RuneBridgeService.checkable_of_pruneInvalidAnswers hkept⟩, ?_⟩
  intro signer signature hmem hanswers
  apply (hstores.complete signer hanswers).2 signature
  rw [hstores.added]
  change _ ∈ (row.acceptTransferSigners ++ _).zip (row.acceptTransferSignatures ++ _)
  rw [List.zip_append hpaired]
  exact List.mem_append_left _ hmem

/-- What is stored when all but the valid answers are pruned. -/
lemma storesValid_of_pruned {answers : List PyObject}
    {kept : List (SignRuneToEvmTransferAnswer Hash)}
    (hpaired : row.acceptTransferSigners.length = row.acceptTransferSignatures.length)
    (hown : service.validateSignRuneToEvmTransferAnswer views own.messageHash own = .ok ())
    (hall : List.Forall₂ (fun v answer => network.deserialize v = .ok answer)
      (PyroNetwork.returned peers) answers)
    (hpruned : RuneBridgeService.Pruned service views own.messageHash []
      (own.toObject :: answers) kept)
    (hstored : ∀ signer signature,
      (signer, signature) ∈ row.acceptTransferSigners.zip row.acceptTransferSignatures →
      signer = own.signer ∨ Answers service views network own peers signer →
        service.recoverMessage own.messageHash signature = .ok signer) :
    StoresValid service views network own peers row
      (kept.foldl RuneBridgeService.addSignature
        { row with acceptTransferMessageHash := some own.messageHash })
      (kept.filter fun a => a.signer ∉ row.acceptTransferSigners) where
  added := RuneBridgeService.foldl_addSignature_of_nodup _ hpruned.nodup
  valid a ha := hpruned.validated a (List.mem_of_mem_filter ha)
  nodup := hpruned.nodup.sublist ((List.filter_sublist).map _)
  fresh a ha := by simpa using (List.mem_filter.1 ha).2
  complete signer hanswers := by
    rw [RuneBridgeService.foldl_addSignature_of_nodup _ hpruned.nodup]
    have hkept : ∃ a ∈ kept, a.signer = signer := by
      have hvalid : ∃ answer ∈ own.toObject :: answers, ∃ signature,
          service.ValidAnswer views own.messageHash answer signer signature := by
        rcases hanswers with rfl | ⟨v, hv, answer, signature, hanswer, hvalid⟩
        · exact ⟨_, List.mem_cons_self, _, RuneBridgeService.validAnswer_toObject.2 hown⟩
        · obtain ⟨answer', hmem, hanswer'⟩ := Lists.exists_right_of_forall₂ hall hv
          obtain rfl : answer = answer' := Except.ok.inj (hanswer.symm.trans hanswer')
          exact ⟨answer, List.mem_cons_of_mem _ hmem, signature, hvalid⟩
      obtain ⟨answer, hmem, signature, hvalid⟩ := hvalid
      exact (hpruned.complete answer hmem signer signature hvalid).resolve_left (by simp)
    obtain ⟨a, ha, rfl⟩ := hkept
    constructor
    · by_cases hold : a.signer ∈ row.acceptTransferSigners
      · exact List.mem_append_left _ hold
      · apply List.mem_append_right
        exact List.mem_map_of_mem (List.mem_filter.2 ⟨ha, by simpa using hold⟩)
    · intro signature hmem
      change _ ∈ (row.acceptTransferSigners ++ _).zip (row.acceptTransferSignatures ++ _) at hmem
      rw [List.zip_append hpaired, List.mem_append] at hmem
      rcases hmem with hold | hnew
      · exact hstored a.signer signature hold hanswers
      · rw [List.zip_map', List.mem_map] at hnew
        obtain ⟨b, hb, heq⟩ := hnew
        obtain ⟨hsigner, rfl⟩ := Prod.mk.inj heq
        have hvalid := hpruned.validated b (List.mem_of_mem_filter hb)
        simp only [RuneBridgeService.validateSignRuneToEvmTransferAnswer, bind_eq_ok, exists_unit,
          require_eq_ok] at hvalid
        obtain ⟨_, -, -, recovered, hrecovered, rfl⟩ := hvalid
        rw [← hsigner]
        exact hrecovered

lemma Harmless.unblocked {numRequired : ℕ} {signers : List String}
    (hrow : db.runeDeposits.get? key = some row) (haccepted : row.status = .accepted)
    (hpaired : row.acceptTransferSigners.length = row.acceptTransferSignatures.length)
    (hnum : views.contract.numRequiredFederators = .ok numRequired)
    (hown : service.validateSignRuneToEvmTransferAnswer views own.messageHash own = .ok ())
    (hnodup : (own.signer :: signers).Nodup)
    (hsigners : ∀ signer ∈ signers, Answers service views network own peers signer)
    (henough : numRequired ≤ signers.length + 1)
    (h : Harmless service views network own peers row) :
    Unblocked service views network key own peers row db := by
  obtain ⟨answers, hall, hcheckable⟩ := h.readable
  have hask := network.ask_eq_ok.2 ⟨h.raises, hall⟩
  obtain ⟨kept, hkept, hpruned⟩ := RuneBridgeService.pruneInvalidAnswers_of_checkable hcheckable
  have hstores := storesValid_of_pruned hpaired hown hall hpruned h.stored
  refine ⟨db.setRuneDeposit key (kept.foldl RuneBridgeService.addSignature
    { row with acceptTransferMessageHash := some own.messageHash }), _, _, ?_, ?_, hstores⟩
  · simp only [RuneBridgeService.mintRound, RuneBridgeService.updateSignatures, hask, ok_bind,
      RuneBridgeService.runeDeposit_eq_ok.2 hrow, require_of haccepted, hkept, hnum, pure_eq_ok,
      Prod.mk.injEq, decide_eq_true_eq, and_true]
    -- each of the signers is stored, and each stored signer has a signature
    have hsubset : own.signer :: signers ⊆ row.acceptTransferSigners ++
        (kept.filter fun a => a.signer ∉ row.acceptTransferSigners).map
          SignRuneToEvmTransferAnswer.signer := by
      intro signer hmem
      have hcomplete := hstores.complete signer (by
        rcases List.mem_cons.1 hmem with rfl | hmem
        · exact .inl rfl
        · exact .inr (hsigners signer hmem))
      rw [hstores.added] at hcomplete
      exact hcomplete.1
    have hle := (hnodup.subperm hsubset).length_le
    rw [hstores.added]
    simp only [List.length_append, List.length_map, List.length_cons] at hle ⊢
    omega
  · rw [Db.setRuneDeposit, Table.get?_set, if_pos rfl]

end Unblocked

/-- **A mint is not blocked exactly when no peer does harm.**  Let a deposit be accepted, in a
database a node's transactions lead to, and let the leader and enough peers that the federators
required are reached have valid answers.  Then the round stores them, nothing invalid and no signer
twice, and reports that there are enough, if and only if the peers are harmless. -/
theorem mint_unblocked_iff {Hash : Type} {service : RuneBridgeService Hash} {views : Views Hash}
    {network : PyroNetwork} {key : RuneDepositKey} {own : SignRuneToEvmTransferAnswer Hash}
    {peers : List PeerBehaviour} {row : RuneDeposit Hash} {db : Db Hash} {numRequired : ℕ}
    {signers : List String}
    {tr : List (RuneBridgeService Hash × Views Hash × NodeTransaction Hash)}
    (hrun : NodeRun tr db) (hrow : db.runeDeposits.get? key = some row)
    (haccepted : row.status = .accepted)
    (hnum : views.contract.numRequiredFederators = .ok numRequired)
    (hown : service.validateSignRuneToEvmTransferAnswer views own.messageHash own = .ok ())
    (hnodup : (own.signer :: signers).Nodup)
    (hsigners : ∀ signer ∈ signers, Answers service views network own peers signer)
    (henough : numRequired ≤ signers.length + 1) :
    Unblocked service views network key own peers row db ↔
      Harmless service views network own peers row := by
  have hpaired := hrun.paired key row hrow
  constructor
  · intro h
    exact h.harmless hpaired
  · intro h
    exact h.unblocked hrow haccepted hpaired hnum hown hnodup hsigners henough

namespace ExampleNode

/-- An answer as it is sent. -/
def wireAnswer (signature signer : String) : PyValue :=
  .dict (.cons (.str "_is_dataclass") (.bool true)
    (.cons (.str "signature") (.str signature)
      (.cons (.str "signer") (.str signer) (.cons (.str "message_hash") (.str "") .nil))))

def pyroNetwork : PyroNetwork := ⟨fun _ => .error (.other "InvalidOperation")⟩

/-- The answer of the second federator. -/
def goodPeer : PeerBehaviour :=
  .returns (wireAnswer (answerOf '5' 6).signature (answerOf '5' 6).signer)

/-- And as it is received. -/
def receivedAnswer (signature signer : String) : PyObject :=
  .namespaceOf [("signature", .value (.str signature)), ("signer", .value (.str signer)),
    ("message_hash", .value (.str ""))]

lemma deserialize_wireAnswer (signature signer : String) :
    pyroNetwork.deserialize (wireAnswer signature signer) =
      .ok (receivedAnswer signature signer) := rfl

/-- What the scan and the checks compute here. -/
structure MintComputed : Prop where
  scan : ({ service '4' [] with config := config }.scanRuneDeposits mintViews addressDb).isOk = true
  row : (scanned.runeDeposits.get? mintKey).map
    (fun row => (row.status, row.acceptTransferSigners)) = some (.accepted, [])
  required : mintViews.contract.numRequiredFederators = .ok 2
  own : (service '4' []).validateSignRuneToEvmTransferAnswer mintViews
    (answerOf '4' 6).messageHash (answerOf '4' 6) = .ok ()
  peer : (service '4' []).validateAnswer mintViews (answerOf '4' 6).messageHash
    (receivedAnswer (answerOf '5' 6).signature (answerOf '5' 6).signer) (answerOf '5' 6).signer =
      .ok (answerOf '5' 6).signature
  signers : [(answerOf '4' 6).signer, (answerOf '5' 6).signer].Nodup
  pruned : ((service '4' []).pruneInvalidAnswers mintViews (answerOf '4' 6).messageHash []
    [(answerOf '4' 6).toObject, receivedAnswer "" "v",
      receivedAnswer (answerOf '5' 6).signature (answerOf '5' 6).signer]).isOk = true
  blocked : ((service '4' []).mintRound mintViews pyroNetwork mintKey (answerOf '4' 6)
    [.returns (wireAnswer "" "6"), goodPeer] scanned).isOk = false

lemma mintComputed : MintComputed where
  scan := by decide +kernel
  row := by decide +kernel
  required := by decide +kernel
  own := by decide +kernel
  peer := by decide +kernel
  signers := by decide +kernel
  pruned := by decide +kernel
  blocked := by decide +kernel

lemma nodeRun_scanned :
    ∃ tr : List (RuneBridgeService Bytes × Views Bytes × NodeTransaction Bytes),
      NodeRun tr scanned := by
  have haddress : (NodeTransaction.generateDepositAddress "u").run (service '4' []) mintViews
      Db.empty = .ok addressDb := by
    cases step_address with
    | transaction ht h => exact h
  have hscan : NodeTransaction.scanRuneDeposits.run (service '4' []) mintViews addressDb =
      .ok scanned := by
    cases @step_scan config addressDb (mintComputed).scan with
    | transaction ht h => exact h
  have hstart : NodeRun ([] : List (RuneBridgeService Bytes × _)) Db.empty := .init rfl
  exact ⟨_, (hstart.step (a := (service '4' [], mintViews, _)) haddress).step
    (a := (service '4' [], mintViews, _)) hscan⟩

lemma scanned_row : ∃ row, scanned.runeDeposits.get? mintKey = some row ∧
    row.status = .accepted ∧ row.acceptTransferSigners = [] := by
  obtain ⟨row, hrow, heq⟩ := Option.map_eq_some_iff.1 (mintComputed).row
  obtain ⟨hstatus, hsigners⟩ := Prod.mk.inj heq
  exact ⟨row, hrow, hstatus, hsigners⟩

lemma answers_goodPeer {peers : List PeerBehaviour} (h : goodPeer ∈ peers) :
    Answers (service '4' []) mintViews pyroNetwork (answerOf '4' 6) peers
      (answerOf '5' 6).signer :=
  ⟨_, List.mem_filterMap.2 ⟨goodPeer, h, rfl⟩, _, (answerOf '5' 6).signature,
    deserialize_wireAnswer _ _, rfl, (mintComputed).peer⟩

end ExampleNode

theorem mint_unblocked_iff_example :
    ∃ row, Unblocked (ExampleNode.service '4' []) ExampleNode.mintViews ExampleNode.pyroNetwork
      ExampleNode.mintKey (ExampleNode.answerOf '4' 6)
      [.communicationError, .returns (ExampleNode.wireAnswer "" "v"), ExampleNode.goodPeer] row
      ExampleNode.scanned := by
  obtain ⟨tr, hrun⟩ := ExampleNode.nodeRun_scanned
  obtain ⟨row, hrow, haccepted, hsigners⟩ := ExampleNode.scanned_row
  refine ⟨row, (@mint_unblocked_iff _ _ _ _ _ _ _ _ _ 2 [_] _ hrun hrow haccepted
    (ExampleNode.mintComputed).required (ExampleNode.mintComputed).own
    (ExampleNode.mintComputed).signers ?_ (by decide)).2
    ⟨by simp [ExampleNode.goodPeer], ?_, ?_⟩⟩
  · intro signer hsigner
    obtain rfl := List.mem_singleton.1 hsigner
    exact ExampleNode.answers_goodPeer (by simp)
  · refine ⟨_, .cons (ExampleNode.deserialize_wireAnswer _ _)
      (.cons (ExampleNode.deserialize_wireAnswer _ _) .nil), ?_⟩
    obtain ⟨kept, hkept⟩ := exists_ok_of_isOk (ExampleNode.mintComputed).pruned
    exact RuneBridgeService.checkable_of_pruneInvalidAnswers hkept
  · intro signer signature hmem
    rw [hsigners] at hmem
    exact absurd hmem (by simp)

/-- **A peer that blocks a mint.**  The leader and one of its peers have valid answers, and two are
enough; a federator whose answer comes first has a signature from which nothing can be recovered,
and nothing is stored. -/
theorem mint_blocked :
    ∃ (tr : List (RuneBridgeService Bytes × Views Bytes × NodeTransaction Bytes)) (row : _)
      (peers : List PeerBehaviour),
      NodeRun tr ExampleNode.scanned ∧
      ExampleNode.scanned.runeDeposits.get? ExampleNode.mintKey = some row ∧
      row.status = .accepted ∧
      ExampleNode.mintViews.contract.numRequiredFederators = .ok 2 ∧
      (ExampleNode.service '4' []).validateSignRuneToEvmTransferAnswer ExampleNode.mintViews
        (ExampleNode.answerOf '4' 6).messageHash (ExampleNode.answerOf '4' 6) = .ok () ∧
      (∃ signer ≠ (ExampleNode.answerOf '4' 6).signer, Answers (ExampleNode.service '4' [])
        ExampleNode.mintViews ExampleNode.pyroNetwork (ExampleNode.answerOf '4' 6) peers signer) ∧
      ¬ Unblocked (ExampleNode.service '4' []) ExampleNode.mintViews ExampleNode.pyroNetwork
        ExampleNode.mintKey (ExampleNode.answerOf '4' 6) peers row ExampleNode.scanned := by
  obtain ⟨tr, hrun⟩ := ExampleNode.nodeRun_scanned
  obtain ⟨row, hrow, haccepted, -⟩ := ExampleNode.scanned_row
  refine ⟨tr, row, [.returns (ExampleNode.wireAnswer "" "6"), ExampleNode.goodPeer], hrun, hrow,
    haccepted, (ExampleNode.mintComputed).required, (ExampleNode.mintComputed).own, ⟨_, ?_,
      ExampleNode.answers_goodPeer (by simp)⟩, ?_⟩
  · have hnodup := (ExampleNode.mintComputed).signers
    rw [List.nodup_cons, List.mem_singleton] at hnodup
    exact Ne.symm hnodup.1
  · rintro ⟨db', stored, new, hround, -⟩
    have hfails := (ExampleNode.mintComputed).blocked
    rw [hround] at hfails
    exact absurd hfails (by simp [Except.isOk, Except.toBool])

end NbteBridge
