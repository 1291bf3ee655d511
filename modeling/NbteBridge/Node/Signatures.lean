import NbteBridge.Foundations.Certificates
import NbteBridge.Foundations.Runs
import NbteBridge.Contracts.Effects
import NbteBridge.Contracts.Reference
import NbteBridge.Node.Contract
import NbteBridge.Node.DepositScan
import NbteBridge.Node.MintCheck
import NbteBridge.Node.TransactionEffects

/-!
# Collected mint signatures

A deposit gathers signatures over any number of iterations, while federators come and go on chain
and the node is restarted with other fees.  The signatures of a deposit are a certificate for the
message hash stored with them, as long as nothing is added to them under another hash; they are of
use on chain when that is the hash of the mint as it now stands, and their signers are federators
still.  The node checks neither (`CollectsFresh` says when both hold).
-/

namespace NbteBridge

open Checked Tables Runs Certificates NBTEBridgeAccessControl

/-! ## The node and the contracts -/

structure MintState (T R Hash : Type) where
  /-- What the node was last started with. -/
  config : RuneBridgeServiceConfig
  db : Db Hash
  world : World T R

/-- One round of collecting signatures for a deposit. -/
structure Collection (Hash : Type) where
  key : RuneDepositKey
  /-- What the node sees when it signs itself. -/
  signViews : Views Hash
  /-- What it sees when it validates the answers. -/
  updateViews : Views Hash
  /-- What came back from the peers. -/
  responses : List (SignRuneToEvmTransferAnswer Hash)

inductive MintAction (Hash Sig : Type)
  | contractCall (m : Msg) (call : Call Sig)
  | restart (config : RuneBridgeServiceConfig)
  | transaction (views : Views Hash) (t : NodeTransaction Hash)
  | collect (c : Collection Hash) (ready : Bool)

/-- The transactions that are no collection of signatures. -/
def NodeTransaction.isUpdate {Hash : Type} : NodeTransaction Hash → Bool
  | updateRuneDepositSignatures .. => true
  | _ => false

section System

variable {T R Hash Sig : Type} [Erc20 T] [AccessControlEnumerable R]
  (node : RuneBridgeService Hash) (abi : Abi Sig) (C : Crypto Hash Sig)

/-- The node as it is running. -/
def MintState.service (s : MintState T R Hash) : RuneBridgeService Hash :=
  { node with config := s.config }

/-- The answers of a round, the node's own first. -/
structure Collection.Asked (s : MintState T R Hash) (c : Collection Hash)
    (answers : List (SignRuneToEvmTransferAnswer Hash)) (messageHash : Hash) : Prop where
  asked : ∃ question own, RuneBridgeService.getSignRuneToEvmTransferQuestion c.key s.db =
      .ok question ∧
    (s.service node).answerSignRuneToEvmTransferQuestion c.signViews question = .ok own ∧
    answers = own :: c.responses ∧ messageHash = own.messageHash
  /-- The hash was computed by this bridge, in whatever state it then was. -/
  hashed : ∃ w : World T R, w.self = s.world.self ∧
    c.signViews.contract.Reads (w.contractViews abi C)
  checked : c.updateViews.contract.Reads (s.world.contractViews abi C)

/-- Contracts are called by anyone; the node runs its transactions, each from what it then sees, and
collects signatures. -/
inductive MintStep : MintState T R Hash → MintAction Hash Sig → MintState T R Hash → Prop
  | contractCall {s : MintState T R Hash} {m : Msg} {call : Call Sig} {world : World T R}
      (h : s.world.step C m call = .ok world) :
      MintStep s (.contractCall m call) { s with world := world }
  | restart {s : MintState T R Hash} {config : RuneBridgeServiceConfig} :
      MintStep s (.restart config) { s with config := config }
  | transaction {s : MintState T R Hash} {views : Views Hash} {t : NodeTransaction Hash}
      {db : Db Hash} (ht : t.isUpdate = false) (h : t.run (s.service node) views s.db = .ok db) :
      MintStep s (.transaction views t) { s with db := db }
  | collect {s : MintState T R Hash} {c : Collection Hash} {ready : Bool} {db : Db Hash}
      {answers : List (SignRuneToEvmTransferAnswer Hash)} {messageHash : Hash}
      (hasked : c.Asked node abi C s answers messageHash)
      (h : (s.service node).updateRuneDepositSignatures c.updateViews c.key messageHash answers
        s.db = .ok (ready, db)) :
      MintStep s (.collect c ready) { s with db := db }

/-- The node starts with an empty database. -/
def MintInit (s : MintState T R Hash) : Prop := s.db = Db.empty

/-! ## What is required of signatures -/

/-- The contract takes the signature for one of the signer over the mint with this hash. -/
def SignedOnChain (messageHash : Hash) (signer signature : String) : Prop :=
  ∃ address sig, abi.address signer = some address ∧ abi.bytes signature = some sig ∧
    C.recover (C.toEthSignedMessageHash messageHash) sig = some address

/-- A deposit's signatures are of use: they are by distinct current federators over the mint the
node would now ask for, in which state the contract accepts them. -/
structure UsableOnChain (s : MintState T R Hash) (key : RuneDepositKey) : Prop where
  usable : ∃ deposit ac t signatures signers,
    s.db.runeDeposits.get? key = some deposit ∧ s.world.accessControl = .ok ac ∧
    abi.transferFromBtc deposit.user.evmAddress key.runeNumber deposit.netAmountRaw key.txId
      key.vout = .ok t ∧
    (deposit.acceptTransferSignatures.take ac.numRequiredFederators).mapM abi.bytes =
      some signatures ∧
    signers.length = ac.numRequiredFederators ∧ signers.Nodup ∧
    (∀ a ∈ signers, ac.isFederator a = true) ∧
    List.Forall₂ (fun sig a => C.recover (C.toEthSignedMessageHash
      (getAcceptTransferFromBtcMessageHash C s.world.self t)) sig = some a) signatures signers ∧
    ac.checkFederatorSignatures C (getAcceptTransferFromBtcMessageHash C s.world.self t)
      signatures = .ok () ∧
    -- what is sent is this
    ∃ call db, RuneBridgeService.beginSendingRuneDeposit key ac.numRequiredFederators s.db =
      .ok (some call, db) ∧ abi.acceptTransferFromBtc call = .ok (t, signatures)

/-- A round of collecting for the mint `t` of a deposit can be relied on: the signatures it adds to,
if any, are over the hash it asks for, those of them that count are of federators, and the contract
recovers from the answers what the node does. -/
structure FreshFor (s : MintState T R Hash) (c : Collection Hash) (deposit : RuneDeposit Hash)
    (t : TransferFromBtc) (ac : NBTEBridgeAccessControl R) : Prop where
  hash : deposit.acceptTransferSignatures = [] ∨ deposit.acceptTransferMessageHash =
    some (getAcceptTransferFromBtcMessageHash C s.world.self t)
  federators : ∀ signer ∈ deposit.acceptTransferSigners.take ac.numRequiredFederators,
    ∀ a, abi.address signer = some a → ac.isFederator a = true
  canonical : ∀ answer ∈ c.responses,
    node.recoverMessage (getAcceptTransferFromBtcMessageHash C s.world.self t)
      answer.signature = .ok answer.signer →
    SignedOnChain abi C (getAcceptTransferFromBtcMessageHash C s.world.self t) answer.signer
      answer.signature

/-- A round of collecting is relied on for the mint the node would now ask for. -/
def CollectsFresh (s : MintState T R Hash) (c : Collection Hash) : Prop :=
  ∀ deposit t ac, s.db.runeDeposits.get? c.key = some deposit →
    abi.transferFromBtc deposit.user.evmAddress c.key.runeNumber deposit.netAmountRaw c.key.txId
      c.key.vout = .ok t →
    s.world.accessControl = .ok ac → FreshFor node abi C s c deposit t ac

/-- The condition on a step. -/
def MintCondition (s : MintState T R Hash) : MintAction Hash Sig → Prop
  | .collect c _ => CollectsFresh node abi C s c
  | _ => True

abbrev MintRun := Run (@MintInit T R Hash)
  fun s a s' => MintCondition node abi C s a ∧ MintStep node abi C s a s'

end System

/-! ## The invariant -/

/-- What was collected for a deposit, if anything, is a certificate for the hash stored with it. -/
def RuneDeposit.Certified {Hash Sig : Type} (abi : Abi Sig) (C : Crypto Hash Sig)
    (deposit : RuneDeposit Hash) : Prop :=
  (deposit.acceptTransferSigners = [] ∧ deposit.acceptTransferSignatures = []) ∨
    ∃ h, deposit.acceptTransferMessageHash = some h ∧ Certificate (SignedOnChain abi C h)
      deposit.acceptTransferSigners deposit.acceptTransferSignatures

/-- `row'` has what was collected for `row`. -/
structure RuneDeposit.SignaturesKept {Hash : Type} (row row' : RuneDeposit Hash) : Prop where
  messageHash : row'.acceptTransferMessageHash = row.acceptTransferMessageHash
  signatures : row'.acceptTransferSignatures = row.acceptTransferSignatures
  signers : row'.acceptTransferSigners = row.acceptTransferSigners

/-- No signatures are collected between `db` and `db'`. -/
def SignaturesKept {Hash : Type} (db db' : Db Hash) : Prop :=
  ∀ k row', db'.runeDeposits.get? k = some row' →
    (∃ row, db.runeDeposits.get? k = some row ∧ row.SignaturesKept row') ∨
      (row'.acceptTransferSigners = [] ∧ row'.acceptTransferSignatures = [])

section Invariant

variable {T R Hash Sig : Type} [Erc20 T] [AccessControlEnumerable R]
  {node : RuneBridgeService Hash} {abi : Abi Sig} {C : Crypto Hash Sig}
  {s s' : MintState T R Hash} {db db' : Db Hash}

lemma RuneDeposit.Certified.of_kept {row row' : RuneDeposit Hash} (h : row.Certified abi C)
    (hkept : row.SignaturesKept row') : row'.Certified abi C := by
  unfold RuneDeposit.Certified at *
  rw [hkept.messageHash, hkept.signatures, hkept.signers]
  exact h

lemma SignaturesKept.of_eq (h : db'.runeDeposits = db.runeDeposits) : SignaturesKept db db' :=
  fun _ row' hrow => .inl ⟨row', h ▸ hrow, rfl, rfl, rfl⟩

lemma SignaturesKept.setRuneDeposit {key : RuneDepositKey} {row row' : RuneDeposit Hash}
    (hrow : db.runeDeposits.get? key = some row) (hkept : row.SignaturesKept row') :
    SignaturesKept db (db.setRuneDeposit key row') := by
  intro k row'' hrow''
  rw [Db.setRuneDeposit, Table.get?_set] at hrow''
  by_cases hk : k = key
  · rw [if_pos hk] at hrow''
    obtain rfl := Option.some.inj hrow''
    exact .inl ⟨row, hk ▸ hrow, hkept⟩
  · rw [if_neg hk] at hrow''
    exact .inl ⟨row'', hrow'', rfl, rfl, rfl⟩

/-- A transaction that is no collection leaves the signatures alone, a rescan included. -/
lemma NodeTransaction.run_signaturesKept {service : RuneBridgeService Hash} {views : Views Hash}
    {t : NodeTransaction Hash} (hupdate : t.isUpdate = false)
    (ht : t.run service views db = .ok db') : SignaturesKept db db' := by
  cases NodeTransaction.run_effect ht with
  | unchanged => exact .of_eq rfl
  | addresses => exact .of_eq rfl
  | deposits hscan =>
      intro k row' hrow'
      rcases (RuneBridgeService.scanRuneDeposits_kept hscan).deposits_of k row' hrow' with
        ⟨row, hrow, hkept⟩ | ⟨-, hnew⟩
      · exact .inl ⟨row, hrow, hkept.messageHash, hkept.signatures, hkept.signers⟩
      · exact .inr ⟨hnew.signers, hnew.signatures⟩
  | tokenDeposits hscan =>
      exact .of_eq (RuneBridgeService.scanRuneTokenDeposits_ok hscan).runeDeposits
  | signatures => exact absurd hupdate (by simp [isUpdate])
  | deposit hrow => exact .setRuneDeposit hrow ⟨rfl, rfl, rfl⟩
  | tokenDeposit => exact .of_eq rfl

variable (abi C) in
structure MintInv (s : MintState T R Hash) : Prop where
  numbered : s.db.Numbered
  certified : ∀ k deposit, s.db.runeDeposits.get? k = some deposit → deposit.Certified abi C

/-! ## Its preservation -/

/-- What is added to a certificate keeps it one. -/
lemma certificate_foldl_addSignature {h : Hash} (deposit : RuneDeposit Hash)
    {answers : List (SignRuneToEvmTransferAnswer Hash)}
    (hcert : Certificate (SignedOnChain abi C h) deposit.acceptTransferSigners
      deposit.acceptTransferSignatures)
    (hanswers : ∀ answer ∈ answers, SignedOnChain abi C h answer.signer answer.signature) :
    Certificate (SignedOnChain abi C h)
      (answers.foldl RuneBridgeService.addSignature deposit).acceptTransferSigners
      (answers.foldl RuneBridgeService.addSignature deposit).acceptTransferSignatures := by
  induction answers generalizing deposit with
  | nil => exact hcert
  | cons answer answers ih =>
      rw [List.foldl_cons]
      apply ih
      · by_cases hold : answer.signer ∈ deposit.acceptTransferSigners
        · rw [RuneBridgeService.addSignature, if_pos hold]
          exact hcert
        · rw [RuneBridgeService.addSignature, if_neg hold]
          exact hcert.concat hold (hanswers answer List.mem_cons_self)
      · intro a ha
        exact hanswers a (List.mem_cons_of_mem _ ha)

omit [Erc20 T] in
/-- The hash a node signs is that of the mint it would send. -/
lemma Collection.Asked.hash_eq {c : Collection Hash}
    {answers : List (SignRuneToEvmTransferAnswer Hash)} {messageHash : Hash}
    (h : c.Asked node abi C s answers messageHash) (hs : s.db.Numbered) {deposit : RuneDeposit Hash}
    (hrow : s.db.runeDeposits.get? c.key = some deposit) :
    ∃ t own, abi.transferFromBtc deposit.user.evmAddress c.key.runeNumber deposit.netAmountRaw
      c.key.txId c.key.vout = .ok t ∧
      messageHash = getAcceptTransferFromBtcMessageHash C s.world.self t ∧
      answers = own :: c.responses ∧ own.signer = node.evmAccount.address ∧
      own.signature = node.evmAccount.signMessage messageHash := by
  obtain ⟨⟨question, own, hquestion, hown, rfl, rfl⟩, ⟨w, hself, hreads⟩, -⟩ := h
  simp only [RuneBridgeService.getSignRuneToEvmTransferQuestion, bind_eq_ok,
    RuneBridgeService.runeDeposit_eq_ok, exists_unit, require_eq_ok, pure_eq_ok] at hquestion
  obtain ⟨deposit', hrow', -, rfl⟩ := hquestion
  obtain rfl : deposit' = deposit := Option.some.inj (hrow'.symm.trans hrow)
  obtain ⟨-, rune, -, messageHash, -, -, hnumber, -, -, -, hhash, rfl⟩ :=
    RuneBridgeService.checked_of_answer hown
  have hreal := hreads.messageHash _ _ _ _ _ _ hhash
  simp only [World.contractViews, bind_eq_ok, pure_eq_ok] at hreal
  obtain ⟨t, ht, hhash'⟩ := hreal
  have hn : rune.n = c.key.runeNumber := hnumber.trans (hs.deposits _ _ hrow)
  rw [hn] at ht
  exact ⟨t, _, ht, by rw [← hself]; exact hhash'.symm, rfl, rfl, rfl⟩

omit [Erc20 T] in
/-- An answer that passes the validation is a signature for the contract, by a federator. -/
lemma signed_of_validated {c : Collection Hash} {deposit : RuneDeposit Hash} {t : TransferFromBtc}
    {ac : NBTEBridgeAccessControl R} {messageHash : Hash}
    {own answer : SignRuneToEvmTransferAnswer Hash}
    (hsigns : ∀ h, SignedOnChain abi C h node.evmAccount.address (node.evmAccount.signMessage h))
    (hreads : c.updateViews.contract.Reads (s.world.contractViews abi C))
    (hac : s.world.accessControl = .ok ac) (hfresh : FreshFor node abi C s c deposit t ac)
    (hhash : messageHash = getAcceptTransferFromBtcMessageHash C s.world.self t)
    (hsigner : own.signer = node.evmAccount.address)
    (hsignature : own.signature = node.evmAccount.signMessage messageHash)
    (hmem : answer ∈ own :: c.responses)
    (hvalid : (s.service node).validateSignRuneToEvmTransferAnswer c.updateViews messageHash
      answer = .ok ()) :
    SignedOnChain abi C messageHash answer.signer answer.signature ∧
      ∀ a, abi.address answer.signer = some a → ac.isFederator a = true := by
  simp only [RuneBridgeService.validateSignRuneToEvmTransferAnswer, bind_eq_ok, exists_unit,
    require_eq_ok] at hvalid
  obtain ⟨isFederator, hfederator, rfl, recovered, hrecovered, rfl⟩ := hvalid
  refine ⟨?_, fun a ha => ?_⟩
  · rcases List.mem_cons.1 hmem with rfl | hresponse
    · rw [hsigner, hsignature]
      exact hsigns messageHash
    · rw [hhash] at hrecovered ⊢
      exact hfresh.canonical answer hresponse hrecovered
  · have hreal := hreads.isFederator _ _ hfederator
    simp only [World.contractViews, bind_eq_ok, orError_eq_ok, ofCall_eq_ok, pure_eq_ok] at hreal
    obtain ⟨a', ha', ac', hac', hfed⟩ := hreal
    obtain rfl : a' = a := Option.some.inj (ha'.symm.trans ha)
    obtain rfl : ac' = ac := Except.ok.inj (hac'.symm.trans hac)
    exact hfed

/-- What a round that can be relied on leaves behind: the deposit with a certificate for its mint,
whose signers that count are federators. -/
structure Collected (abi : Abi Sig) (C : Crypto Hash Sig) (s : MintState T R Hash) (c : Collection Hash)
    (ready : Bool) (db : Db Hash) (deposit : RuneDeposit Hash) (t : TransferFromBtc)
    (ac : NBTEBridgeAccessControl R) : Prop where
  accessControl : s.world.accessControl = .ok ac
  transfer : abi.transferFromBtc deposit.user.evmAddress c.key.runeNumber deposit.netAmountRaw
    c.key.txId c.key.vout = .ok t
  status : deposit.status = .accepted
  messageHash : deposit.acceptTransferMessageHash =
    some (getAcceptTransferFromBtcMessageHash C s.world.self t)
  certificate : Certificate
    (SignedOnChain abi C (getAcceptTransferFromBtcMessageHash C s.world.self t))
    deposit.acceptTransferSigners deposit.acceptTransferSignatures
  federators : ∀ signer ∈ deposit.acceptTransferSigners.take ac.numRequiredFederators,
    ∀ a, abi.address signer = some a → ac.isFederator a = true
  ready : ready = decide (ac.numRequiredFederators ≤ deposit.acceptTransferSignatures.length)
  db : ∃ old, s.db.runeDeposits.get? c.key = some old ∧ deposit.rune = old.rune ∧
    db = s.db.setRuneDeposit c.key deposit

omit [Erc20 T] in
/-- **One round.** -/
lemma MintInv.collected {c : Collection Hash} {ready : Bool}
    {answers : List (SignRuneToEvmTransferAnswer Hash)} {messageHash : Hash}
    (hsigns : ∀ h, SignedOnChain abi C h node.evmAccount.address (node.evmAccount.signMessage h))
    (hinv : MintInv abi C s) (hasked : c.Asked node abi C s answers messageHash)
    (hfresh : CollectsFresh node abi C s c)
    (h : (s.service node).updateRuneDepositSignatures c.updateViews c.key messageHash answers
      s.db = .ok (ready, db)) :
    ∃ deposit t ac, Collected abi C s c ready db deposit t ac := by
  obtain ⟨old, kept, numRequired, deposit, hrow, hstatus, hkept, hnum, hdeposit, hready, hdb⟩ :=
    RuneBridgeService.updateRuneDepositSignatures_ok h
  obtain ⟨t, own, ht, hhash, rfl, hsigner, hsignature⟩ := hasked.hash_eq hinv.numbered hrow
  have hreal := hasked.checked.numRequiredFederators _ hnum
  simp only [World.contractViews, bind_eq_ok, ofCall_eq_ok, pure_eq_ok] at hreal
  obtain ⟨ac, hac, rfl⟩ := hreal
  have hfor := hfresh old t ac hrow ht hac
  have hvalid : ∀ answer ∈ kept, SignedOnChain abi C messageHash answer.signer answer.signature ∧
      ∀ a, abi.address answer.signer = some a → ac.isFederator a = true := by
    intro answer hanswer
    obtain ⟨hmem, hok⟩ := hkept answer hanswer
    exact signed_of_validated hsigns hasked.checked hac hfor hhash hsigner hsignature hmem hok
  -- what was stored is a certificate for the hash asked for, or empty
  have hold : Certificate (SignedOnChain abi C messageHash) old.acceptTransferSigners
      old.acceptTransferSignatures := by
    rcases hinv.certified _ _ hrow with ⟨hsigners, hsignatures⟩ | ⟨h', hstored, hcert⟩
    · rw [hsigners, hsignatures]
      exact .nil
    · rcases hfor.hash with hnone | hsame
      · have hlen := hcert.length_eq
        rw [hnone, List.length_nil, List.length_eq_zero_iff] at hlen
        rw [hlen, hnone]
        exact .nil
      · obtain rfl : h' = messageHash :=
          Option.some.inj (hstored.symm.trans (hsame.trans (congrArg some hhash.symm)))
        exact hcert
  obtain ⟨added, hadded, heq⟩ := RuneBridgeService.foldl_addSignature_eq kept
    { old with acceptTransferMessageHash := some messageHash }
  have hcert := certificate_foldl_addSignature
    { old with acceptTransferMessageHash := some messageHash } hold fun a ha => (hvalid a ha).1
  rw [← hdeposit] at hcert heq
  refine ⟨deposit, t, ac, hac, ?_, ?_, ?_, hhash ▸ hcert, ?_, hready, old, hrow, ?_, hdb⟩
  · rw [heq]
    exact ht
  · rw [heq]
    exact hstatus
  · rw [heq, ← hhash]
  · intro signer hsigner' a ha
    rw [heq, List.take_append] at hsigner'
    rcases List.mem_append.1 hsigner' with hfirst | hnew
    · exact hfor.federators signer hfirst a ha
    · obtain ⟨answer, hanswer, rfl⟩ := List.mem_map.1 (List.mem_of_mem_take hnew)
      exact (hvalid answer (hadded answer hanswer)).2 a ha
  · rw [heq]

omit [Erc20 T] in
lemma Collected.certified {c : Collection Hash} {ready : Bool} {deposit : RuneDeposit Hash}
    {t : TransferFromBtc} {ac : NBTEBridgeAccessControl R}
    (h : Collected abi C s c ready db deposit t ac) : deposit.Certified abi C :=
  .inr ⟨_, h.messageHash, h.certificate⟩

/-- **A step keeps the invariant.** -/
lemma MintInv.step {a : MintAction Hash Sig}
    (hsigns : ∀ h, SignedOnChain abi C h node.evmAccount.address (node.evmAccount.signMessage h))
    (hinv : MintInv abi C s) (hcond : MintCondition node abi C s a)
    (hstep : MintStep node abi C s a s') : MintInv abi C s' := by
  cases hstep with
  | contractCall h => exact ⟨hinv.numbered, hinv.certified⟩
  | restart => exact ⟨hinv.numbered, hinv.certified⟩
  | @transaction views t db ht h =>
      refine ⟨hinv.numbered.run h, fun k deposit hrow => ?_⟩
      rcases NodeTransaction.run_signaturesKept ht h k deposit hrow with
        ⟨old, hold, hkept⟩ | hnew
      · exact (hinv.certified k old hold).of_kept hkept
      · exact .inl hnew
  | @collect c ready db answers messageHash hasked h =>
      obtain ⟨deposit, t, ac, hcollected⟩ := hinv.collected hsigns hasked hcond h
      obtain ⟨old, hold, hrune, rfl⟩ := hcollected.db
      refine ⟨hinv.numbered.changeRuneDeposit hold hrune, fun k row hrow => ?_⟩
      change (s.db.setRuneDeposit c.key deposit).runeDeposits.get? k = some row at hrow
      rw [Db.setRuneDeposit, Table.get?_set] at hrow
      by_cases hk : k = c.key
      · rw [if_pos hk] at hrow
        rw [← Option.some.inj hrow]
        exact hcollected.certified
      · rw [if_neg hk] at hrow
        exact hinv.certified k row hrow

omit [Erc20 T] [AccessControlEnumerable R] in
lemma MintInit.inv (h : MintInit s) : MintInv abi C s := by
  unfold MintInit at h
  constructor
  · rw [h]
    exact .empty
  · intro k deposit hrow
    rw [h] at hrow
    exact absurd hrow (by simp [Db.empty])

omit [Erc20 T] in
/-- A certificate of enough federators passes the contract's check. -/
lemma Collected.usable {c : Collection Hash} {deposit : RuneDeposit Hash} {t : TransferFromBtc}
    {ac : NBTEBridgeAccessControl R} (hnonzero : ∀ h sig, C.recover h sig ≠ some 0)
    (h : Collected abi C s c true db deposit t ac) :
    UsableOnChain abi C { s with db := db } c.key := by
  have hlen : ac.numRequiredFederators ≤ deposit.acceptTransferSignatures.length := by
    simpa using h.ready.symm
  obtain ⟨old, -, -, rfl⟩ := h.db
  have hrow : (s.db.setRuneDeposit c.key deposit).runeDeposits.get? c.key = some deposit := by
    rw [Db.setRuneDeposit, Table.get?_set, if_pos rfl]
  -- each of the first signatures is one the contract takes, of a federator
  have hsignedBy : ∀ signer ∈ deposit.acceptTransferSigners.take ac.numRequiredFederators,
      ∀ signature, SignedOnChain abi C (getAcceptTransferFromBtcMessageHash C s.world.self t) signer
        signature → ∃ a sig, abi.address signer = some a ∧ abi.bytes signature = some sig ∧
        ac.SignedBy C (C.toEthSignedMessageHash
          (getAcceptTransferFromBtcMessageHash C s.world.self t)) (fun _ => pure ()) sig a := by
    intro signer hsigner signature hsigned
    obtain ⟨a, sig, ha, hsig, hrecover⟩ := hsigned
    refine ⟨a, sig, ha, hsig, hrecover, ?_, h.federators signer hsigner a ha, rfl⟩
    rintro rfl
    exact hnonzero _ _ hrecover
  obtain ⟨signers, signatures, hread, haddresses, hcert⟩ :=
    (h.certificate.take ac.numRequiredFederators).decode
      (fun a b a' => abi.address_inj a b a') hsignedBy
  have hsigners : signers.length = ac.numRequiredFederators := by
    rw [← haddresses.length_eq, List.length_take, h.certificate.length_eq, Nat.min_eq_left hlen]
  have hsigned := hcert.signed.flip
  refine ⟨deposit, ac, t, signatures, signers, hrow, h.accessControl, h.transfer, hread, hsigners,
    hcert.nodup, ?_, hsigned.imp fun _ _ hby => hby.recovered, ?_, ?_⟩
  · intro a ha
    obtain ⟨sig, -, hby⟩ := Lists.exists_left_of_forall₂ hsigned ha
    exact hby.federator
  · refine (checkFederatorSignatures_eq_ok C).2 ⟨?_, signers, hcert.nodup, hsigned⟩
    rw [← hcert.length_eq, hsigners]
  · refine ⟨_, _, RuneBridgeService.beginSendingRuneDeposit_eq_ok.2
      ⟨deposit, hrow, h.status, .inr ⟨hlen, rfl, rfl⟩⟩, ?_⟩
    simp only [Abi.acceptTransferFromBtc, h.transfer, hread, bind_eq_ok, orError_eq_ok, pure_eq_ok]
    exact ⟨t, rfl, signatures, rfl, rfl⟩

end Invariant

/-- **Collected signatures are usable.**  In every run in which each round of collecting adds to
signatures over the present hash, of signers who are federators still, a round that reports enough
of them leaves a deposit whose mint the contract accepts as it would be sent. -/
theorem collected_signatures_usable {T R Hash Sig : Type} [Erc20 T] [AccessControlEnumerable R]
    {node : RuneBridgeService Hash} {abi : Abi Sig} {C : Crypto Hash Sig}
    (hsigns : ∀ h, SignedOnChain abi C h node.evmAccount.address (node.evmAccount.signMessage h))
    (hnonzero : ∀ h sig, C.recover h sig ≠ some 0) {tr : List (MintAction Hash Sig)}
    {s s' : MintState T R Hash} (hrun : MintRun node abi C tr s) {c : Collection Hash}
    (hfresh : CollectsFresh node abi C s c) (hstep : MintStep node abi C s (.collect c true) s') :
    UsableOnChain abi C s' c.key := by
  have hinv : MintInv abi C s :=
    hrun.stateInvariant (fun _ h => h.inv) fun _ _ _ hi hs => hi.step hsigns hs.1 hs.2
  cases hstep with
  | @collect _ _ db answers messageHash hasked h =>
      obtain ⟨deposit, t, ac, hcollected⟩ := hinv.collected hsigns hasked hfresh h
      exact hcollected.usable hnonzero

/-! ## Runs -/

namespace ExampleNode

/-- Bytes of a text. -/
def bytesOf (cs : List Char) : Bytes := cs.map fun c => UInt8.ofNat c.toNat

lemma bytesOf_textOf (h : Bytes) : bytesOf (textOf h) = h := by
  have hbyte : ∀ b : UInt8, UInt8.ofNat (Char.ofNat b.toNat).toNat = b := by decide +kernel
  rw [bytesOf, textOf, List.map_map]
  exact (List.map_congr_left fun b _ => hbyte b).trans (List.map_id h)

/-- The address of a one-character text. -/
def addressOf (c : Char) : Address := BitVec.ofNat 160 c.toNat

lemma addressOf_inj {c d : Char} (h : addressOf c = addressOf d) : c = d := by
  have hlt (e : Char) : e.toNat < 2 ^ 160 := lt_trans e.val.toNat_lt (by decide)
  have hnat := congrArg BitVec.toNat h
  rw [addressOf, addressOf, BitVec.toNat_ofNat, BitVec.toNat_ofNat, Nat.mod_eq_of_lt (hlt c),
    Nat.mod_eq_of_lt (hlt d)] at hnat
  exact Char.toNat_inj.1 hnat

def address? (text : String) : Option Address :=
  match text.toList with
  | [c] => some (addressOf c)
  | _ => none

lemma eq_ofList_of_address? {text : String} {a : Address} (h : address? text = some a) :
    ∃ c, text = String.ofList [c] ∧ addressOf c = a := by
  unfold address? at h
  split at h
  · rename_i c hc
    exact ⟨c, by rw [← hc, String.ofList_toList], Option.some.inj h⟩
  · exact absurd h (by simp)

/-- A hash of one byte. -/
def crypto : Crypto Bytes (Address × Bytes) :=
  { ecdsaCrypto with keccak256 := fun bytes => [bytes.sum] }

lemma crypto_recover_ne_zero (h : Bytes) (s : Address × Bytes) : crypto.recover h s ≠ some 0 :=
  ecdsaCrypto_recover_ne_zero h s

/-- The bytes of a signature name its signer and the hash with its prefix. -/
def abi : Abi (Address × Bytes) where
  address := address?
  address_inj s s' a h h' := by
    obtain ⟨c, rfl, hc⟩ := eq_ofList_of_address? h
    obtain ⟨d, rfl, hd⟩ := eq_ofList_of_address? h'
    rw [addressOf_inj (hc.trans hd.symm)]
  bytes32 text := some (BitVec.ofNat 256 text.length)
  bytes text :=
    match text.toList with
    | [] => none
    | c :: cs => some (addressOf c, symbolicCrypto.toEthSignedMessageHash (bytesOf cs))

lemma signedOnChain_sign {c : Char} (hc : addressOf c ≠ 0) (h : Bytes) :
    SignedOnChain abi crypto h (String.ofList [c]) (sign c h) := by
  refine ⟨addressOf c, (addressOf c, symbolicCrypto.toEthSignedMessageHash h), ?_, ?_, ?_⟩
  · simp [abi, address?]
  · simp [abi, sign, bytesOf_textOf]
  · simp only [crypto, ecdsaCrypto, symbolicCrypto, if_neg hc, if_true]

lemma signedOnChain_of_recover {c : Char} (hc : addressOf c ≠ 0) {h : Bytes} {signature : String}
    (hrecover : recover h signature = .ok (String.ofList [c])) :
    SignedOnChain abi crypto h (String.ofList [c]) signature := by
  unfold recover at hrecover
  split at hrecover
  · exact absurd hrecover (by simp)
  · rename_i c' cs hlist
    have hsigner := Except.ok.inj hrecover
    split at hsigner
    · rename_i hcs
      obtain rfl : c' = c := by simpa using congrArg String.toList hsigner
      have hsign : signature = sign c' h := by
        rw [sign, ← hcs, ← hlist, String.ofList_toList]
      rw [hsign]
      exact signedOnChain_sign hc h
    · have hlength := congrArg (fun s => s.toList.length) hsigner
      rw [String.toList_ofList] at hlength
      exact absurd hlength (by simp)

/-- Three federators, the node being the first. -/
def contracts : World Balances RoleLists :=
  { Deployment.world with
    bridge := { RuneBridge.uninitialized with
      accessControl := 2
      tokensByRune := fun _ => 10 }
    accessControls := fun a =>
      if a = 2 then
        some ⟨(['4', '5', '6'].map addressOf).foldl
          (fun roles a => RoleLists.insert roles ROLE_FEDERATOR a)
          (NBTEBridgeAccessControl.construct 3).roles⟩
      else none }

/-- Eight units of rune B on every output. -/
def mintOrd : OrdApiClient where
  getRune name := .ok (if name = "B" then some ⟨⟨1, 1⟩, ⟨"B", "B", 0, false⟩⟩ else none)
  getOutput txid _ := .ok ⟨true, false, txid, 10000, [("B", ⟨8, 0⟩)], []⟩

/-- What the node sees of the contracts, and of a wallet that received a deposit. -/
def mintViews : Views Bytes :=
  { scanViews with
    ordClient := mintOrd
    contract := contracts.contractViews abi crypto }

def mintStart : MintState Balances RoleLists Bytes := ⟨config, Db.empty, contracts⟩

def mintKey : RuneDepositKey := ⟨"aa", 0, 1⟩

/-- The answer of a federator to the question of a mint of this amount. -/
def answerOf (c : Char) (netAmountRaw : ℤ) : SignRuneToEvmTransferAnswer Bytes :=
  let hash := ((mintViews.contract.getAcceptTransferFromBtcMessageHash "u" 1 netAmountRaw "aa"
    0).toOption).getD []
  ⟨sign c hash, String.ofList [c], hash⟩

lemma answerOf_signer (c : Char) (netAmountRaw : ℤ) :
    (answerOf c netAmountRaw).signer = String.ofList [c] := rfl

attribute [irreducible] answerOf

/-- A round of collecting in which these answers come back. -/
def collection (responses : List (SignRuneToEvmTransferAnswer Bytes)) : Collection Bytes where
  key := mintKey
  signViews := mintViews
  updateViews := mintViews
  responses := responses

/-- The database after a scan with this configuration. -/
@[irreducible] def afterScan (config : RuneBridgeServiceConfig) (db : Db Bytes) : Db Bytes :=
  ((({ service '4' [] with config := config }.scanRuneDeposits mintViews db).toOption).map
    Prod.snd).getD Db.empty

/-- And after a round of collecting in which these answers come back. -/
@[irreducible] def afterCollect (config : RuneBridgeServiceConfig) (netAmountRaw : ℤ)
    (responses : List (SignRuneToEvmTransferAnswer Bytes)) (db : Db Bytes) : Db Bytes :=
  let own := answerOf '4' netAmountRaw
  ((({ service '4' [] with config := config }.updateRuneDepositSignatures mintViews mintKey
    own.messageHash (own :: responses) db).toOption).map Prod.snd).getD Db.empty

/-- The fee doubled. -/
def dearConfig : RuneBridgeServiceConfig :=
  { config with runesToEvmFeePercentageDecimal := 50 }

def scanned : Db Bytes := afterScan config addressDb

/-- The node's own signature, for six units. -/
def collectedOnce : Db Bytes := afterCollect config 6 [] scanned

def rescanned : Db Bytes := afterScan dearConfig collectedOnce

/-- And another's, for four. -/
def collectedTwice : Db Bytes := afterCollect dearConfig 4 [answerOf '5' 4] rescanned

lemma step_address : MintStep (service '4' []) abi crypto mintStart
    (.transaction mintViews (.generateDepositAddress "u")) { mintStart with db := addressDb } := by
  obtain ⟨address, h⟩ := generateDepositAddress_addressDb
  refine .transaction rfl ?_
  show ((service '4' []).generateDepositAddress "u" Db.empty >>= fun r => pure r.2) = _
  rw [h]
  rfl

lemma step_restart (config : RuneBridgeServiceConfig) {s : MintState Balances RoleLists Bytes} :
    MintStep (service '4' []) abi crypto s (.restart config) ⟨config, s.db, s.world⟩ :=
  .restart

lemma step_scan {config : RuneBridgeServiceConfig} {db : Db Bytes}
    (h : ({ service '4' [] with config := config }.scanRuneDeposits mintViews db).isOk = true) :
    MintStep (service '4' []) abi crypto ⟨config, db, contracts⟩
      (.transaction mintViews .scanRuneDeposits) ⟨config, afterScan config db, contracts⟩ := by
  obtain ⟨⟨n, db'⟩, hscan⟩ := exists_ok_of_isOk h
  refine .transaction rfl ?_
  show ({ service '4' [] with config := config }.scanRuneDeposits mintViews db >>=
    fun r => pure r.2) = _
  rw [afterScan, hscan]
  rfl

lemma step_collect {config : RuneBridgeServiceConfig} {db : Db Bytes} (netAmountRaw : ℤ)
    (responses : List (SignRuneToEvmTransferAnswer Bytes)) (ready : Bool)
    (hown : (RuneBridgeService.getSignRuneToEvmTransferQuestion mintKey db >>= fun question =>
      { service '4' [] with config := config }.answerSignRuneToEvmTransferQuestion mintViews
        question) = .ok (answerOf '4' netAmountRaw))
    (h : (({ service '4' [] with config := config }.updateRuneDepositSignatures mintViews mintKey
      (answerOf '4' netAmountRaw).messageHash (answerOf '4' netAmountRaw :: responses)
      db).toOption).map Prod.fst = some ready) :
    MintStep (service '4' []) abi crypto ⟨config, db, contracts⟩
      (.collect (collection responses) ready)
      ⟨config, afterCollect config netAmountRaw responses db, contracts⟩ := by
  obtain ⟨question, hquestion, hanswer⟩ := bind_eq_ok.1 hown
  have hreads : mintViews.contract.Reads (contracts.contractViews abi crypto) := .refl _
  refine .collect ⟨⟨question, _, hquestion, hanswer, rfl, rfl⟩, ⟨contracts, rfl, hreads⟩, hreads⟩ ?_
  cases hupdate : { service '4' [] with config := config }.updateRuneDepositSignatures mintViews
      mintKey (answerOf '4' netAmountRaw).messageHash (answerOf '4' netAmountRaw :: responses)
      db with
  | error e =>
      rw [hupdate] at h
      exact absurd h (by simp [Except.toOption])
  | ok r =>
      rw [hupdate] at h
      obtain ⟨ready', db'⟩ := r
      obtain rfl : ready' = ready := Option.some.inj h
      refine hupdate.trans ?_
      simp only [afterCollect, hupdate]
      rfl

/-- Whether the contract accepts what was collected for a deposit. -/
def accepts (s : MintState Balances RoleLists Bytes) (key : RuneDepositKey) : PyResult Unit := do
  let deposit ← RuneBridgeService.runeDeposit key s.db
  let ac ← ofCall s.world.accessControl
  let t ← abi.transferFromBtc deposit.user.evmAddress key.runeNumber deposit.netAmountRaw
    key.txId key.vout
  let signatures ← orError
    ((deposit.acceptTransferSignatures.take ac.numRequiredFederators).mapM abi.bytes) .assertionError
  ofCall (ac.checkFederatorSignatures crypto
    (getAcceptTransferFromBtcMessageHash crypto s.world.self t) signatures)

lemma accepts_of_usable {s : MintState Balances RoleLists Bytes} {key : RuneDepositKey}
    (h : UsableOnChain abi crypto s key) : accepts s key = .ok () := by
  obtain ⟨deposit, ac, t, signatures, signers, hrow, hac, ht, hread, -, -, -, -, hcheck, -⟩ :=
    h.usable
  simp only [accepts, bind_eq_ok, RuneBridgeService.runeDeposit_eq_ok, ofCall_eq_ok,
    orError_eq_ok]
  exact ⟨deposit, hrow, ac, hac, t, ht, signatures, hread, hcheck⟩

end ExampleNode

theorem collected_signatures_usable_example :
    ∃ s : MintState Balances RoleLists Bytes,
      UsableOnChain ExampleNode.abi ExampleNode.crypto s ExampleNode.mintKey := by
  have hstart : MintInit ExampleNode.mintStart := rfl
  have hrun : MintRun (ExampleNode.service '4' []) ExampleNode.abi ExampleNode.crypto _
      ⟨ExampleNode.config, ExampleNode.scanned, ExampleNode.contracts⟩ :=
    ((Run.init hstart).step ⟨by exact trivial, ExampleNode.step_address⟩).step
      ⟨by exact trivial, ExampleNode.step_scan (by decide +kernel)⟩
  refine ⟨_, collected_signatures_usable (fun h => ?_)
    ExampleNode.crypto_recover_ne_zero hrun ?_
    (ExampleNode.step_collect 6 [ExampleNode.answerOf '5' 6] true (by decide +kernel)
      (by decide +kernel))⟩
  · exact ExampleNode.signedOnChain_sign (by decide) h
  · intro deposit t ac hrow ht hac
    have hempty : (ExampleNode.scanned.runeDeposits.get? ExampleNode.mintKey).map
        (fun d => (d.acceptTransferSignatures, d.acceptTransferSigners)) = some ([], []) := by
      decide +kernel
    rw [show ExampleNode.scanned.runeDeposits.get? ExampleNode.mintKey = some deposit from hrow]
      at hempty
    obtain ⟨hsignatures, hsigners⟩ := Prod.mk.inj (Option.some.inj hempty)
    refine ⟨.inl hsignatures, ?_, fun answer hanswer hrecovered => ?_⟩
    · rw [hsigners]
      simp
    · obtain rfl := List.mem_singleton.1 hanswer
      rw [ExampleNode.answerOf_signer] at hrecovered ⊢
      exact ExampleNode.signedOnChain_of_recover (by decide) hrecovered

/-- **Signatures for different mints.**  The node signs a mint of six units and has no answer; it is
restarted with another fee, finds four units in a rescan, and has one.  Two signatures are enough,
but its own is for the earlier mint. -/
theorem collected_signatures_unusable :
    ∃ (tr : List (MintAction Bytes (Address × Bytes))) (s s' : MintState Balances RoleLists Bytes)
      (c : Collection Bytes),
      Run MintInit (MintStep (ExampleNode.service '4' []) ExampleNode.abi ExampleNode.crypto) tr s ∧
      MintStep (ExampleNode.service '4' []) ExampleNode.abi ExampleNode.crypto s
        (.collect c true) s' ∧
      ¬ UsableOnChain ExampleNode.abi ExampleNode.crypto s' c.key := by
  have hstart : MintInit ExampleNode.mintStart := rfl
  have haddress := (Run.init hstart).step ExampleNode.step_address
  have hscan := haddress.step (ExampleNode.step_scan (by decide +kernel))
  have honce := hscan.step
    (ExampleNode.step_collect 6 [] false (by decide +kernel) (by decide +kernel))
  have hrestart := honce.step (ExampleNode.step_restart ExampleNode.dearConfig)
  have hrescan := hrestart.step (ExampleNode.step_scan (by decide +kernel))
  refine ⟨_, _, _, _, hrescan, ExampleNode.step_collect 4 [ExampleNode.answerOf '5' 4] true
    (by decide +kernel) (by decide +kernel), fun husable => ?_⟩
  have hrejects : (ExampleNode.accepts ⟨ExampleNode.dearConfig, ExampleNode.collectedTwice,
      ExampleNode.contracts⟩ ExampleNode.mintKey).isOk = false := by decide +kernel
  have haccepts := ExampleNode.accepts_of_usable husable
  change ExampleNode.accepts ⟨ExampleNode.dearConfig, ExampleNode.collectedTwice,
    ExampleNode.contracts⟩ ExampleNode.mintKey = .ok () at haccepts
  rw [haccepts] at hrejects
  exact absurd hrejects (by simp [Except.isOk, Except.toBool])

end NbteBridge
