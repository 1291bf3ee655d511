import NbteBridge.Contracts.TapLists
import NbteBridge.TapRsk.FinalizedBatches
import NbteBridge.TapRsk.SignatureOrder

/-!
# Each transfer with its own signatures

The signatures of a batch are collected in one transaction and sent from another.  In every run the
signatures stored for a batch are by federators, each of whom has signed all its transfers in some
order of their counters (`Gathered`).

From there every transfer goes out with its own signatures, in whatever order the database returns
the rows, when there is a signature and the counters are distinct (`ownSignatures_of_nodup`), and
only then (`nodup_of_ownSignatures`).  The scan sets no counters, so a batch of two deposits is
already beyond this.
-/

namespace NbteBridge

open Checked Effects Tables

namespace TapLeader

variable {Hash Sig : Type} {C : Crypto Hash Sig} {rskAccount : Address}
  {service : TapToRskService Hash Sig} {bridge : Address} {F : Set Address} {n : ℕ}
  {s s' : TapLeader Hash Sig} {i : ℕ}

/-! ## The federation -/

/-- The federators are members of `F`, and at least `n` signers are required. -/
structure Bounded (F : Set Address) (n : ℕ) (s : TapLeader Hash Sig) : Prop where
  federators : ∀ a ∈ s.chain.bridge.federators, a ∈ F
  required : n ≤ s.chain.bridge.numRequiredSigners.toNat

/-- The world in which the owner keeps to these bounds. -/
def boundedWorld (C : Crypto Hash Sig) (rskAccount : Address) (F : Set Address) (n : ℕ) :
    Effects.World (TapOp Hash Sig) TapOp.Resp PyError (TapLeader Hash Sig) where
  Does := Does C
  Moves s s' := Moves C rskAccount s s' ∧ Bounded F n s'

lemma Moves.self_eq (h : Moves C rskAccount s s') : s'.chain.self = s.chain.self := by
  cases h with
  | called hcall => exact TapWorld.self_of_step hcall
  | @mined i tx chain _ _ haccept =>
      have hstep : TapWorld.Step C s.chain
          (rskAccount, .acceptTransferFromTap tx.transfer tx.signatures) chain := haccept
      exact TapWorld.self_of_step hstep
  | reverted _ _ => rfl
  | deposited _ _ _ => rfl
  | answered _ _ => rfl

/-! ## The invariant -/

/-- The signature of a transfer, as the leader checks it. -/
def Signs (C : Crypto Hash Sig) (service : TapToRskService Hash Sig) (bridge : Address)
    (t : TransferFromTap) (signer : Address) (signature : Sig) : Prop :=
  service.recoverMessage (TapBridge.getTransferFromTapMessageHash C bridge t) signature = .ok signer

/-- The signatures are by members of `F`, each of whom has signed all transfers of a batch that has
any. -/
def SignedBy (C : Crypto Hash Sig) (service : TapToRskService Hash Sig) (bridge : Address)
    (F : Set Address) (s : TapLeader Hash Sig) (i : ℕ) (signatures : Table Address (List Sig)) :
    Prop :=
  s.db.members i ≠ [] → ∀ r ∈ signatures.rows, r.1 ∈ F ∧
    SignsInOrder (Signs C service bridge) ((s.db.members i).map countedTransfer) r.1 r.2

/-- What is true of the signatures of all batches. -/
structure Gathered (C : Crypto Hash Sig) (service : TapToRskService Hash Sig) (bridge : Address)
    (F : Set Address) (n : ℕ) (s : TapLeader Hash Sig) : Prop where
  self : s.chain.self = bridge
  bounded : Bounded F n s
  assigned : ∀ i, s.db.members i ≠ [] → i ∈ s.db.batches.keys
  outpoints : (s.db.transfers.rows.map fun p => p.2.outpoint).Nodup
  signed : ∀ i b, s.db.batches.get? i = some b → SignedBy C service bridge F s i b.signatures
  enough : ∀ i b, s.db.batches.get? i = some b → b.status = .signaturesCollected →
    n ≤ b.signatures.rows.length + 1

lemma Kept.signedBy (h : Kept s s') {signatures : Table Address (List Sig)}
    (hsigned : SignedBy C service bridge F s i signatures) :
    SignedBy C service bridge F s' i signatures := by
  rw [SignedBy, h.members]
  exact hsigned

lemma gathered_of_started (h : s.Started) (hbounded : Bounded F n s)
    (hself : s.chain.self = bridge) : Gathered C service bridge F n s := by
  obtain ⟨hdb, -⟩ := h
  refine ⟨hself, hbounded, ?_, ?_, ?_, ?_⟩
  · intro i hi
    rw [hdb] at hi
    exact absurd rfl hi
  · rw [hdb]
    exact List.nodup_nil
  · intro i b hb
    rw [hdb] at hb
    cases hb
  · intro i b hb
    rw [hdb] at hb
    cases hb

lemma Gathered.sent (hs : Gathered C service bridge F n s) (sent : List (SentTx Sig)) :
    Gathered C service bridge F n { s with sent := sent } :=
  ⟨hs.self, ⟨hs.bounded.federators, hs.bounded.required⟩, hs.assigned, hs.outpoints, hs.signed,
    hs.enough⟩

/-- **The world's moves.** -/
lemma Moves.gathered (h : Moves C rskAccount s s') (hbounded : Bounded F n s')
    (hs : Gathered C service bridge F n s) : Gathered C service bridge F n s' := by
  have hkept := h.kept
  -- the only new rows are of batches without transfers
  have hbatch : ∀ i b, s'.db.batches.get? i = some b → s.db.batches.get? i = some b ∨
      (s'.db.members i = [] ∧ b.status = .created) := by
    cases h with
    | called _ => exact fun i b hb => .inl hb
    | mined _ _ _ => exact fun i b hb => .inl hb
    | reverted _ _ => exact fun i b hb => .inl hb
    | deposited _ _ _ => exact fun i b hb => .inl hb
    | answered hcreated hunsent =>
        intro i b hb
        rw [TapDb.setBatch, Table.get?_set] at hb
        by_cases hi : i = s.db.nextBatchId
        · rw [if_pos hi] at hb
          obtain rfl := Option.some.inj hb
          refine .inr ⟨?_, hcreated⟩
          by_contra hne
          exact nextBatchId_notMem s.db (hi ▸ hs.assigned i hne)
        · rw [if_neg hi] at hb
          exact .inl hb
  refine ⟨h.self_eq.trans hs.self, hbounded, ?_, ?_, ?_, ?_⟩
  · intro i hi
    rw [hkept.members] at hi
    obtain ⟨b, hb⟩ := Table.mem_keys.1 (hs.assigned i hi)
    exact Table.mem_keys.2 ⟨b, hkept.batch i b hb⟩
  · cases h with
    | called _ => exact hs.outpoints
    | mined _ _ _ => exact hs.outpoints
    | reverted _ _ => exact hs.outpoints
    | answered _ _ => exact hs.outpoints
    | @deposited dbId t hnew _ hunseen =>
        rw [TapDb.setTransfer, Table.rows_set_of_get?_eq_none t hnew, List.map_append,
          List.map_singleton]
        refine hs.outpoints.append (List.nodup_singleton _) ?_
        simpa using fun a b hab => hunseen (a, b) hab
  · intro i b hb hne
    rcases hbatch i b hb with hb | ⟨hnone, -⟩
    · exact hkept.signedBy (hs.signed i b hb) hne
    · exact absurd hnone hne
  · intro i b hb hcollected
    rcases hbatch i b hb with hb | ⟨-, hcreated⟩
    · exact hs.enough i b hb hcollected
    · rw [hcreated] at hcollected
      cases hcollected

/-! ## The calls -/

lemma within_bounded : Within C rskAccount (boundedWorld C rskAccount F n)
    (Gathered C service bridge F n) where
  does _ _ _ _ h := h
  moves _ _ h := h.1
  keeps _ _ hs h := h.1.gathered h.2 hs

/-- What the program keeps, and what is true if it returns. -/
abbrev KeepsGathered {α : Type} (C : Crypto Hash Sig) (rskAccount : Address)
    (service : TapToRskService Hash Sig) (bridge : Address) (F : Set Address) (n : ℕ)
    (p : TapProg Hash Sig α) (Q : α → TapLeader Hash Sig → Prop) (s : TapLeader Hash Sig) : Prop :=
  Ensures (boundedWorld C rskAccount F n) (Gathered C service bridge F n) p Q s

lemma gathered_call {o : TapOp Hash Sig} {Q : o.Resp → TapLeader Hash Sig → Prop}
    (hs : Gathered C service bridge F n s)
    (h : ∀ s₁ a sent, Gathered C service bridge F n s₁ → s₁.Answers C o a sent →
      Kept s { s₁ with sent := sent } → Q a { s₁ with sent := sent })
    (ho : ∀ (β : Type) (body : Ordering → TapDb Hash Sig → PyResult (β × TapDb Hash Sig)),
      o ≠ .transaction body) :
    KeepsGathered C rskAccount service bridge F n (Prog.perform o)
      (fun a s' => Gathered C service bridge F n s' ∧ Kept s s' ∧ Q a s') s := by
  apply within_bounded.call hs _ _ ho
  · exact fun s₁ r sent hs₁ _ => hs₁.sent sent
  · intro s₁ a sent hkept hs₁ hanswer _
    have hkept' := hkept.trans hanswer.kept
    exact ⟨hs₁.sent sent, hkept', h s₁ a sent hs₁ hanswer hkept'⟩

/-! ## Collecting signatures -/

lemma gathered_checkSignatures {signer : Address}
    {pairs : List (SerializedTapToRskTransfer Hash × Sig)} (hs : Gathered C service bridge F n s) :
    KeepsGathered C rskAccount service bridge F n (service.checkSignatures signer pairs)
      (fun ok s' => Gathered C service bridge F n s' ∧ Kept s s' ∧
        (ok = true → ∀ p ∈ pairs, Signs C service bridge p.1.toTransferFromTap signer p.2)) s := by
  induction pairs generalizing s with
  | nil => exact ensures_pure.2 ⟨hs, Kept.refl s, by simp⟩
  | cons pair pairs ih =>
      obtain ⟨transfer, signature⟩ := pair
      apply Ensures.bind (R := fun messageHash s' => Gathered C service bridge F n s' ∧ Kept s s' ∧
        messageHash = TapBridge.getTransferFromTapMessageHash C bridge transfer.toTransferFromTap)
      · apply gathered_call hs
        · intro s₁ messageHash sent hs₁ hanswer _
          rw [hanswer.1, hs₁.self]
        · rintro β body ⟨⟩
      rintro messageHash s₁ ⟨hs₁, hkept₁, rfl⟩
      apply Ensures.bind (R := fun recovered s' => s' = s₁ ∧
        Signs C service bridge transfer.toTransferFromTap recovered signature)
      · exact ensures_lift.2 fun recovered hrecovered => ⟨rfl, hrecovered⟩
      rintro recovered s₂ ⟨rfl, hsigns⟩
      by_cases hne : recovered ≠ signer
      · rw [if_pos hne]
        exact ensures_pure.2 ⟨hs₁, hkept₁, by simp⟩
      rw [if_neg hne]
      obtain rfl := not_ne_iff.1 hne
      apply (ih hs₁).mono
      rintro ok s₃ ⟨hs₃, hkept₃, hrest⟩
      refine ⟨hs₃, hkept₁.trans hkept₃, fun hok => ?_⟩
      exact List.forall_mem_cons.2 ⟨hsigns, hrest hok⟩

/-- What the program has read of a batch to have it signed: its transfers, in some order of their
counters. -/
def Loaded (s : TapLeader Hash Sig) (c : CurrentBatch Hash Sig) : Prop :=
  ∃ ordered : List (Option ℕ × TransferFromTap),
    ordered.Perm ((s.db.members c.batchId).map countedTransfer) ∧ InCounterOrder ordered ∧
    c.serializedBatch.transfers.map (fun t => t.toTransferFromTap) = ordered.map Prod.snd ∧
    c.numTransfers = ordered.length

lemma Kept.loaded (h : Kept s s') {c : CurrentBatch Hash Sig} (hc : Loaded s c) : Loaded s' c := by
  rw [Loaded, h.members]
  exact hc

/-- A checked answer signs what was loaded. -/
lemma signsInOrder_of_checked {c : CurrentBatch Hash Sig} (hc : Loaded s c) {signer : Address}
    {answer : List Sig} (hlength : answer.length = c.numTransfers)
    (hsigns : ∀ p ∈ c.serializedBatch.transfers.zip answer,
      Signs C service bridge p.1.toTransferFromTap signer p.2) :
    SignsInOrder (Signs C service bridge) ((s.db.members c.batchId).map countedTransfer) signer
      answer := by
  obtain ⟨ordered, hperm, hordered, htransfers, hnum⟩ := hc
  refine ⟨ordered, hperm, hordered, ?_⟩
  have hsame : c.serializedBatch.transfers.length = ordered.length := by
    simpa using congrArg List.length htransfers
  have hpairs : List.Forall₂ (fun t signature => Signs C service bridge
      (SerializedTapToRskTransfer.toTransferFromTap t) signer signature)
        c.serializedBatch.transfers answer :=
    List.forall₂_iff_zip.2 ⟨hsame.trans (hnum.symm.trans hlength.symm),
      fun {t signature} h => hsigns (t, signature) h⟩
  have hmapped : List.Forall₂ (fun t signature => Signs C service bridge t signer signature)
      (c.serializedBatch.transfers.map fun t => t.toTransferFromTap) answer :=
    List.forall₂_map_left_iff.2 hpairs
  rw [htransfers] at hmapped
  exact List.forall₂_map_left_iff.1 hmapped

lemma gathered_collectSignatures {federators : List Address} {c : CurrentBatch Hash Sig}
    {signatures : Table Address (List Sig)} {responses : List (SignTransferBatchAnswer Sig)}
    (hs : Gathered C service bridge F n s) (hfederators : ∀ a ∈ federators, a ∈ F)
    (hc : Loaded s c) (hsigned : SignedBy C service bridge F s c.batchId signatures) :
    KeepsGathered C rskAccount service bridge F n
      (service.collectSignatures federators c signatures responses)
      (fun signatures' s' => Gathered C service bridge F n s' ∧ Kept s s' ∧
        SignedBy C service bridge F s' c.batchId signatures') s := by
  induction responses generalizing s signatures with
  | nil => exact ensures_pure.2 ⟨hs, Kept.refl s, hsigned⟩
  | cons response responses ih =>
      rw [TapToRskService.collectSignatures]
      by_cases hfederator : response.signer ∉ federators
      · rw [if_pos hfederator]
        exact ih hs hc hsigned
      rw [if_neg hfederator]
      by_cases hlength : response.signatures.length ≠ c.numTransfers
      · rw [if_pos hlength]
        exact ih hs hc hsigned
      rw [if_neg hlength]
      rw [not_not] at hfederator hlength
      apply Ensures.bind (gathered_checkSignatures hs)
      rintro ok s₁ ⟨hs₁, hkept₁, hok⟩
      have hsigned₁ : SignedBy C service bridge F s₁ c.batchId
          (if ok then signatures.set response.signer response.signatures else signatures) := by
        cases ok with
        | false => exact hkept₁.signedBy hsigned
        | true =>
            intro hne r hr
            rcases Table.mem_rows_set hr with rfl | hr
            · exact ⟨hfederators _ hfederator,
                signsInOrder_of_checked (hkept₁.loaded hc) hlength (hok rfl)⟩
            · exact hkept₁.signedBy hsigned hne r hr
      apply (ih hs₁ (hkept₁.loaded hc) hsigned₁).mono
      rintro signatures' s₂ ⟨hs₂, hkept₂, hsigned₂⟩
      exact ⟨hs₂, hkept₁.trans hkept₂, hsigned₂⟩

/-! ## The rows of a batch -/

/-- A batch whose new row has signatures of its transfers. -/
lemma gathered_setBatch (hs : Gathered C service bridge F n s)
    {b : TapToRskTransferBatch Hash Sig} (hsigned : SignedBy C service bridge F s i b.signatures)
    (henough : b.status = .signaturesCollected → n ≤ b.signatures.rows.length + 1) :
    Gathered C service bridge F n { s with db := s.db.setBatch i b } where
  self := hs.self
  bounded := ⟨hs.bounded.federators, hs.bounded.required⟩
  assigned j hj := Table.mem_keys_set (hs.assigned j hj)
  outpoints := hs.outpoints
  signed j c hc := by
    rw [TapDb.setBatch, Table.get?_set] at hc
    by_cases hj : j = i
    · subst hj
      rw [if_pos rfl] at hc
      obtain rfl := Option.some.inj hc
      exact hsigned
    · rw [if_neg hj] at hc
      exact hs.signed j c hc
  enough j c hc hcollected := by
    rw [TapDb.setBatch, Table.get?_set] at hc
    by_cases hj : j = i
    · subst hj
      rw [if_pos rfl] at hc
      obtain rfl := Option.some.inj hc
      exact henough hcollected
    · rw [if_neg hj] at hc
      exact hs.enough j c hc hcollected

/-- A batch that leaves the status it is sent from keeps its signatures. -/
lemma gathered_leave (hs : Gathered C service bridge F n s)
    {b b' : TapToRskTransferBatch Hash Sig} (hb : s.db.batches.get? i = some b)
    (hsignatures : b'.signatures = b.signatures) (hstatus : b'.status ≠ .signaturesCollected) :
    Gathered C service bridge F n { s with db := s.db.setBatch i b' } := by
  apply gathered_setBatch hs
  · rw [hsignatures]
    exact hs.signed i b hb
  · exact fun hcollected => absurd hcollected hstatus

lemma gathered_storeSignatures {c : CurrentBatch Hash Sig}
    {signatures : Table Address (List Sig)} {numRequiredSigners : ℕ}
    {status : TapToRskTransferBatchStatus} {db : TapDb Hash Sig}
    (hs : Gathered C service bridge F n s) (hc : IsCurrent s c) (hcreated : c.status = .created)
    (hrequired : n ≤ numRequiredSigners)
    (hsigned : SignedBy C service bridge F s c.batchId signatures)
    (h : TapToRskService.storeSignatures c signatures ((numRequiredSigners : ℤ) - 1) s.db =
      .ok (status, db)) : Gathered C service bridge F n { s with db := db } := by
  simp only [TapToRskService.storeSignatures, bind_eq_ok, getBatch_eq_ok, pure_eq_ok,
    Prod.mk.injEq] at h
  obtain ⟨b, hb, -, rfl⟩ := h
  obtain ⟨b', hb', hstatus, -⟩ := hc
  obtain rfl : b = b' := Option.some.inj (hb.symm.trans hb')
  refine gathered_setBatch hs hsigned fun hcollected => ?_
  have hlength : signatures.keys.length = signatures.rows.length := List.length_map _
  by_cases henough : (numRequiredSigners : ℤ) - 1 ≤ (signatures.keys.length : ℤ)
  · show n ≤ signatures.rows.length + 1
    omega
  · rw [if_neg henough, hstatus, hcreated] at hcollected
    cases hcollected

lemma gathered_collect {c : CurrentBatch Hash Sig} (hs : Gathered C service bridge F n s)
    (hc : IsCurrent s c) (hloaded : Loaded s c) (hcreated : c.status = .created) :
    KeepsGathered C rskAccount service bridge F n (service.collect c)
      (fun _ s' => Gathered C service bridge F n s') s := by
  rw [TapToRskService.collect]
  apply Ensures.bind (R := fun federators s' => Gathered C service bridge F n s' ∧ Kept s s' ∧
    ∀ a ∈ federators, a ∈ F)
  · apply gathered_call hs
    · intro s₁ federators sent hs₁ hanswer _
      rw [hanswer.1]
      exact hs₁.bounded.federators
    · rintro β body ⟨⟩
  rintro federators s₁ ⟨hs₁, hkept₁, hfederators⟩
  apply Ensures.bind (R := fun numRequiredSigners s' => Gathered C service bridge F n s' ∧
    Kept s₁ s' ∧ n ≤ numRequiredSigners)
  · apply gathered_call hs₁
    · intro s₂ numRequiredSigners sent hs₂ hanswer _
      rw [hanswer.1]
      exact hs₂.bounded.required
    · rintro β body ⟨⟩
  rintro numRequiredSigners s₂ ⟨hs₂, hkept₂, hrequired⟩
  apply Ensures.bind (R := fun _ s' => Gathered C service bridge F n s' ∧ Kept s₂ s' ∧ True)
  · apply gathered_call hs₂
    · exact fun _ _ _ _ _ _ => trivial
    · rintro β body ⟨⟩
  rintro responses s₃ ⟨hs₃, hkept₃, _⟩
  have hkept := (hkept₁.trans hkept₂).trans hkept₃
  have hsigned : SignedBy C service bridge F s₃ c.batchId c.signaturesBySigner := by
    obtain ⟨b, hb, -, hsignatures, -⟩ := hkept.isCurrent hc
    rw [← hsignatures]
    exact hs₃.signed _ b hb
  apply Ensures.bind (gathered_collectSignatures hs₃ hfederators (hkept.loaded hloaded) hsigned)
  rintro signatures s₄ ⟨hs₄, hkept₄, hsigned₄⟩
  apply Ensures.bind (R := fun _ s' => Gathered C service bridge F n s' ∧ True)
  · apply within_bounded.transaction hs₄
    intro s₅ σ status db hs₅ hkept₅ hstore
    have hc₅ := ((hkept.trans hkept₄).trans hkept₅).isCurrent hc
    exact ⟨gathered_storeSignatures hs₅ hc₅ hcreated hrequired (hkept₅.signedBy hsigned₄) hstore,
      trivial⟩
  · rintro status s₆ ⟨hs₆, _⟩
    exact ensures_pure.2 hs₆

/-! ## Sending and finalizing -/

lemma gathered_sendAll {calls : List (TransferFromTap × List Sig)}
    (hs : Gathered C service bridge F n s) :
    KeepsGathered C rskAccount service bridge F n (TapToRskService.sendAll i calls)
      (fun _ s' => Gathered C service bridge F n s') s := by
  induction calls generalizing s with
  | nil => exact ensures_pure.2 hs
  | cons call calls ih =>
      obtain ⟨transfer, signatures⟩ := call
      rw [TapToRskService.sendAll]
      apply Ensures.bind (R := fun _ s' => Gathered C service bridge F n s' ∧ Kept s s' ∧ True)
      · apply gathered_call hs
        · exact fun _ _ _ _ _ _ => trivial
        · rintro β body ⟨⟩
      rintro txHash s₁ ⟨hs₁, _⟩
      apply Ensures.bind (ih hs₁)
      intro txHashes s₂ hs₂
      exact ensures_pure.2 hs₂

/-- A transaction that takes a batch out of the status it is sent from, or leaves it. -/
lemma gathered_transaction {α : Type}
    {body : Ordering → TapDb Hash Sig → PyResult (α × TapDb Hash Sig)}
    (hs : Gathered C service bridge F n s)
    (h : ∀ σ db a db', body σ db = .ok (a, db') → db' = db ∨
      ∃ i b b', db.batches.get? i = some b ∧ b'.signatures = b.signatures ∧
        b'.status ≠ .signaturesCollected ∧ db' = db.setBatch i b') :
    KeepsGathered C rskAccount service bridge F n (TapProg.transaction body)
      (fun _ s' => Gathered C service bridge F n s') s := by
  apply (within_bounded.transaction (Q := fun _ _ => True) hs _).mono fun _ _ h => h.1
  intro s₁ σ a db hs₁ _ hbody
  refine ⟨?_, trivial⟩
  rcases h σ s₁.db a db hbody with rfl | ⟨i, b, b', hb, hsignatures, hstatus, rfl⟩
  · exact hs₁
  · exact gathered_leave hs₁ hb hsignatures hstatus

lemma gathered_send {signatures : Table Address (List Sig)}
    (hs : Gathered C service bridge F n s) :
    KeepsGathered C rskAccount service bridge F n (TapToRskService.send i signatures)
      (fun _ s' => Gathered C service bridge F n s') s := by
  rw [TapToRskService.send]
  apply Ensures.bind (R := fun _ s' => Gathered C service bridge F n s')
  · apply gathered_transaction hs
    intro σ db calls db' hstart
    simp only [TapToRskService.startSending, bind_eq_ok, getBatch_eq_ok, pure_eq_ok,
      Prod.mk.injEq] at hstart
    obtain ⟨b, hb, -, rfl⟩ := hstart
    exact .inr ⟨i, b, { b with status := .sendingToRsk }, hb, rfl, by simp, rfl⟩
  intro calls s₁ hs₁
  apply Ensures.bind (gathered_sendAll hs₁)
  intro txHashes s₂ hs₂
  apply gathered_transaction hs₂
  intro σ db status db' hfinish
  simp only [TapToRskService.finishSending, bind_eq_ok, getBatch_eq_ok, pure_eq_ok,
    Prod.mk.injEq] at hfinish
  obtain ⟨b, hb, txHash, -, -, rfl⟩ := hfinish
  exact .inr ⟨i, b, { b with status := .sentToRsk, executedTxHash := some txHash }, hb, rfl,
    by simp, rfl⟩

lemma gathered_finalize (hs : Gathered C service bridge F n s) :
    KeepsGathered C rskAccount service bridge F n (TapToRskService.finalize i)
      (fun _ _ => True) s := by
  rw [TapToRskService.finalize]
  apply Ensures.bind (R := fun _ s' => Gathered C service bridge F n s')
  · apply gathered_transaction hs
    intro σ db txHash db' hread
    simp only [bind_eq_ok, getBatch_eq_ok, pure_eq_ok, Prod.mk.injEq] at hread
    obtain ⟨b, -, -, rfl⟩ := hread
    exact .inl rfl
  intro txHash s₁ hs₁
  apply Ensures.bind (R := fun _ s' => Gathered C service bridge F n s' ∧ Kept s₁ s' ∧ True)
  · apply gathered_call hs₁
    · exact fun _ _ _ _ _ _ => trivial
    · rintro β body ⟨⟩
  rintro status s₂ ⟨hs₂, _⟩
  cases status with
  | false => exact ensures_throw
  | true =>
      apply (gathered_transaction hs₂ _).mono fun _ _ _ => trivial
      intro σ db a db' hset
      simp only [bind_eq_ok, getBatch_eq_ok, pure_eq_ok, Prod.mk.injEq, true_and] at hset
      obtain ⟨b, hb, rfl⟩ := hset
      exact .inr ⟨i, b, { b with status := .finalized }, hb, rfl, by simp, rfl⟩

/-! ## One iteration -/

lemma outpoints_assign {db : TapDb Hash Sig} {dbIds : List ℕ} :
    (db.assign dbIds i).transfers.rows.map (fun p => p.2.outpoint) =
      db.transfers.rows.map fun p => p.2.outpoint := by
  rw [TapDb.assign, Table.mapRows, List.map_map]
  refine List.map_congr_left fun p _ => ?_
  by_cases hp : p.1 ∈ dbIds
  · simp [hp, TapToRskTransfer.outpoint]
  · simp [hp]

/-- A new batch of rows that were in none. -/
lemma gathered_newBatch (hs : Gathered C service bridge F n s)
    {chosen : List (ℕ × TapToRskTransfer)} (hsub : ∀ p ∈ chosen, p ∈ s.db.unbatched)
    {b : TapToRskTransferBatch Hash Sig} (hcreated : b.status = .created)
    (hempty : b.signatures = .empty) :
    Gathered C service bridge F n { s with
      db := (s.db.setBatch s.db.nextBatchId b).assign (chosen.map Prod.fst) s.db.nextBatchId } where
  self := hs.self
  bounded := ⟨hs.bounded.federators, hs.bounded.required⟩
  assigned j hj := mem_keys_newBatch hs.assigned hsub hj
  outpoints := by
    rw [outpoints_assign]
    exact hs.outpoints
  signed j c hc := by
    rcases get?_newBatch hc with ⟨-, rfl⟩ | ⟨hj, hc⟩
    · intro _ r hr
      rw [hempty] at hr
      cases hr
    · have hold := hs.signed j c hc
      rw [SignedBy] at hold ⊢
      rwa [show _ = s.db.members j from members_newBatch hsub b hj]
  enough j c hc hcollected := by
    rcases get?_newBatch hc with ⟨-, rfl⟩ | ⟨-, hc⟩
    · rw [hcreated] at hcollected
      cases hcollected
    · exact hs.enough j c hc hcollected

lemma gathered_currentBatch [DecidableEq Hash] {σ : Ordering}
    {current : Option (CurrentBatch Hash Sig)} {db : TapDb Hash Sig}
    (hs : Gathered C service bridge F n s)
    (h : service.currentBatch σ s.db = .ok (current, db)) :
    Gathered C service bridge F n { s with db := db } ∧ ∀ c, current = some c →
      IsCurrent { s with db := db } c ∧ Loaded { s with db := db } c := by
  have hcurrent := isCurrent_currentBatch hs.assigned h
  simp only [TapToRskService.currentBatch, bind_eq_ok, pure_eq_ok, Prod.exists,
    Prod.mk.injEq] at h
  obtain ⟨found, db', hfound, rfl, rfl⟩ := h
  have hserialized (transfers : List TapToRskTransfer) (b : TapToRskTransferBatch Hash Sig) :
      ((b.serialize service.keccak transfers).transfers.map fun t => t.toTransferFromTap) =
        transfers.map fun t => t.toTransferFromTap := by
    rw [TapToRskTransferBatch.serialize, List.map_map]
    rfl
  rcases getOrCreateCurrentBatch_ok hfound with
    ⟨rfl, hrow⟩ | ⟨chosen, b, hsublist, hcreated, hempty, rfl, rfl⟩
  · refine ⟨hs, fun c hc => ⟨hcurrent c hc, ?_⟩⟩
    obtain ⟨⟨i, b, transfers⟩, hsome, rfl⟩ := Option.map_eq_some_iff.1 hc
    obtain ⟨hb, rfl⟩ := hrow i b transfers hsome
    refine ⟨(σ.sort (s.db.members i)).map countedTransfer, σ.counted_perm,
      σ.counted_inCounterOrder, ?_, ?_⟩
    · rw [hserialized, TapDb.batchTransfers, List.map_map, List.map_map]
      rfl
    · show (s.db.batchTransfers σ i).length = _
      rw [TapDb.batchTransfers, List.length_map, List.length_map]
  · obtain ⟨hsub, hnodup⟩ := chosen_of_sublist hsublist
    refine ⟨gathered_newBatch hs hsub hcreated hempty, fun c hc => ⟨hcurrent c hc, ?_⟩⟩
    obtain rfl := Option.some.inj hc
    have hnone : s.db.members s.db.nextBatchId = [] := by
      by_contra hne
      exact nextBatchId_notMem s.db (hs.assigned _ hne)
    refine ⟨chosen.map countedTransfer, ?_, ?_, ?_, ?_⟩
    · exact (map_members_assign (f := fun t => (t.counter, t.toTransferFromTap)) (fun _ _ => rfl)
        (fun q hq => (List.mem_filter.1 (hsub q hq)).1) hnodup hnone).symm
    · exact List.pairwise_map.2 ((σ.sorted _).sublist hsublist)
    · rw [hserialized, List.map_map, List.map_map]
      rfl
    · show (chosen.map Prod.snd).length = _
      rw [List.length_map, List.length_map]

lemma gathered_processBatch {c : CurrentBatch Hash Sig} (hs : Gathered C service bridge F n s)
    (hc : IsCurrent s c) (hloaded : Loaded s c) :
    KeepsGathered C rskAccount service bridge F n (service.processBatch c) (fun _ _ => True) s := by
  rw [TapToRskService.processBatch]
  apply Ensures.bind (R := fun _ s' => Gathered C service bridge F n s')
  · by_cases hcreated : c.status = .created
    · rw [if_pos hcreated]
      exact gathered_collect hs hc hloaded hcreated
    · rw [if_neg hcreated]
      exact ensures_pure.2 hs
  rintro ⟨status, signatures⟩ s₁ hs₁
  apply Ensures.bind (R := fun _ s' => Gathered C service bridge F n s')
  · by_cases hcollected : status = .signaturesCollected
    · simp only [if_pos hcollected]
      exact gathered_send hs₁
    · simp only [if_neg hcollected]
      exact ensures_pure.2 hs₁
  intro status s₂ hs₂
  by_cases hsending : status = .sendingToRsk
  · simp only [if_pos hsending]
    exact ensures_throw
  · simp only [if_neg hsending]
    by_cases hsent : status = .sentToRsk
    · simp only [if_pos hsent]
      exact gathered_finalize hs₂
    · simp only [if_neg hsent]
      exact ensures_pure.2 trivial

lemma gathered_processCurrentTransferBatch [DecidableEq Hash]
    (hs : Gathered C service bridge F n s) :
    KeepsGathered C rskAccount service bridge F n service.processCurrentTransferBatch
      (fun _ _ => True) s := by
  rw [TapToRskService.processCurrentTransferBatch]
  apply Ensures.bind (R := fun current s' => Gathered C service bridge F n s' ∧
    ∀ c, current = some c → IsCurrent s' c ∧ Loaded s' c)
  · apply within_bounded.transaction hs
    intro s₁ σ current db hs₁ _ hcurrent
    exact gathered_currentBatch hs₁ hcurrent
  rintro current s₁ ⟨hs₁, hcurrent⟩
  cases current with
  | none => exact ensures_pure.2 trivial
  | some c => exact gathered_processBatch hs₁ (hcurrent c rfl).1 (hcurrent c rfl).2

lemma gathered_of_running [DecidableEq Hash]
    {c : Process (TapOp Hash Sig) TapOp.Resp PyError (TapLeader Hash Sig)}
    (h : Running (boundedWorld C rskAccount F n) service.processCurrentTransferBatch
      (fun s => s.Started ∧ Bounded F n s ∧ s.chain.self = bridge) c) :
    Gathered C service bridge F n c.world := by
  apply h.invariant (I := Gathered C service bridge F n)
  · exact fun s ⟨hs, hbounded, hself⟩ => gathered_of_started hs hbounded hself
  · exact fun s s' hs hmove => hmove.1.gathered hmove.2 hs
  · intro s hs
    apply Holds.mono (gathered_processCurrentTransferBatch hs)
    exact fun _ _ _ => trivial

/-! ## What is sent -/

/-- What raises changes nothing. -/
def settle {α : Type} (s : TapLeader Hash Sig) :
    PyResult (α × TapLeader Hash Sig) → PyResult α × TapLeader Hash Sig
  | .ok (a, s') => (.ok a, s')
  | .error e => (.error e, s)

/-- How a call goes when it returns, with this order of the rows, and how when it raises. -/
def handle (C : Crypto Hash Sig) (answers : List (SignTransferBatchAnswer Sig)) :
    Option Ordering → TapLeader Hash Sig → (o : TapOp Hash Sig) →
      PyResult o.Resp × TapLeader Hash Sig
  | none, s, _ => (.error (.other "interrupted"), s)
  | some σ, s, .transaction body => s.settle do
      let (b, db) ← body σ s.db
      pure (b, { s with db := db })
  | some _, s, o => s.settle (s.respond C answers o)

lemma does_settle {o : TapOp Hash Sig} {x : PyResult (o.Resp × TapLeader Hash Sig)}
    (h : ∀ r s', x = .ok (r, s') → Does C s o (.ok r) s') :
    Does C s o (s.settle x).1 (s.settle x).2 := by
  cases x with
  | ok r => exact h r.1 r.2 rfl
  | error e => exact .raised s o e

lemma does_handle {answers : List (SignTransferBatchAnswer Sig)} (m : Option Ordering)
    (s : TapLeader Hash Sig) (o : TapOp Hash Sig) :
    Does C s o (handle C answers m s o).1 (handle C answers m s o).2 := by
  cases m with
  | none => exact .raised s o _
  | some σ =>
      have hrespond : Does C s o (s.settle (s.respond C answers o)).1
          (s.settle (s.respond C answers o)).2 := does_settle fun r s' h => does_respond h
      cases o with
      | transaction body =>
          apply does_settle
          intro b s' h
          simp only [bind_eq_ok, pure_eq_ok, Prod.exists] at h
          obtain ⟨b, db, hbody, rfl, rfl⟩ := h
          exact .committed hbody
      | getFederators => exact hrespond
      | numRequiredSigners => exact hrespond
      | getTransferFromTapMessageHash t => exact hrespond
      | ask serializedBatch => exact hrespond
      | transact batchId t signatures => exact hrespond
      | waitForTransactionReceipt txHash => exact hrespond

/-- The calls of `acceptTransferFromTap` a program makes, when every transaction may see the rows in
another order. -/
def callsSent {α : Type} (C : Crypto Hash Sig) (p : TapProg Hash Sig α) (env : ℕ → Ordering)
    (s : TapLeader Hash Sig) : List (TransferFromTap × List Sig) :=
  ((p.eval (handle C []) (fun k => some (env k)) s).2.sent.drop s.sent.length).map fun tx =>
    (tx.transfer, tx.signatures)

section Eval

variable {α β : Type} {env : ℕ → Ordering}

lemma eval_transaction_bind {body : Ordering → TapDb Hash Sig → PyResult (β × TapDb Hash Sig)}
    {f : β → TapProg Hash Sig α} {b : β} {db : TapDb Hash Sig}
    (hbody : body (env 0) s.db = .ok (b, db)) :
    (TapProg.transaction body >>= f).eval (handle C []) (fun k => some (env k)) s =
      (f b).eval (handle C []) (fun k => some (env (k + 1))) { s with db := db } := by
  refine (eval_perform_bind (o := TapOp.transaction body)).trans ?_
  simp only [handle, hbody]
  rfl

lemma eval_transact_bind {t : TransferFromTap} {signatures : List Sig}
    {f : ℕ → TapProg Hash Sig α} :
    (TapProg.transact i t signatures >>= f).eval (handle C []) (fun k => some (env k)) s =
      (f s.sent.length).eval (handle C []) (fun k => some (env (k + 1)))
        { s with sent := s.sent ++ [⟨i, t, signatures, none⟩] } :=
  eval_perform_bind (o := TapOp.transact i t signatures)

lemma eval_sendAll {calls : List (TransferFromTap × List Sig)} :
    ∃ txHashes, (TapToRskService.sendAll i calls).eval (handle C []) (fun k => some (env k)) s =
      (.ok txHashes, { s with sent := s.sent ++ calls.map fun c => ⟨i, c.1, c.2, none⟩ }) := by
  induction calls generalizing env s with
  | nil =>
      refine ⟨[], ?_⟩
      simp [TapToRskService.sendAll]
  | cons call calls ih =>
      obtain ⟨transfer, signatures⟩ := call
      rw [TapToRskService.sendAll, eval_transact_bind]
      obtain ⟨txHashes, hrest⟩ := @ih { s with sent := s.sent ++ [⟨i, transfer, signatures, none⟩] }
        fun k => env (k + 1)
      obtain ⟨k, hbind⟩ := eval_bind_of_ok (f := fun txHashes =>
        (pure (s.sent.length :: txHashes) : TapProg Hash Sig (List ℕ))) hrest
      refine ⟨s.sent.length :: txHashes, hbind.trans ?_⟩
      rw [eval_pure, List.map_cons, List.append_assoc, List.singleton_append]

/-- A transaction sends nothing. -/
lemma sent_eval_transaction {body : Ordering → TapDb Hash Sig → PyResult (β × TapDb Hash Sig)}
    {env : ℕ → Option Ordering} :
    ((TapProg.transaction body).eval (handle C []) env s).2.sent = s.sent := by
  refine eval_keeps (P := fun o => o = TapOp.transaction body)
    (I := fun s' : TapLeader Hash Sig => s'.sent = s.sent) (Prog.calls_perform rfl) ?_ rfl
  rintro m s' o rfl hs'
  cases m with
  | none => exact hs'
  | some σ =>
      show (s'.settle _).2.sent = s.sent
      cases body σ s'.db with
      | ok r => exact hs'
      | error e => exact hs'

/-- **The second stage.**  It makes the calls that its first transaction fixes. -/
lemma callsSent_send {b : TapToRskTransferBatch Hash Sig} (hb : s.db.batches.get? i = some b)
    (signatures : Table Address (List Sig)) :
    callsSent C (TapToRskService.send i signatures) env s =
      acceptTransferCalls (env 0) (s.db.members i) signatures.rows := by
  have hstart : TapToRskService.startSending i signatures (env 0) s.db =
      .ok (acceptTransferCalls (env 0) (s.db.members i) signatures.rows,
        s.db.setBatch i { b with status := .sendingToRsk }) := by
    simp only [TapToRskService.startSending, bind_eq_ok, getBatch_eq_ok, pure_eq_ok, Prod.mk.injEq]
    refine ⟨b, hb, ?_, rfl⟩
    rw [acceptTransferCalls, TapDb.batchTransfers, List.map_map]
    rfl
  rw [callsSent, TapToRskService.send, eval_transaction_bind hstart]
  obtain ⟨txHashes, hsent⟩ := @eval_sendAll _ _ C
    { s with db := s.db.setBatch i { b with status := .sendingToRsk } } i
    (fun k => env (k + 1)) (acceptTransferCalls (env 0) (s.db.members i) signatures.rows)
  obtain ⟨k, hbind⟩ := eval_bind_of_ok (f := fun txHashes =>
    TapProg.transaction fun _ db => TapToRskService.finishSending i txHashes db) hsent
  rw [hbind, sent_eval_transaction]
  show List.map _ (List.drop s.sent.length (s.sent ++ _)) = _
  rw [List.drop_left, List.map_map]
  exact List.map_id _

end Eval

/-! ## The order of sending -/

/-- No signature is of two transfers, by whichever members of `F`. -/
def SignedApart (C : Crypto Hash Sig) (service : TapToRskService Hash Sig) (bridge : Address)
    (F : Set Address) : Prop :=
  ∀ t t' a a' signature, a ∈ F → a' ∈ F → Signs C service bridge t a signature →
    Signs C service bridge t' a' signature → t = t'

/-- The batch has no transfers, or some signature and distinct counters. -/
def Sendable (s : TapLeader Hash Sig) (i : ℕ) (b : TapToRskTransferBatch Hash Sig) : Prop :=
  s.db.members i = [] ∨ (b.signatures.rows ≠ [] ∧
    ((s.db.members i).map fun p => p.2.counter).Nodup)

/-- Whatever order the database returns the rows in, there is one call for each transfer, with
signatures of that transfer by `n - 1` members of `F`. -/
def SentWithOwn (C : Crypto Hash Sig) (service : TapToRskService Hash Sig) (bridge : Address)
    (F : Set Address) (n : ℕ) (s : TapLeader Hash Sig) (i : ℕ)
    (b : TapToRskTransferBatch Hash Sig) : Prop :=
  ∀ env, OwnSignatures (Signs C service bridge) F n
    ((s.db.members i).map fun p => p.2.toTransferFromTap)
    (callsSent C (TapToRskService.send i b.signatures) env s)

/-- What was collected goes out with its transfers, as signatures by those who gave them. -/
lemma Gathered.sentWithOwn {G : Set Address} (hs : Gathered C service bridge F n s)
    {b : TapToRskTransferBatch Hash Sig} (hb : s.db.batches.get? i = some b)
    (hcollected : b.status = .signaturesCollected)
    (hG : ∀ a ∈ b.signatures.keys, a ∈ F → a ∈ G) (hsendable : Sendable s i b) :
    SentWithOwn C service bridge G n s i b := by
  intro env
  rw [callsSent_send hb]
  by_cases hmembers : s.db.members i = []
  · rw [hmembers, acceptTransferCalls_nil]
    exact ⟨List.Perm.refl _, by simp⟩
  · obtain ⟨hsigned, hcounters⟩ := hsendable.resolve_left hmembers
    refine ownSignatures_of_nodup b.signatures.nodup (fun r hr => ?_) (hs.enough i b hb hcollected)
      hsigned hcounters (env 0)
    obtain ⟨hmember, hsigns⟩ := hs.signed i b hb hmembers r hr
    exact ⟨hG r.1 (List.mem_map_of_mem hr) hmember, hsigns⟩

/-- Signatures that are not in the order of sending go out with other transfers. -/
lemma Gathered.sendable (hapart : SignedApart C service bridge F)
    (hs : Gathered C service bridge F n s) {b : TapToRskTransferBatch Hash Sig}
    (hb : s.db.batches.get? i = some b) (hown : SentWithOwn C service bridge F n s i b) :
    Sendable s i b := by
  by_cases hmembers : s.db.members i = []
  · exact .inl hmembers
  · have houtpoints : ((s.db.members i).map fun p => p.2.outpoint).Nodup :=
      hs.outpoints.sublist (List.filter_sublist.map _)
    have hcalls : ∀ σ, OwnSignatures (Signs C service bridge) F n
        ((s.db.members i).map fun p => p.2.toTransferFromTap)
        (acceptTransferCalls σ (s.db.members i) b.signatures.rows) := by
      intro σ
      have hsent := hown fun _ => σ
      rwa [callsSent_send hb] at hsent
    exact .inr (nodup_of_ownSignatures hapart houtpoints hmembers (hs.signed i b hb hmembers)
      hcalls)

/-- **Own signatures.**  In every run in which the federators are members of `F` and at least `n`
signers are required, take a batch that has its signatures.  Its transfers go out with their own if
it is sendable, and, where no signature is of two transfers, only then. -/
theorem transfers_sent_with_own_signatures_iff [DecidableEq Hash]
    {c : Process (TapOp Hash Sig) TapOp.Resp PyError (TapLeader Hash Sig)}
    (h : Running (boundedWorld C rskAccount F n) service.processCurrentTransferBatch
      (fun s => s.Started ∧ Bounded F n s ∧ s.chain.self = bridge) c)
    {b : TapToRskTransferBatch Hash Sig} (hb : c.world.db.batches.get? i = some b)
    (hcollected : b.status = .signaturesCollected) :
    (Sendable c.world i b → SentWithOwn C service bridge F n c.world i b) ∧
    (SignedApart C service bridge F →
      (SentWithOwn C service bridge F n c.world i b ↔ Sendable c.world i b)) := by
  have hgathered := gathered_of_running h
  have hsufficient : Sendable c.world i b → SentWithOwn C service bridge F n c.world i b :=
    hgathered.sentWithOwn hb hcollected fun _ _ ha => ha
  exact ⟨hsufficient, fun hapart => ⟨hgathered.sendable hapart hb, hsufficient⟩⟩

/-! ## Examples -/

namespace Example

lemma signs_iff {t : TransferFromTap} {a : Address} {signature : Address × Bytes} :
    Signs symbolicCrypto Example.service 1 t a signature ↔
      symbolicCrypto.recover (symbolicCrypto.toEthSignedMessageHash
        (TapBridge.getTransferFromTapMessageHash symbolicCrypto 1 t)) signature = some a :=
  orError_eq_ok

lemma signedApart (F : Set Address) : SignedApart symbolicCrypto Example.service 1 F := by
  intro t t' a a' signature _ _ h h'
  have hC : symbolicCrypto.Ideal Set.univ id := symbolicCrypto_ideal
  have hsame := (hC.recover_signed _ _ a (Set.mem_univ a) (signs_iff.1 h)).symm.trans
    (hC.recover_signed _ _ a' (Set.mem_univ a') (signs_iff.1 h'))
  have hhash := hC.toEthSignedMessageHash_injective (Prod.mk.inj hsame).2
  exact (TapBridge.transferFromTapMessage_inj (hC.keccak256_injective hhash)).2

/-- The federation of the contract. -/
def federation : Set Address := {4, 5}

def configured (w : TapWorld) : Bool :=
  w.bridge.federators = [4, 5] ∧ w.bridge.numRequiredSigners = 2 ∧ w.self = 1

lemma bounded_of_configured {w : TapWorld} (h : configured w = true)
    {s : TapLeader Bytes (Address × Bytes)} (hs : s.chain = w) :
    Bounded federation 2 s ∧ s.chain.self = 1 := by
  obtain ⟨hfederators, hrequired, hself⟩ := of_decide_eq_true h
  subst hs
  refine ⟨⟨?_, ?_⟩, hself⟩
  · rw [hfederators]
    simp [federation]
  · rw [hrequired]
    decide

/-- A leader that has done nothing yet, of this federation. -/
def Starts (s : TapLeader Bytes (Address × Bytes)) : Prop :=
  s.Started ∧ Bounded federation 2 s ∧ s.chain.self = 1

abbrev Runs : Process (TapOp Bytes (Address × Bytes)) TapOp.Resp PyError
    (TapLeader Bytes (Address × Bytes)) → Prop :=
  Running (boundedWorld symbolicCrypto 4 federation 2) Example.service.processCurrentTransferBatch
    Starts

/-- The first calls return, the others raise. -/
def untilCall (n k : ℕ) : Option Ordering := if k < n then some .stable else none

lemma runs_until {s : TapLeader Bytes (Address × Bytes)}
    {p : TapProg Bytes (Address × Bytes) Unit} (h : Runs ⟨s, some p⟩)
    (answers : List (SignTransferBatchAnswer (Address × Bytes))) (n : ℕ) :
    Runs ⟨(p.eval (handle symbolicCrypto answers) (untilCall n) s).2, none⟩ :=
  h.evalOf does_handle

lemma starts_of_configured {w : TapWorld} (h : configured w = true) : Starts ⟨.empty, w, []⟩ :=
  ⟨⟨rfl, rfl⟩, bounded_of_configured h rfl⟩

lemma moves_of_configured {w : TapWorld} (h : configured w = true)
    (s s' : TapLeader Bytes (Address × Bytes)) (hw : s'.chain = w)
    (hmove : Moves symbolicCrypto 4 s s') :
    (boundedWorld symbolicCrypto 4 federation 2).Moves s s' :=
  ⟨hmove, (bounded_of_configured h hw).1⟩

/-- What is to see of the first batch: whether it has its signatures, by whom, and the counters of
its transfers. -/
def gathered (s : TapLeader Bytes (Address × Bytes)) :
    Option (Bool × List Address) × List (Option ℕ) :=
  ((s.db.batches.get? 1).map fun b =>
      (decide (b.status = .signaturesCollected), b.signatures.keys),
    (s.db.members 1).map fun p => p.2.counter)

lemma gathered_eq {s : TapLeader Bytes (Address × Bytes)} {counters : List (Option ℕ)}
    (h : gathered s = (some (true, [5]), counters)) :
    (∃ b, s.db.batches.get? 1 = some b ∧ b.status = .signaturesCollected ∧
      b.signatures.rows ≠ []) ∧ (s.db.members 1).map (fun p => p.2.counter) = counters := by
  obtain ⟨hbatch, hcounters⟩ := Prod.mk.inj h
  obtain ⟨b, hb, hcollected⟩ := Option.map_eq_some_iff.1 hbatch
  obtain ⟨hstatus, hkeys⟩ := Prod.mk.inj hcollected
  refine ⟨⟨b, hb, of_decide_eq_true hstatus, fun hnil => ?_⟩, hcounters⟩
  rw [Table.keys, hnil] at hkeys
  cases hkeys

end Example

/-- The batch of one deposit, stopped before it is sent. -/
theorem transfers_sent_with_own_signatures_example :
    ∃ (s : TapLeader Bytes (Address × Bytes)) (b : TapToRskTransferBatch Bytes (Address × Bytes)),
      s.db.batches.get? 1 = some b ∧ b.status = .signaturesCollected ∧
      (s.db.members 1).length = 1 ∧
      SentWithOwn symbolicCrypto Example.service 1 Example.federation 2 s 1 b := by
  have heval : (do
      let w ← Example.chain 9000
      let s := (Example.service.processCurrentTransferBatch.eval
        (handle symbolicCrypto [⟨[Example.sign Example.large], 5⟩]) (Example.untilCall 6)
        ⟨Example.scannedOnce, w, []⟩).2
      pure (Example.configured w, Example.gathered s)) =
        .ok (true, some (true, [5]), [none]) := by
    decide +kernel
  simp only [bind_eq_ok, pure_eq_ok, Prod.mk.injEq] at heval
  obtain ⟨w, -, hconfigured, hgathered⟩ := heval
  obtain ⟨⟨b, hb, hcollected, hne⟩, hcounters⟩ := Example.gathered_eq hgathered
  have hscanned : Example.Runs ⟨⟨Example.scannedOnce, w, []⟩, none⟩ :=
    Example.running_scannedOnce (Example.starts_of_configured hconfigured)
      (Example.moves_of_configured hconfigured)
  have hrun := Example.runs_until (hscanned.step (.start _))
    [⟨[Example.sign Example.large], 5⟩] 6
  have hiff := (transfers_sent_with_own_signatures_iff hrun hb hcollected).2
    (Example.signedApart Example.federation)
  refine ⟨_, b, hb, hcollected, ?_, hiff.2 (.inr ⟨hne, ?_⟩)⟩
  · rw [← List.length_map, hcounters]
    rfl
  · rw [hcounters]
    decide

/-- **Signatures of another transfer.**  Two deposits, of which the scan has set no counters, are
signed by the other federator.  There is an order of the rows in which they are not sent with their
own signatures. -/
theorem transfers_sent_with_other_signatures :
    ∃ c, Example.Runs c ∧
      ∃ b, c.world.db.batches.get? 1 = some b ∧ b.status = .signaturesCollected ∧
        ¬ SentWithOwn symbolicCrypto Example.service 1 Example.federation 2 c.world 1 b := by
  have heval : (do
      let w ← Example.chain 9000
      let s := (Example.service.processCurrentTransferBatch.eval
        (handle symbolicCrypto [Example.answer]) (Example.untilCall 7) (Example.scanned w)).2
      pure (Example.configured w, Example.gathered s)) =
        .ok (true, some (true, [5]), [none, none]) := by
    decide +kernel
  simp only [bind_eq_ok, pure_eq_ok, Prod.mk.injEq] at heval
  obtain ⟨w, -, hconfigured, hgathered⟩ := heval
  obtain ⟨⟨b, hb, hcollected, -⟩, hcounters⟩ := Example.gathered_eq hgathered
  have hscanned : Example.Runs ⟨Example.scanned w, some _⟩ :=
    Example.running_scanned (Example.starts_of_configured hconfigured)
      (Example.moves_of_configured hconfigured)
  have hrun := Example.runs_until hscanned [Example.answer] 7
  refine ⟨_, hrun, b, hb, hcollected, fun hown => ?_⟩
  rcases (gathered_of_running hrun).sendable (Example.signedApart Example.federation) hb
    hown with hnone | ⟨-, hnodup⟩
  · rw [hnone] at hcounters
    cases hcounters
  · rw [hcounters] at hnodup
    exact absurd hnodup (by decide)

end TapLeader

end NbteBridge
