import NbteBridge.Foundations.Lists
import NbteBridge.Node.Leader
import NbteBridge.Node.PayoutAgreement
import NbteBridge.Ord.Accounting

/-!
# The responses a payout is finalized with

The leader of a payout takes its own signed transaction and the first responses, as many as are
needed, and combines them unseen.  So it depends on the first responses alone whether a final
transaction comes of them, and on every response that it can be parsed
(`payout_broadcast_iff`).

What the library of partially signed transactions does is assumed (`PsbtCodec.Merges`): combining
two of the same transaction keeps the entries of both, combining two of different ones is refused,
and finalizing succeeds with enough signers on every input.  Where two contradict each other, as with
two signatures under one key, the format leaves it to the library which to take, or to refuse both
(`Psbt.Consistent`).  Whose valid signature a key and its signature are is a parameter, `signerOf`.
-/

namespace NbteBridge

open Checked Effects

/-! ## Signed transactions -/

/-- Whose valid signature on an input of a transaction this is, if it is one. -/
abbrev SignerOf (Signer : Type) := Transaction → ℕ → List UInt8 × List UInt8 → Option Signer

namespace Psbt

variable {Signer : Type} (signerOf : SignerOf Signer)

/-- An entry for each input. -/
def WellFormed (psbt : Psbt) : Prop := psbt.inputs.length = psbt.unsignedTx.vin.length

instance (psbt : Psbt) : Decidable psbt.WellFormed := inferInstanceAs (Decidable (_ = _))

/-- The signer has signed the input. -/
def SignedBy (psbt : Psbt) (i : ℕ) (signer : Signer) : Prop :=
  ∃ inp, psbt.inputs[i]? = some inp ∧
    ∃ sig ∈ inp.partialSigs, signerOf psbt.unsignedTx i sig = some signer

/-- At least `k` signers have signed each input. -/
def Complete (k : ℕ) (psbt : Psbt) : Prop :=
  ∀ i < psbt.inputs.length, ∃ signers : Finset Signer, k ≤ signers.card ∧
    ∀ signer ∈ signers, psbt.SignedBy signerOf i signer

end Psbt

/-- What two transactions say of an input does not conflict: they differ in the signatures alone,
and no key has two. -/
def PsbtInput.Consistent (inp inp' : PsbtInput) : Prop :=
  { inp with partialSigs := [] } = { inp' with partialSigs := [] } ∧
    ∀ sig ∈ inp.partialSigs, ∀ sig' ∈ inp'.partialSigs, sig.1 = sig'.1 → sig.2 = sig'.2

instance (inp inp' : PsbtInput) : Decidable (inp.Consistent inp') :=
  inferInstanceAs (Decidable (_ ∧ _))

/-- No signatures but those of the two. -/
def PsbtInput.Taken (inp inp' merged : PsbtInput) : Prop :=
  ∀ sig ∈ merged.partialSigs, sig ∈ inp.partialSigs ∨ sig ∈ inp'.partialSigs

/-- The entries of both. -/
structure PsbtInput.Merged (inp inp' merged : PsbtInput) : Prop where
  rest : { merged with partialSigs := [] } = { inp with partialSigs := [] }
  partialSigs : ∀ sig, sig ∈ merged.partialSigs ↔ sig ∈ inp.partialSigs ∨ sig ∈ inp'.partialSigs

lemma PsbtInput.Merged.consistent {inp inp' merged other : PsbtInput}
    (h : PsbtInput.Merged inp inp' merged) (hinp : inp.Consistent other)
    (hinp' : inp'.Consistent other) : merged.Consistent other := by
  refine ⟨h.rest.trans hinp.1, fun sig hsig => ?_⟩
  rcases (h.partialSigs sig).1 hsig with hmem | hmem
  · exact hinp.2 sig hmem
  · exact hinp'.2 sig hmem

namespace Psbt

variable {Signer : Type} {signerOf : SignerOf Signer} {p q r other : Psbt}

/-- So on every input. -/
def Consistent (p q : Psbt) : Prop := List.Forall₂ PsbtInput.Consistent p.inputs q.inputs

instance (p q : Psbt) : Decidable (p.Consistent q) :=
  inferInstanceAs (Decidable (List.Forall₂ _ _ _))

/-- The transaction of `p`, each input related like this to those of `p` and `q`. -/
structure Combined (R : PsbtInput → PsbtInput → PsbtInput → Prop) (p q r : Psbt) : Prop where
  unsignedTx : r.unsignedTx = p.unsignedTx
  inputs : List.Forall₂ (fun (inps : PsbtInput × PsbtInput) merged => R inps.1 inps.2 merged)
    (p.inputs.zip q.inputs) r.inputs

lemma length_inputs_eq (hp : p.WellFormed) (hq : q.WellFormed)
    (hsame : q.unsignedTx = p.unsignedTx) : q.inputs.length = p.inputs.length := by
  rw [show q.inputs.length = _ from hq, hsame]
  exact hp.symm

section Combined

variable {R : PsbtInput → PsbtInput → PsbtInput → Prop}

/-- One input after the other. -/
lemma Combined.get (h : Combined R p q r) {i : ℕ} (hp : i < p.inputs.length)
    (hq : i < q.inputs.length) :
    ∃ merged, r.inputs[i]? = some merged ∧ R p.inputs[i] q.inputs[i] merged := by
  obtain ⟨hlength, hget⟩ := List.forall₂_iff_get.1 h.inputs
  have hzip : i < (p.inputs.zip q.inputs).length := by
    rw [List.length_zip, lt_min_iff]
    exact ⟨hp, hq⟩
  have hr : i < r.inputs.length := hlength ▸ hzip
  refine ⟨r.inputs[i], List.getElem?_eq_getElem hr, ?_⟩
  simpa using hget i hzip hr

lemma Combined.length (h : Combined R p q r) (hlength : q.inputs.length = p.inputs.length) :
    r.inputs.length = p.inputs.length := by
  rw [← h.inputs.length_eq, List.length_zip, hlength, min_self]

lemma Combined.wellFormed (h : Combined R p q r) (hp : p.WellFormed)
    (hlength : q.inputs.length = p.inputs.length) : r.WellFormed := by
  rw [WellFormed, h.length hlength, h.unsignedTx]
  exact hp

end Combined

/-- Who has signed what was combined has signed one of the two. -/
lemma signedBy_of_taken (h : Combined PsbtInput.Taken p q r)
    (hlength : q.inputs.length = p.inputs.length) (hsame : q.unsignedTx = p.unsignedTx) {i : ℕ}
    {signer : Signer} (hsigned : r.SignedBy signerOf i signer) :
    p.SignedBy signerOf i signer ∨ q.SignedBy signerOf i signer := by
  obtain ⟨inp, hinp, sig, hsig, hsigner⟩ := hsigned
  have hi : i < p.inputs.length := by
    rw [← h.length hlength]
    exact (List.getElem?_eq_some_iff.1 hinp).1
  obtain ⟨merged, hmerged, htaken⟩ := h.get hi (hlength ▸ hi)
  obtain rfl := Option.some.inj (hinp.symm.trans hmerged)
  rw [h.unsignedTx] at hsigner
  rcases htaken sig hsig with hmem | hmem
  · exact .inl ⟨_, List.getElem?_eq_getElem hi, sig, hmem, hsigner⟩
  · exact .inr ⟨_, List.getElem?_eq_getElem (hlength ▸ hi), sig, hmem, hsame ▸ hsigner⟩

/-- Who has signed one of the two has signed the entries of both. -/
lemma signedBy_of_merged (h : Combined PsbtInput.Merged p q r)
    (hlength : q.inputs.length = p.inputs.length) (hsame : q.unsignedTx = p.unsignedTx) {i : ℕ}
    {signer : Signer} (hsigned : p.SignedBy signerOf i signer ∨ q.SignedBy signerOf i signer) :
    r.SignedBy signerOf i signer := by
  rcases hsigned with ⟨inp, hinp, sig, hsig, hsigner⟩ | ⟨inp, hinp, sig, hsig, hsigner⟩
  · obtain ⟨hi, rfl⟩ := List.getElem?_eq_some_iff.1 hinp
    obtain ⟨merged, hmerged, hentries⟩ := h.get hi (hlength ▸ hi)
    exact ⟨merged, hmerged, sig, (hentries.partialSigs sig).2 (.inl hsig), h.unsignedTx ▸ hsigner⟩
  · obtain ⟨hi, rfl⟩ := List.getElem?_eq_some_iff.1 hinp
    obtain ⟨merged, hmerged, hentries⟩ := h.get (hlength ▸ hi) hi
    refine ⟨merged, hmerged, sig, (hentries.partialSigs sig).2 (.inr hsig), ?_⟩
    rw [h.unsignedTx, ← hsame]
    exact hsigner

/-- What is consistent with both is consistent with the entries of both. -/
lemma consistent_of_merged (h : Combined PsbtInput.Merged p q r) (hp : p.Consistent other)
    (hq : q.Consistent other) : r.Consistent other := by
  have hlength : q.inputs.length = p.inputs.length := by
    rw [hp.length_eq, hq.length_eq]
  refine List.forall₂_iff_get.2 ⟨(h.length hlength).trans hp.length_eq, fun i hr hother => ?_⟩
  have hi : i < p.inputs.length := (h.length hlength) ▸ hr
  obtain ⟨merged, hmerged, hentries⟩ := h.get hi (hlength ▸ hi)
  rw [List.getElem?_eq_getElem hr] at hmerged
  obtain rfl := Option.some.inj hmerged
  exact hentries.consistent ((List.forall₂_iff_get.1 hp).2 i hi hother)
    ((List.forall₂_iff_get.1 hq).2 i (hlength ▸ hi) hother)

/-- Of the same transaction, and consistent if so. -/
def ConsistentIfSame (p q : Psbt) : Prop := p.unsignedTx = q.unsignedTx → p.Consistent q

instance (p q : Psbt) : Decidable (p.ConsistentIfSame q) :=
  inferInstanceAs (Decidable (_ → _))

end Psbt

/-- What the library does with the transactions of a multisig of `k` signers. -/
structure PsbtCodec.Merges {Signer : Type} (codec : PsbtCodec) (signerOf : SignerOf Signer)
    (k : ℕ) : Prop where
  fromBase64 : ∀ text psbt, codec.fromBase64 text = .ok psbt → psbt.WellFormed
  combine : ∀ p q : Psbt, p.WellFormed → q.WellFormed → q.unsignedTx = p.unsignedTx →
    p.Consistent q → ∃ r, codec.combine p q = .ok r ∧ Psbt.Combined PsbtInput.Merged p q r
  combine_ok : ∀ p q r : Psbt, p.WellFormed → q.WellFormed → codec.combine p q = .ok r →
    q.unsignedTx = p.unsignedTx ∧ Psbt.Combined PsbtInput.Taken p q r
  finalize : ∀ p : Psbt, p.WellFormed → ∃ isFinal p', codec.finalize p = .ok (isFinal, p') ∧
    (isFinal = true ↔ p.Complete signerOf k) ∧
    (isFinal = true → ∃ tx, codec.extractTransaction p' = .ok tx ∧ tx.vout = p.unsignedTx.vout)

namespace RuneBridgeService

variable {Hash Signer : Type} {service : RuneBridgeService Hash} {signerOf : SignerOf Signer}
  {k : ℕ}

/-! ## Combining -/

/-- What comes of combining a transaction with others of the same. -/
structure Combines (signerOf : SignerOf Signer) (p : Psbt) (psbts : List Psbt) (r : Psbt) :
    Prop where
  wellFormed : r.WellFormed
  unsignedTx : r.unsignedTx = p.unsignedTx
  signedBy : ∀ i signer, r.SignedBy signerOf i signer →
    p.SignedBy signerOf i signer ∨ ∃ q ∈ psbts, q.SignedBy signerOf i signer

/-- What is combined at all is of one transaction. -/
lemma combines_of_ok (hlaw : service.psbtCodec.Merges signerOf k) {p r : Psbt} {psbts : List Psbt}
    (hp : p.WellFormed) (hpsbts : ∀ q ∈ psbts, q.WellFormed)
    (h : service.combinePsbts p psbts = .ok r) :
    (∀ q ∈ psbts, q.unsignedTx = p.unsignedTx) ∧ Combines signerOf p psbts r := by
  induction psbts generalizing p with
  | nil =>
      obtain rfl := Except.ok.inj h
      exact ⟨by simp, hp, rfl, fun _ _ hsigned => .inl hsigned⟩
  | cons q psbts ih =>
      rw [combinePsbts, bind_eq_ok] at h
      obtain ⟨p', hp', hrest⟩ := h
      have hwell := hpsbts q List.mem_cons_self
      obtain ⟨hsame, htaken⟩ := hlaw.combine_ok p q p' hp hwell hp'
      have hlength := Psbt.length_inputs_eq hp hwell hsame
      obtain ⟨htxs, hcombines⟩ := ih (htaken.wellFormed hp hlength)
        (fun q' hq' => hpsbts q' (List.mem_cons_of_mem _ hq')) hrest
      refine ⟨List.forall_mem_cons.2 ⟨hsame, fun q' hq' => (htxs q' hq').trans htaken.unsignedTx⟩,
        hcombines.wellFormed, hcombines.unsignedTx.trans htaken.unsignedTx,
        fun i signer hsigned => ?_⟩
      rcases hcombines.signedBy i signer hsigned with hsigned | ⟨q', hq', hsigned⟩
      · rcases Psbt.signedBy_of_taken htaken hlength hsame hsigned with hsigned | hsigned
        · exact .inl hsigned
        · exact .inr ⟨q, List.mem_cons_self, hsigned⟩
      · exact .inr ⟨q', List.mem_cons_of_mem _ hq', hsigned⟩

/-- One more combined is consistent with those to come. -/
lemma pairwise_of_merged {p q r : Psbt} {psbts : List Psbt}
    (h : Psbt.Combined PsbtInput.Merged p q r) (hsame : q.unsignedTx = p.unsignedTx)
    (hpairwise : (p :: q :: psbts).Pairwise Psbt.ConsistentIfSame) :
    (r :: psbts).Pairwise Psbt.ConsistentIfSame := by
  obtain ⟨hp, hrest⟩ := List.pairwise_cons.1 hpairwise
  obtain ⟨hq, hpsbts⟩ := List.pairwise_cons.1 hrest
  refine List.pairwise_cons.2 ⟨fun q' hq' htx => ?_, hpsbts⟩
  have htx' : p.unsignedTx = q'.unsignedTx := h.unsignedTx.symm.trans htx
  exact Psbt.consistent_of_merged h (hp q' (List.mem_cons_of_mem _ hq') htx')
    (hq q' hq' (hsame.trans htx'))

/-- What does not conflict is combined, and nobody's signature is lost. -/
lemma combinePsbts_of_consistent (hlaw : service.psbtCodec.Merges signerOf k) {p : Psbt}
    {psbts : List Psbt} (hp : p.WellFormed) (hpsbts : ∀ q ∈ psbts, q.WellFormed)
    (hpairwise : (p :: psbts).Pairwise Psbt.ConsistentIfSame)
    (hsame : ∀ q ∈ psbts, q.unsignedTx = p.unsignedTx) :
    ∃ r, service.combinePsbts p psbts = .ok r ∧ ∀ i signer,
      (p.SignedBy signerOf i signer ∨ ∃ q ∈ psbts, q.SignedBy signerOf i signer) →
        r.SignedBy signerOf i signer := by
  induction psbts generalizing p with
  | nil => exact ⟨p, rfl, by simp⟩
  | cons q psbts ih =>
      have hq := hsame q List.mem_cons_self
      have hwell := hpsbts q List.mem_cons_self
      have hconsistent := (List.pairwise_cons.1 hpairwise).1 q List.mem_cons_self hq.symm
      obtain ⟨p', hp', hmerged⟩ := hlaw.combine p q hp hwell hq hconsistent
      have hlength := Psbt.length_inputs_eq hp hwell hq
      have hsame' : ∀ q' ∈ psbts, q'.unsignedTx = p'.unsignedTx := by
        intro q' hq'
        rw [hmerged.unsignedTx]
        exact hsame q' (List.mem_cons_of_mem _ hq')
      obtain ⟨r, hr, hkeeps⟩ := ih (hmerged.wellFormed hp hlength)
        (fun q' hq' => hpsbts q' (List.mem_cons_of_mem _ hq'))
        (pairwise_of_merged hmerged hq hpairwise) hsame'
      refine ⟨r, by rw [combinePsbts, hp', ok_bind, hr], fun i signer hsigned => ?_⟩
      apply hkeeps
      rw [List.exists_mem_cons_iff, ← or_assoc] at hsigned
      exact hsigned.imp_left (Psbt.signedBy_of_merged hmerged hlength hq)

/-! ## Finalizing -/

lemma deserializePsbts_eq_ok {responses : List SignRuneTokenToBtcTransferAnswer}
    {psbts : List Psbt} :
    service.deserializePsbts responses = .ok psbts ↔
      List.Forall₂ (fun response psbt =>
        service.psbtCodec.fromBase64 response.signedPsbtSerialized = .ok psbt) responses psbts := by
  induction responses generalizing psbts with
  | nil =>
      rw [deserializePsbts, pure_eq_ok, List.forall₂_nil_left_iff]
      exact eq_comm
  | cons response responses ih =>
      simp only [deserializePsbts, bind_eq_ok, pure_eq_ok, ih, List.forall₂_cons_left_iff]
      constructor
      · rintro ⟨psbt, hpsbt, rest, hrest, rfl⟩
        exact ⟨psbt, rest, hpsbt, hrest, rfl⟩
      · rintro ⟨psbt, rest, hpsbt, hrest, rfl⟩
        exact ⟨psbt, hpsbt, rest, hrest, rfl⟩

/-- Every response can be parsed, and the first ones, as many as are needed besides the leader's
own, are of the leader's transaction and have enough signers with it. -/
def FirstResponsesSuffice (service : RuneBridgeService Hash) (signerOf : SignerOf Signer)
    (unsignedPsbt selfSignedPsbt : Psbt) (responses : List SignRuneTokenToBtcTransferAnswer) :
    Prop :=
  ∃ psbts, List.Forall₂ (fun response psbt =>
      service.psbtCodec.fromBase64 response.signedPsbtSerialized = .ok psbt) responses psbts ∧
    let first := (selfSignedPsbt :: psbts).take service.ordMultisig.numRequiredSigners
    first.length = service.ordMultisig.numRequiredSigners ∧
    (∀ psbt ∈ first, psbt.unsignedTx = unsignedPsbt.unsignedTx) ∧
    ∀ i < unsignedPsbt.inputs.length, ∃ signers : Finset Signer,
      service.ordMultisig.numRequiredSigners ≤ signers.card ∧
        ∀ signer ∈ signers, ∃ psbt ∈ first, psbt.SignedBy signerOf i signer

/-- What is combined, the transaction that was built, the leader's own and the first responses, does
not conflict where it is of one transaction. -/
def FirstResponsesConsistent (service : RuneBridgeService Hash)
    (unsignedPsbt selfSignedPsbt : Psbt) (responses : List SignRuneTokenToBtcTransferAnswer) :
    Prop :=
  ∀ psbts, List.Forall₂ (fun response psbt =>
      service.psbtCodec.fromBase64 response.signedPsbtSerialized = .ok psbt) responses psbts →
    (unsignedPsbt :: (selfSignedPsbt :: psbts).take
      service.ordMultisig.numRequiredSigners).Pairwise Psbt.ConsistentIfSame

/-- Responses that carry, on every input of the leader's transaction, valid signatures by these
signers. -/
def SignedResponses (service : RuneBridgeService Hash) (signerOf : SignerOf Signer)
    (unsignedPsbt : Psbt) (signers : List Signer)
    (responses : List SignRuneTokenToBtcTransferAnswer) : Prop :=
  List.Forall₂ (fun signer response => ∃ psbt,
    service.psbtCodec.fromBase64 response.signedPsbtSerialized = .ok psbt ∧
    psbt.unsignedTx = unsignedPsbt.unsignedTx ∧
    ∀ i < unsignedPsbt.inputs.length, psbt.SignedBy signerOf i signer) signers responses

/-- Among the responses are enough by distinct signers, none of them the leader. -/
def EnoughSignedResponses (service : RuneBridgeService Hash) (signerOf : SignerOf Signer)
    (unsignedPsbt : Psbt) (self : Signer) (responses : List SignRuneTokenToBtcTransferAnswer) :
    Prop :=
  ∃ signers signed, signers.Nodup ∧ self ∉ signers ∧
    service.ordMultisig.numRequiredSigners ≤ signers.length + 1 ∧ signed.Sublist responses ∧
    service.SignedResponses signerOf unsignedPsbt signers signed

/-- Enough of them in the first places suffice, when the others can be parsed. -/
lemma firstResponsesSuffice_of_signed {unsignedPsbt selfSignedPsbt : Psbt} {self : Signer}
    {signers : List Signer} {signed others : List SignRuneTokenToBtcTransferAnswer}
    {otherPsbts : List Psbt} (hselfTx : selfSignedPsbt.unsignedTx = unsignedPsbt.unsignedTx)
    (hself : ∀ i < unsignedPsbt.inputs.length, selfSignedPsbt.SignedBy signerOf i self)
    (hnodup : signers.Nodup) (hnot : self ∉ signers)
    (hlength : service.ordMultisig.numRequiredSigners = signers.length + 1)
    (hsigned : service.SignedResponses signerOf unsignedPsbt signers signed)
    (hothers : List.Forall₂ (fun response psbt =>
      service.psbtCodec.fromBase64 response.signedPsbtSerialized = .ok psbt) others otherPsbts) :
    service.FirstResponsesSuffice signerOf unsignedPsbt selfSignedPsbt (signed ++ others) := by
  obtain ⟨psbts, hparsed, hcarry⟩ : ∃ psbts, List.Forall₂ (fun response psbt =>
      service.psbtCodec.fromBase64 response.signedPsbtSerialized = .ok psbt) signed psbts ∧
      List.Forall₂ (fun signer psbt => psbt.unsignedTx = unsignedPsbt.unsignedTx ∧
        ∀ i < unsignedPsbt.inputs.length, psbt.SignedBy signerOf i signer) signers psbts := by
    clear hnodup hnot hlength
    induction hsigned with
    | nil => exact ⟨[], .nil, .nil⟩
    | cons hresponse _ ih =>
        obtain ⟨psbt, hpsbt, htx, hsigner⟩ := hresponse
        obtain ⟨psbts, hparsed, hcarry⟩ := ih
        exact ⟨psbt :: psbts, .cons hpsbt hparsed, .cons ⟨htx, hsigner⟩ hcarry⟩
  have htake : (selfSignedPsbt :: (psbts ++ otherPsbts)).take
      service.ordMultisig.numRequiredSigners = selfSignedPsbt :: psbts := by
    rw [hlength, hcarry.length_eq, List.take_succ_cons, List.take_left]
  refine ⟨psbts ++ otherPsbts, List.rel_append hparsed hothers, ?_⟩
  simp only [htake]
  refine ⟨by rw [List.length_cons, hlength, hcarry.length_eq], ?_, fun i hi => ?_⟩
  · intro psbt hpsbt
    rcases List.mem_cons.1 hpsbt with rfl | hmem
    · exact hselfTx
    · obtain ⟨signer, -, htx, -⟩ := Lists.exists_left_of_forall₂ hcarry hmem
      exact htx
  · classical
    refine ⟨(self :: signers).toFinset, ?_, fun signer hsigner => ?_⟩
    · rw [List.toFinset_card_of_nodup (List.nodup_cons.2 ⟨hnot, hnodup⟩), List.length_cons,
        hlength]
    · rcases List.mem_cons.1 (List.mem_toFinset.1 hsigner) with rfl | hmem
      · exact ⟨selfSignedPsbt, by simp, hself i hi⟩
      · obtain ⟨psbt, hpsbt, -, hsigns⟩ := Lists.exists_right_of_forall₂ hcarry hmem
        exact ⟨psbt, by simp [hpsbt], hsigns i hi⟩

/-- The runestone is read from the outputs alone. -/
def HasRunestone (service : RuneBridgeService Hash) (vout : List TxOut) : Prop :=
  ∃ r, service.codec.decipher (vout.map TxOut.scriptPubKey) = some (.runestone r)

lemma finalizePsbt_ok (hlaw : service.psbtCodec.Merges signerOf k) {p final : Psbt}
    (hp : p.WellFormed) (h : service.finalizePsbt p = .ok final) :
    p.Complete signerOf k ∧ ∃ tx, service.psbtCodec.extractTransaction final = .ok tx ∧
      tx.vout = p.unsignedTx.vout := by
  obtain ⟨isFinal, p', hfinalize, hiff, hextract⟩ := hlaw.finalize p hp
  simp only [finalizePsbt, hfinalize, ok_bind, bind_eq_ok, exists_unit, require_eq_ok] at h
  obtain ⟨hfinal, tx, htx, h⟩ := h
  obtain ⟨tx', htx', hvout⟩ := hextract hfinal
  obtain rfl : tx = tx' := Except.ok.inj (htx.symm.trans htx')
  refine ⟨hiff.1 hfinal, tx, ?_, hvout⟩
  split at h
  · exact absurd h (by simp)
  · exact absurd h (by simp)
  · rw [← pure_eq_ok.1 h, htx]

lemma finalizePsbt_of_complete (hlaw : service.psbtCodec.Merges signerOf k) {p : Psbt}
    (hp : p.WellFormed) (hrunestone : service.HasRunestone p.unsignedTx.vout)
    (hcomplete : p.Complete signerOf k) : ∃ final, service.finalizePsbt p = .ok final := by
  obtain ⟨isFinal, p', hfinalize, hiff, hextract⟩ := hlaw.finalize p hp
  have hfinal := hiff.2 hcomplete
  obtain ⟨tx, htx, hvout⟩ := hextract hfinal
  obtain ⟨r, hr⟩ := hrunestone
  refine ⟨p', ?_⟩
  simp only [finalizePsbt, hfinalize, ok_bind, require_of hfinal, htx, hvout, hr]
  rfl

section Payout

variable {unsignedPsbt selfSignedPsbt : Psbt}
  {responses : List SignRuneTokenToBtcTransferAnswer}
  (hlaw : service.psbtCodec.Merges signerOf service.ordMultisig.numRequiredSigners)
  (hwell : unsignedPsbt.WellFormed)
  (hself : selfSignedPsbt.WellFormed)

include hlaw in
/-- The transactions of the first responses have an entry for each input. -/
lemma wellFormed_of_parsed {psbts : List Psbt} (hself : selfSignedPsbt.WellFormed)
    (hparsed : List.Forall₂ (fun response psbt =>
      service.psbtCodec.fromBase64 response.signedPsbtSerialized = .ok psbt) responses psbts) :
    ∀ psbt ∈ (selfSignedPsbt :: psbts).take service.ordMultisig.numRequiredSigners,
      psbt.WellFormed := by
  intro psbt hpsbt
  rcases List.mem_cons.1 (List.mem_of_mem_take hpsbt) with rfl | hmem
  · exact hself
  · obtain ⟨response, -, hresponse⟩ := Lists.exists_left_of_forall₂ hparsed hmem
    exact hlaw.fromBase64 _ _ hresponse

/-- Nobody has signed a transaction without signatures. -/
lemma not_signedBy_of_unsigned (hunsigned : ∀ inp ∈ unsignedPsbt.inputs, inp.partialSigs = [])
    (i : ℕ) (signer : Signer) : ¬ unsignedPsbt.SignedBy signerOf i signer := by
  rintro ⟨inp, hinp, sig, hsig, -⟩
  rw [hunsigned inp (List.mem_of_getElem? hinp)] at hsig
  exact absurd hsig (by simp)

/-- What is combined with the leader's transaction has an input for each of its. -/
lemma Combines.length (hwell : unsignedPsbt.WellFormed) {first : List Psbt} {r : Psbt}
    (h : Combines signerOf unsignedPsbt first r) :
    r.inputs.length = unsignedPsbt.inputs.length := by
  rw [show r.inputs.length = _ from h.wellFormed, h.unsignedTx]
  exact hwell.symm

include hlaw hwell hself in
/-- A payout that is finalized was combined from the first responses, which are of the leader's
transaction. -/
lemma combined_of_finalizePayout {final : Psbt}
    (h : service.finalizePayout unsignedPsbt selfSignedPsbt responses = .ok (some final)) :
    ∃ psbts r, List.Forall₂ (fun response psbt =>
        service.psbtCodec.fromBase64 response.signedPsbtSerialized = .ok psbt) responses psbts ∧
      ((selfSignedPsbt :: psbts).take service.ordMultisig.numRequiredSigners).length =
        service.ordMultisig.numRequiredSigners ∧
      (∀ psbt ∈ (selfSignedPsbt :: psbts).take service.ordMultisig.numRequiredSigners,
        psbt.unsignedTx = unsignedPsbt.unsignedTx) ∧
      Combines signerOf unsignedPsbt
        ((selfSignedPsbt :: psbts).take service.ordMultisig.numRequiredSigners) r ∧
      service.finalizePsbt r = .ok final := by
  rw [finalizePayout, bind_eq_ok] at h
  obtain ⟨psbts, hpsbts, h⟩ := h
  have hparsed := deserializePsbts_eq_ok.1 hpsbts
  simp only at h
  split at h
  · exact absurd (pure_eq_ok.1 h) (by simp)
  rename_i henough
  simp only [combineAndFinalizePsbt, bind_eq_ok, pure_eq_ok] at h
  obtain ⟨final', ⟨r, hr, hfinal⟩, heq⟩ := h
  obtain rfl := Option.some.inj heq
  obtain ⟨hsame, hcombines⟩ :=
    combines_of_ok hlaw hwell (wellFormed_of_parsed hlaw hself hparsed) hr
  refine ⟨psbts, r, hparsed, ?_, hsame, hcombines, hfinal⟩
  rw [List.length_take] at henough ⊢
  omega

include hlaw hwell hself in
/-- A payout is finalized only when the first responses suffice. -/
theorem suffice_of_finalizePayout (hunsigned : ∀ inp ∈ unsignedPsbt.inputs, inp.partialSigs = [])
    {final : Psbt}
    (h : service.finalizePayout unsignedPsbt selfSignedPsbt responses = .ok (some final)) :
    service.FirstResponsesSuffice signerOf unsignedPsbt selfSignedPsbt responses := by
  obtain ⟨psbts, r, hparsed, hlength, hsame, hcombines, hfinal⟩ :=
    combined_of_finalizePayout hlaw hwell hself h
  refine ⟨psbts, hparsed, hlength, hsame, fun i hi => ?_⟩
  obtain ⟨signers, hcard, hsigners⟩ :=
    (finalizePsbt_ok hlaw hcombines.wellFormed hfinal).1 i ((hcombines.length hwell).symm ▸ hi)
  refine ⟨signers, hcard, fun signer hsigner => ?_⟩
  exact (hcombines.signedBy i signer (hsigners signer hsigner)).resolve_left
    (not_signedBy_of_unsigned hunsigned i signer)

include hlaw hwell hself in
/-- And it is, when they do and do not conflict. -/
theorem finalizePayout_of_suffice
    (hconsistent : service.FirstResponsesConsistent unsignedPsbt selfSignedPsbt responses)
    (hrunestone : service.HasRunestone unsignedPsbt.unsignedTx.vout)
    (h : service.FirstResponsesSuffice signerOf unsignedPsbt selfSignedPsbt responses) :
    ∃ final, service.finalizePayout unsignedPsbt selfSignedPsbt responses = .ok (some final) := by
  obtain ⟨psbts, hparsed, hlength, hsame, hsigners⟩ := h
  have hfirst := wellFormed_of_parsed hlaw hself hparsed
  obtain ⟨r, hr, hkeeps⟩ := combinePsbts_of_consistent hlaw hwell hfirst
    (hconsistent psbts hparsed) hsame
  obtain ⟨-, hcombines⟩ := combines_of_ok hlaw hwell hfirst hr
  have hcomplete : r.Complete signerOf service.ordMultisig.numRequiredSigners := by
    intro i hi
    obtain ⟨signers, hcard, hsigned⟩ := hsigners i (hcombines.length hwell ▸ hi)
    exact ⟨signers, hcard, fun signer hsigner =>
      hkeeps i signer (.inr (hsigned signer hsigner))⟩
  obtain ⟨final, hfinal⟩ := finalizePsbt_of_complete hlaw hcombines.wellFormed
    (hcombines.unsignedTx.symm ▸ hrunestone) hcomplete
  refine ⟨final, ?_⟩
  simp only [finalizePayout, deserializePsbts_eq_ok.2 hparsed, ok_bind, combineAndFinalizePsbt, hr,
    hfinal, hlength, lt_irrefl, if_false]
  rfl

include hlaw hwell hself in
/-- A payout that is finalized can be extracted, with the outputs that were built. -/
lemma extract_of_finalizePayout {final : Psbt}
    (h : service.finalizePayout unsignedPsbt selfSignedPsbt responses = .ok (some final)) :
    ∃ tx, service.psbtCodec.extractTransaction final = .ok tx ∧
      tx.vout = unsignedPsbt.unsignedTx.vout := by
  obtain ⟨psbts, r, -, -, -, hcombines, hfinal⟩ :=
    combined_of_finalizePayout hlaw hwell hself h
  obtain ⟨-, tx, htx, hvout⟩ := finalizePsbt_ok hlaw hcombines.wellFormed hfinal
  exact ⟨tx, htx, by rw [hvout, hcombines.unsignedTx]⟩

end Payout

end RuneBridgeService

/-! ## The transaction that is built -/

namespace OrdMultisig

variable {ms : OrdMultisig} {rpc : BitcoinRpc} {ord : OrdApiClient} {codec : Codec}

/-- Nobody has signed the transaction, which has an entry for each input. -/
structure Unsigned (psbt : Psbt) : Prop where
  wellFormed : psbt.WellFormed
  partialSigs : ∀ inp ∈ psbt.inputs, inp.partialSigs = []

lemma Unsigned.addAll {s s' : Selection} {utxos : List UTXO} (hs : Unsigned s.psbt)
    (h : s.addAll ms rpc utxos = .ok s') : Unsigned s'.psbt := by
  induction utxos generalizing s with
  | nil =>
      obtain rfl := pure_eq_ok.1 h
      exact hs
  | cons utxo utxos ih =>
      rw [Selection.addAll, bind_eq_ok] at h
      obtain ⟨s₁, hadd, hrest⟩ := h
      simp only [Selection.add, addPsbtInput, bind_eq_ok, exists_unit, pure_eq_ok] at hadd
      obtain ⟨psbt, ⟨tx, -, d, -, -, txout, -, rfl⟩, rfl⟩ := hadd
      refine ih ⟨?_, fun inp hinp => ?_⟩ hrest
      · have hlength := hs.wellFormed
        rw [Psbt.WellFormed] at hlength
        simp [Psbt.WellFormed, Psbt.addInput, hlength]
      · rcases List.mem_append.1 hinp with hinp | hinp
        · exact hs.partialSigs inp hinp
        · rw [List.mem_singleton.1 hinp]

/-- Nobody has signed what `create_rune_psbt` returns. -/
theorem unsigned_createRunePsbt {transfers : List RuneTransfer} {feeRate : ℤ} {maxNumInputs : ℕ}
    {psbt : Psbt} (h : ms.createRunePsbt rpc ord codec transfers feeRate maxNumInputs = .ok psbt) :
    Unsigned psbt := by
  obtain ⟨s, outputAmountSat, hselects, hfinish⟩ := createRunePsbt_eq_ok.1 h
  obtain ⟨edicts, initial, spent, hinitial, hadded⟩ := hselects.added
  have hempty := (initialPsbt_ok hinitial).1
  have hinputs : initial.inputs = [] := List.map_eq_nil_iff.1 hempty.witnessScripts
  have hvin : initial.unsignedTx.vin = [] := hempty.vin
  have hs : Unsigned s.psbt := by
    refine Unsigned.addAll ⟨?_, ?_⟩ hadded
    · rw [Psbt.WellFormed, hinputs, hvin]
      rfl
    · rw [hinputs]
      simp
  simp only [finishPsbt, bind_eq_ok, exists_unit, pure_eq_ok] at hfinish
  obtain ⟨-, -, fee, -, -, rfl⟩ := hfinish
  split
  · exact ⟨hs.wellFormed, hs.partialSigs⟩
  · exact hs

end OrdMultisig

/-! ## Broadcasting -/

namespace NodeState

variable {Hash α β : Type} {env : ℕ → Surroundings Hash} {s : NodeState Hash}

/-- A transaction that only looks changes nothing. -/
lemma eval_query_bind {body : Views Hash → Db Hash → PyResult β} {f : β → NodeProg Hash α} {b : β}
    (hbody : body (env 0).views s.db = .ok b) (hcommit : (env 0).commit = .done) :
    eval (NodeProg.query body >>= f) env s = eval (f b) (fun n => env (n + 1)) s := by
  rw [NodeProg.query, eval_transaction_bind]
  simp only [hbody, ok_bind, pure_eq_ok.2 rfl, hcommit]

lemma eval_lift_bind {x : PyResult β} {f : β → NodeProg Hash α} :
    eval (Prog.lift x >>= f) env s =
      match x with
      | .ok b => eval (f b) env s
      | .error e => (.error e, s) := by
  cases x with
  | ok b => rfl
  | error e => rfl

lemma eval_askPayout_bind {message : SignRuneTokenToBtcTransferQuestion}
    {f : List SignRuneTokenToBtcTransferAnswer → NodeProg Hash α} :
    eval (NodeProg.askPayout message >>= f) env s =
      match (env 0).askPayout with
      | .ok responses => eval (f responses) (fun n => env (n + 1)) s
      | .error e => (.error e, s) := by
  refine (@eval_perform_bind _ NodeOp.Resp _ _ _ _ _ _ _ (.askPayout message) f).trans ?_
  simp only [handle]
  cases (env 0).askPayout with
  | ok responses => rfl
  | error e => rfl

end NodeState

section Broadcast

variable {Hash Signer : Type} {service : RuneBridgeService Hash} {signerOf : SignerOf Signer}
  {env : ℕ → Surroundings Hash} {s : NodeState Hash} {key : RuneTokenDepositKey}
  {unsignedPsbt selfSignedPsbt : Psbt} {responses : List SignRuneTokenToBtcTransferAnswer}

/-- The leader of a payout up to the responses: the deposit is accepted, its transaction is built,
the leader signs it itself, and the database does its work. -/
structure PayoutAttempt (service : RuneBridgeService Hash) (env : ℕ → Surroundings Hash)
    (s : NodeState Hash) (key : RuneTokenDepositKey) (unsignedPsbt selfSignedPsbt : Psbt)
    (responses : List SignRuneTokenToBtcTransferAnswer) : Prop where
  commit : (env 0).commit = .done ∧ (env 2).commit = .done ∧ (env 4).commit = .done
  signed : ∃ transfer message selfResponse,
    RuneBridgeService.getRuneTokenToBtcTransfer key s.db = .ok transfer ∧
    service.createPayout (env 1).views transfer = .ok (unsignedPsbt, message) ∧
    service.answerSignRuneTokenToBtcTransferQuestion (env 2).views s.db message =
      .ok selfResponse ∧
    service.psbtCodec.fromBase64 selfResponse.signedPsbtSerialized = .ok selfSignedPsbt
  responses : (env 3).askPayout = .ok responses

namespace PayoutAttempt

/-- After the responses, the payout is broadcast if it can be finalized. -/
lemma eval_eq (h : PayoutAttempt service env s key unsignedPsbt selfSignedPsbt responses) :
    NodeState.eval (service.handleAcceptedRuneTokenDeposit key) env s =
      match service.finalizePayout unsignedPsbt selfSignedPsbt responses with
      | .error e => (.error e, s)
      | .ok none => (.ok (), s)
      | .ok (some final) =>
          NodeState.eval (service.broadcastPayout key final) (fun n => env (n + 4)) s := by
  obtain ⟨transfer, message, selfResponse, htransfer, hbuilt, hself, hparsed⟩ := h.signed
  obtain ⟨hcommit0, hcommit2, -⟩ := h.commit
  have hresponses := h.responses
  rw [RuneBridgeService.handleAcceptedRuneTokenDeposit,
    NodeState.eval_query_bind htransfer hcommit0, NodeState.eval_read_bind]
  simp only [hbuilt]
  rw [NodeState.eval_query_bind hself hcommit2, NodeState.eval_lift_bind]
  simp only [hparsed]
  rw [NodeState.eval_askPayout_bind]
  simp only [hresponses]
  rw [NodeState.eval_lift_bind]
  rcases service.finalizePayout unsignedPsbt selfSignedPsbt responses with e | _ | final
  · rfl
  · rfl
  · rfl

end PayoutAttempt

/-- A call that broadcasts nothing. -/
def BroadcastsNothing : NodeOp Hash → Prop
  | .broadcastPsbt .. => False
  | _ => True

/-- What broadcasts nothing leaves the broadcasts as they are. -/
lemma broadcast_eval {α : Type} {p : NodeProg Hash α} (hp : p.Calls BroadcastsNothing) :
    (NodeState.eval p env s).2.broadcast = s.broadcast := by
  refine eval_keeps hp (I := fun s' : NodeState Hash => s'.broadcast = s.broadcast) ?_ rfl
  intro m s' o ho hs'
  cases o with
  | transaction body =>
      rw [NodeState.handle]
      rcases body m.views s'.db with e | ⟨b, db⟩
      · exact hs'
      · cases m.commit with
        | done => exact hs'
        | refused e => exact hs'
        | unacknowledged e => exact hs'
  | broadcastPsbt key psbt => exact ho.elim
  | _ => exact hs'

lemma calls_update (body : Db Hash → PyResult (Db Hash)) :
    (NodeProg.update body).Calls BroadcastsNothing :=
  Prog.calls_perform trivial

/-- The payout of an accepted deposit is broadcast once, whatever comes of it. -/
lemma broadcast_broadcastPayout {final : Psbt} {deposit : RuneTokenDeposit}
    (hrow : s.db.runeTokenDeposits.get? key = some deposit) (haccepted : deposit.status = .accepted)
    (hcommit : (env 0).commit = .done) :
    (NodeState.eval (service.broadcastPayout key final) env s).2.broadcast =
      s.broadcast ++ [(key, final)] := by
  obtain ⟨db', hbegin⟩ : ∃ db', service.beginPayout key final s.db = .ok db' :=
    ⟨_, RuneBridgeService.beginPayout_eq_ok.2 ⟨deposit, hrow, haccepted, rfl⟩⟩
  rw [RuneBridgeService.broadcastPayout, NodeProg.update, NodeState.eval_transaction_bind]
  simp only [hbegin, ok_bind, pure_eq_ok.2 rfl, hcommit]
  -- the call, and what comes after it
  have hbroadcast : ∃ next, (do
      let txid ← Prog.tryCatch (NodeProg.broadcastPsbt key final) fun e => do
        NodeProg.update (RuneBridgeService.failPayout key)
        throw e
      NodeProg.sendMessage
      NodeProg.update (RuneBridgeService.finishPayout key txid) : NodeProg Hash Unit) =
        .call (.broadcastPsbt key final) next ∧ ∀ r, (next r).Calls BroadcastsNothing := by
    have hsent (txid : String) : ((NodeProg.sendMessage >>= fun _ =>
        NodeProg.update (RuneBridgeService.finishPayout key txid)) : NodeProg Hash Unit).Calls
          BroadcastsNothing :=
      Prog.calls_bind (Prog.calls_perform trivial) fun _ => calls_update _
    have hfailed (e : PyError) : ((NodeProg.update (RuneBridgeService.failPayout key) >>= fun _ =>
        throw e) : NodeProg Hash String).Calls BroadcastsNothing :=
      Prog.calls_bind (calls_update _) fun _ => trivial
    refine ⟨_, rfl, fun r => ?_⟩
    cases r with
    | ok txid => exact hsent txid
    | error e => exact Prog.calls_bind (hfailed e) hsent
  obtain ⟨next, hnext, hcalls⟩ := hbroadcast
  rw [hnext]
  exact broadcast_eval (hcalls _)

end Broadcast

/-- **One faulty peer can block a payout.**  The leader obtains and broadcasts a final transaction of
the payout it built only when every response can be parsed and the first ones, as many as are
needed, have enough signers with it; and always then, unless their entries conflict, which leaves it
to the library. -/
theorem payout_broadcast_iff {Hash Signer : Type} {service : RuneBridgeService Hash}
    {signerOf : SignerOf Signer} {env : ℕ → Surroundings Hash} {s : NodeState Hash}
    {key : RuneTokenDepositKey} {unsignedPsbt selfSignedPsbt : Psbt}
    {responses : List SignRuneTokenToBtcTransferAnswer}
    (hlaw : service.psbtCodec.Merges signerOf service.ordMultisig.numRequiredSigners)
    (hround : service.psbtCodec.fromBase64 (service.psbtCodec.toBase64 unsignedPsbt) =
      .ok unsignedPsbt)
    (h : PayoutAttempt service env s key unsignedPsbt selfSignedPsbt responses) :
    let Broadcast := ∃ final tx,
      (NodeState.eval (service.handleAcceptedRuneTokenDeposit key) env s).2.broadcast =
        s.broadcast ++ [(key, final)] ∧
      service.psbtCodec.extractTransaction final = .ok tx ∧
      tx.vout = unsignedPsbt.unsignedTx.vout
    (Broadcast → service.FirstResponsesSuffice signerOf unsignedPsbt selfSignedPsbt responses) ∧
    (service.FirstResponsesConsistent unsignedPsbt selfSignedPsbt responses →
      (Broadcast ↔
        service.FirstResponsesSuffice signerOf unsignedPsbt selfSignedPsbt responses)) := by
  intro Broadcast
  obtain ⟨transfer, message, selfResponse, htransfer, hbuilt, hself, hparsed⟩ := h.signed
  have hwellSelf := hlaw.fromBase64 _ _ hparsed
  have hserialized : message.unsignedPsbtSerialized = service.psbtCodec.toBase64 unsignedPsbt := by
    simp only [RuneBridgeService.createPayout, bind_eq_ok, pure_eq_ok] at hbuilt
    obtain ⟨feeRate, -, rune, -, psbt, -, heq⟩ := hbuilt
    obtain ⟨rfl, rfl⟩ := Prod.mk.inj heq
    rfl
  have hunsigned : OrdMultisig.Unsigned unsignedPsbt := by
    simp only [RuneBridgeService.createPayout, bind_eq_ok, pure_eq_ok] at hbuilt
    obtain ⟨feeRate, -, rune, -, psbt, hpsbt, heq⟩ := hbuilt
    obtain ⟨rfl, -⟩ := Prod.mk.inj heq
    exact OrdMultisig.unsigned_createRunePsbt hpsbt
  have hrunestone : service.HasRunestone unsignedPsbt.unsignedTx.vout := by
    obtain ⟨psbt, hchecked, -⟩ := RuneBridgeService.answerSign_eq_ok.1 hself
    obtain ⟨-, -, hpsbt, r, hr, -⟩ := RuneBridgeService.validateSign_eq_ok.1 hchecked
    rw [hserialized, hround] at hpsbt
    obtain rfl := Except.ok.inj hpsbt
    exact ⟨r, hr⟩
  have hfinalized : Broadcast ↔ ∃ final,
      service.finalizePayout unsignedPsbt selfSignedPsbt responses = .ok (some final) := by
    simp only [Broadcast, h.eval_eq]
    constructor
    · rintro ⟨final, tx, hbroadcast, -⟩
      rcases hfinalize : service.finalizePayout unsignedPsbt selfSignedPsbt responses with
        e | _ | final'
      · simp [hfinalize] at hbroadcast
      · simp [hfinalize] at hbroadcast
      · exact ⟨final', rfl⟩
    · rintro ⟨final, hfinal⟩
      obtain ⟨tx, htx, hvout⟩ := RuneBridgeService.extract_of_finalizePayout hlaw
        hunsigned.wellFormed hwellSelf hfinal
      simp only [RuneBridgeService.getRuneTokenToBtcTransfer,
        RuneBridgeService.runeTokenDeposit_eq_ok, bind_eq_ok, exists_unit,
        require_eq_ok] at htransfer
      obtain ⟨deposit, hrow, haccepted, -⟩ := htransfer
      refine ⟨final, tx, ?_, htx, hvout⟩
      simp only [hfinal]
      exact broadcast_broadcastPayout hrow haccepted h.commit.2.2
  have hsuffice : Broadcast →
      service.FirstResponsesSuffice signerOf unsignedPsbt selfSignedPsbt responses := by
    intro hbroadcast
    obtain ⟨final, hfinal⟩ := hfinalized.1 hbroadcast
    exact RuneBridgeService.suffice_of_finalizePayout hlaw hunsigned.wellFormed hwellSelf
      hunsigned.partialSigs hfinal
  refine ⟨hsuffice, fun hconsistent => ⟨hsuffice, fun hfirst => hfinalized.2 ?_⟩⟩
  exact RuneBridgeService.finalizePayout_of_suffice hlaw hunsigned.wellFormed hwellSelf hconsistent
    hrunestone hfirst

/-! ## Examples -/

namespace ExampleNode

/-- A signature is valid when it is the signer's key. -/
def validSigner (sig : List UInt8 × List UInt8) : Option (List UInt8) :=
  if sig.2 = sig.1 then some sig.1 else none

/-- The library, for a multisig of two signers. -/
def quorumCodec (psbts : List Psbt) : PsbtCodec :=
  { psbtCodec psbts with
    finalize := fun psbt => .ok
      (psbt.inputs.all fun inp => 2 ≤ (inp.partialSigs.filterMap validSigner).toFinset.card, psbt) }

lemma merges_quorumCodec {psbts : List Psbt} (hpsbts : ∀ psbt ∈ psbts, psbt.WellFormed) :
    (quorumCodec psbts).Merges (fun _ _ => validSigner) 2 where
  fromBase64 text psbt h := by
    simp only [quorumCodec, psbtCodec] at h
    split at h
    · rename_i psbt' hget
      obtain rfl := Except.ok.inj h
      exact hpsbts _ (List.mem_of_getElem? hget)
    · exact absurd h (by simp)
  combine p q hp hq hsame _ := by
    refine ⟨⟨p.unsignedTx, List.zipWith (fun i s => { i with partialSigs := s }) p.inputs
      (List.zipWith (fun i j => i.partialSigs ++ j.partialSigs) p.inputs q.inputs)⟩, ?_, rfl, ?_⟩
    · simp only [quorumCodec, psbtCodec, require_of hsame.symm, ok_bind]
      rfl
    · refine List.forall₂_iff_get.2 ⟨by simp, fun i hi hi' => ?_⟩
      constructor
      · simp
      · simp
  combine_ok p q r _ _ h := by
    simp only [quorumCodec, psbtCodec, bind_eq_ok, exists_unit, require_eq_ok, pure_eq_ok] at h
    obtain ⟨hsame, rfl⟩ := h
    refine ⟨hsame.symm, rfl, List.forall₂_iff_get.2 ⟨by simp, fun i hi hi' => ?_⟩⟩
    simp [PsbtInput.Taken]
  finalize p _ := by
    refine ⟨_, p, rfl, ?_, fun _ => ⟨p.unsignedTx, rfl, rfl⟩⟩
    have hsigned (i : ℕ) (hi : i < p.inputs.length) (signer : List UInt8) :
        p.SignedBy (fun _ _ => validSigner) i signer ↔
          signer ∈ (p.inputs[i].partialSigs.filterMap validSigner).toFinset := by
      rw [List.mem_toFinset, List.mem_filterMap, Psbt.SignedBy, List.getElem?_eq_getElem hi]
      simp
    rw [List.all_eq_true, Psbt.Complete]
    constructor
    · intro hall i hi
      exact ⟨_, of_decide_eq_true (hall _ (List.getElem_mem hi)), fun signer h =>
        (hsigned i hi signer).2 h⟩
    · intro hcomplete inp hinp
      obtain ⟨i, hi, rfl⟩ := List.mem_iff_getElem.1 hinp
      obtain ⟨signers, hcard, hsigners⟩ := hcomplete i hi
      apply decide_eq_true
      exact hcard.trans (Finset.card_le_card fun signer h => (hsigned i hi signer).1 (hsigners _ h))

/-- The payout of `transfer` by a multisig of two signers. -/
def quorumPayout : Psbt :=
  { payout 1 with
    unsignedTx :=
      { (payout 1).unsignedTx with
        vout := (payout 1).unsignedTx.vout.take 3 ++
          [⟨89761, ExampleWallet.ms.changeScriptPubkey⟩] } }

/-- A transaction signed with this key. -/
def signWith (key : List UInt8) (psbt : Psbt) : Psbt :=
  { psbt with
    inputs := psbt.inputs.map fun inp =>
      { inp with partialSigs := inp.partialSigs ++ [(key, key)] } }

/-- The payout, the payout signed by the leader and by a peer, and an unrelated transaction. -/
def quorumPsbts : List Psbt :=
  [quorumPayout, signWith [4] quorumPayout, signWith [5] quorumPayout, Psbt.empty]

def quorumService : RuneBridgeService Bytes :=
  { service '4' quorumPsbts with
    ordMultisig :=
      { ExampleWallet.ms with
        numRequiredSigners := 2
        keyStoreSign := fun psbt => .ok (psbt.inputs.length, signWith [4] psbt) }
    psbtCodec := quorumCodec quorumPsbts }

def signedResponse : SignRuneTokenToBtcTransferAnswer := ⟨"xx", "peer"⟩

def unrelatedResponse : SignRuneTokenToBtcTransferAnswer := ⟨"xxx", "faulty"⟩

def payoutState : NodeState Bytes := ⟨db, [], []⟩

/-- The peers answer with these responses, and everything else works. -/
def payoutSurroundings (responses : List SignRuneTokenToBtcTransferAnswer) :
    Surroundings Bytes where
  views := views ['4']
  commit := .done
  check := .ok ()
  askMint := .ok []
  askPayout := .ok responses
  transact := .ok "hash"
  broadcastPsbt := .ok "txid"
  sendMessage := .ok ()

lemma merges_quorumService : quorumService.psbtCodec.Merges (fun _ _ => validSigner) 2 := by
  apply merges_quorumCodec
  decide

lemma payoutAttempt (responses : List SignRuneTokenToBtcTransferAnswer) :
    PayoutAttempt quorumService (fun _ => payoutSurroundings responses) payoutState
      tokenDepositKey quorumPayout (signWith [4] quorumPayout) responses where
  commit := ⟨rfl, rfl, rfl⟩
  signed := by
    refine ⟨transfer, payoutQuestion "", ⟨"x", "xpub"⟩, ?_, ?_, ?_, rfl⟩
    · exact getRuneTokenToBtcTransfer_db
    · show quorumService.createPayout (views ['4']) transfer = _
      decide +kernel
    · show quorumService.answerSignRuneTokenToBtcTransferQuestion (views ['4']) db
        (payoutQuestion "") = _
      decide +kernel
  responses := rfl

lemma signedResponses : quorumService.SignedResponses (fun _ _ => validSigner) quorumPayout [[5]]
    [signedResponse] := by
  refine .cons ⟨signWith [5] quorumPayout, rfl, rfl, fun i hi => ?_⟩ .nil
  have hi' : i < 2 := hi
  interval_cases i
  · exact ⟨_, rfl, ([5], [5]), by decide, rfl⟩
  · exact ⟨_, rfl, ([5], [5]), by decide, rfl⟩

lemma firstResponsesConsistent : quorumService.FirstResponsesConsistent quorumPayout
    (signWith [4] quorumPayout) [signedResponse, unrelatedResponse] := by
  intro psbts hpsbts
  obtain ⟨psbt, rest, hpsbt, hrest, rfl⟩ := List.forall₂_cons_left_iff.1 hpsbts
  have hsigned : quorumService.psbtCodec.fromBase64 signedResponse.signedPsbtSerialized =
      .ok (signWith [5] quorumPayout) := rfl
  obtain rfl := Except.ok.inj (hsigned.symm.trans hpsbt)
  show [quorumPayout, signWith [4] quorumPayout, signWith [5] quorumPayout].Pairwise
    Psbt.ConsistentIfSame
  decide +kernel

end ExampleNode

open ExampleNode in
/-- With the peer's response first, the payout is broadcast. -/
theorem payout_broadcast_iff_example :
    ∃ final tx, (NodeState.eval (quorumService.handleAcceptedRuneTokenDeposit tokenDepositKey)
        (fun _ => payoutSurroundings [signedResponse, unrelatedResponse]) payoutState).2.broadcast =
          [(tokenDepositKey, final)] ∧
      quorumService.psbtCodec.extractTransaction final = .ok tx ∧
      tx.vout = quorumPayout.unsignedTx.vout := by
  apply ((payout_broadcast_iff merges_quorumService rfl (payoutAttempt _)).2
    firstResponsesConsistent).2
  have hself : ∀ i < quorumPayout.inputs.length,
      (signWith [4] quorumPayout).SignedBy (fun _ _ => validSigner) i [4] := by
    intro i hi
    have hi' : i < 2 := hi
    interval_cases i
    · exact ⟨_, rfl, ([4], [4]), by decide, rfl⟩
    · exact ⟨_, rfl, ([4], [4]), by decide, rfl⟩
  have hnot : ([4] : List UInt8) ∉ ([[5]] : List (List UInt8)) := by
    decide
  have hothers : List.Forall₂ (fun (response : SignRuneTokenToBtcTransferAnswer) psbt =>
      quorumService.psbtCodec.fromBase64 response.signedPsbtSerialized = .ok psbt)
        [unrelatedResponse] [Psbt.empty] :=
    .cons rfl .nil
  have hselfTx : (signWith [4] quorumPayout).unsignedTx = quorumPayout.unsignedTx := rfl
  exact RuneBridgeService.firstResponsesSuffice_of_signed hselfTx hself (by decide) hnot rfl
    signedResponses hothers

open ExampleNode in
/-- **A blocked payout.**  An unrelated transaction comes before the peer's signature: the leader
has enough signatures and raises. -/
theorem payout_blocked :
    PayoutAttempt quorumService (fun _ => payoutSurroundings [unrelatedResponse, signedResponse])
        payoutState tokenDepositKey quorumPayout (signWith [4] quorumPayout)
        [unrelatedResponse, signedResponse] ∧
      quorumService.EnoughSignedResponses (fun _ _ => validSigner) quorumPayout [4]
        [unrelatedResponse, signedResponse] ∧
      NodeState.eval (quorumService.handleAcceptedRuneTokenDeposit tokenDepositKey)
        (fun _ => payoutSurroundings [unrelatedResponse, signedResponse]) payoutState =
          (.error (.valueError "different transactions"), payoutState) := by
  refine ⟨payoutAttempt _, ⟨[[5]], [signedResponse], by decide, by decide, le_rfl, ?_,
    signedResponses⟩, ?_⟩
  · exact List.sublist_cons_self _ _
  · have hraises : quorumService.finalizePayout quorumPayout (signWith [4] quorumPayout)
        [unrelatedResponse, signedResponse] = .error (.valueError "different transactions") := by
      decide +kernel
    rw [(payoutAttempt _).eval_eq, hraises]

end NbteBridge
