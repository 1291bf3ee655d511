import NbteBridge.TapRsk.Batches

/-!
# Signatures and the order of the transfers

A signer signs the transfers of a batch in the order in which they were loaded for the question, and
what is sent for a transfer is found by its place among the transfers as they are loaded for
sending.  Rows are sorted by a counter, so both orders are the same when the counters are distinct;
when two are equal, or missing, the database may swap their rows.

Every transfer gets the signatures made for it, in whatever order the rows come, exactly when the
counters are distinct and there is a signature (`ownSignatures_of_nodup`,
`nodup_of_ownSignatures`).
-/

namespace NbteBridge

open Tables

/-! ## Columns -/

section Columns

variable {α β γ : Type}

lemma forall₂_zipWith_cons {P : γ → α → Prop} {Q : γ → List α → Prop} {xs : List γ} {as : List α}
    {columns : List (List α)} (has : List.Forall₂ P xs as) (hcolumns : List.Forall₂ Q xs columns) :
    List.Forall₂ (fun x column => ∃ a rest, column = a :: rest ∧ P x a ∧ Q x rest) xs
      (List.zipWith List.cons as columns) := by
  induction has generalizing columns with
  | nil => exact .nil
  | @cons x a xs as hx _ ih =>
      obtain ⟨column, columns, hcolumn, hrest, rfl⟩ := List.forall₂_cons_left_iff.1 hcolumns
      exact .cons ⟨a, column, rfl, hx, hcolumn⟩ (ih hrest)

/-- **Transposing rows.**  What holds of each row, element by element, holds of each column. -/
theorem forall₂_zipAll {R : γ → β → α → Prop} {rows : List (β × List α)} (hne : rows ≠ [])
    {xs : List γ} (h : ∀ r ∈ rows, List.Forall₂ (fun x a => R x r.1 a) xs r.2) :
    List.Forall₂ (fun x column => List.Forall₂ (R x) (rows.map Prod.fst) column) xs
      (zipAll (rows.map Prod.snd)) := by
  induction rows with
  | nil => exact absurd rfl hne
  | cons row rows ih =>
      have hrow := h row List.mem_cons_self
      cases rows with
      | nil =>
          rw [List.map_cons, List.map_nil, List.map_cons, List.map_nil, zipAll,
            List.forall₂_map_right_iff]
          exact hrow.imp fun x a hx => .cons hx .nil
      | cons row' rows =>
          have hrest := ih (by simp) fun r hr => h r (List.mem_cons_of_mem _ hr)
          refine (forall₂_zipWith_cons hrow hrest).imp ?_
          rintro x column ⟨a, rest, rfl, ha, hrest⟩
          exact .cons ha hrest

/-- The columns of rows of one length begin with the first row. -/
lemma exists_of_mem_zipAll {lists : List (List α)} {column : List α}
    (hcolumn : column ∈ zipAll lists) {a : α} (ha : a ∈ column) : ∃ as ∈ lists, a ∈ as := by
  induction lists generalizing column with
  | nil => exact absurd hcolumn List.not_mem_nil
  | cons as lists ih =>
      cases lists with
      | nil =>
          rw [zipAll, List.mem_map] at hcolumn
          obtain ⟨b, hb, rfl⟩ := hcolumn
          obtain rfl := List.mem_singleton.1 ha
          exact ⟨as, List.mem_cons_self, hb⟩
      | cons bs lists =>
          have hzip : zipAll (as :: bs :: lists) =
              (as.zip (zipAll (bs :: lists))).map (Function.uncurry List.cons) :=
            List.map_uncurry_zip_eq_zipWith.symm
          rw [hzip, List.mem_map] at hcolumn
          obtain ⟨⟨b, rest⟩, hpair, rfl⟩ := hcolumn
          obtain ⟨hb, hrest⟩ := List.of_mem_zip hpair
          rcases List.mem_cons.1 ha with rfl | ha
          · exact ⟨as, List.mem_cons_self, hb⟩
          · obtain ⟨cs, hcs, hmem⟩ := ih hrest ha
            exact ⟨cs, List.mem_cons_of_mem _ hcs, hmem⟩

lemma zipAll_cons_heads {as : List α} {lists : List (List α)}
    (h : ∀ bs ∈ lists, bs.length = as.length) :
    List.Forall₂ (fun a column => ∃ rest, column = a :: rest) as (zipAll (as :: lists)) := by
  have hself : List.Forall₂ (fun a a' : α => a = a') as as := List.forall₂_same.2 fun _ _ => rfl
  cases lists with
  | nil =>
      rw [zipAll, List.forall₂_map_right_iff]
      exact List.forall₂_same.2 fun a _ => ⟨[], rfl⟩
  | cons bs lists =>
      have hany : List.Forall₂ (fun (_ : α) (_ : List α) => True) as (zipAll (bs :: lists)) := by
        rw [List.forall₂_iff_zip]
        exact ⟨(TapLeader.length_zipAll (by simp) h).symm, fun _ => trivial⟩
      refine (forall₂_zipWith_cons hself hany).imp ?_
      rintro a column ⟨a', rest, rfl, rfl, -⟩
      exact ⟨rest, rfl⟩

/-- Two elements come in one order only. -/
lemma not_sublist_swap {as : List α} (hnodup : as.Nodup) {a b : α} (h : [a, b].Sublist as) :
    ¬ [b, a].Sublist as := by
  induction as with
  | nil => exact fun _ => absurd (h.subset List.mem_cons_self) List.not_mem_nil
  | cons c as ih =>
      obtain ⟨hc, hnodup⟩ := List.nodup_cons.1 hnodup
      intro hswap
      rcases List.sublist_cons_iff.1 h with hrest | ⟨r, heq, hr⟩
      · rcases List.sublist_cons_iff.1 hswap with hswap | ⟨r', heq', -⟩
        · exact ih hnodup hrest hswap
        · obtain ⟨rfl, -⟩ := List.cons.inj heq'
          exact hc (hrest.subset (List.mem_cons_of_mem _ List.mem_cons_self))
      · obtain ⟨rfl, rfl⟩ := List.cons.inj heq
        rcases List.sublist_cons_iff.1 hswap with hswap | ⟨r', heq', -⟩
        · exact hc (hswap.subset (List.mem_cons_of_mem _ List.mem_cons_self))
        · obtain ⟨rfl, -⟩ := List.cons.inj heq'
          exact hc (hr.subset List.mem_cons_self)

end Columns

/-! ## Transfers and their counters -/

/-- What is signed of a row, with the counter it is sorted by. -/
def countedTransfer (p : ℕ × TapToRskTransfer) : Option ℕ × TransferFromTap :=
  (p.2.counter, p.2.toTransferFromTap)

def InCounterOrder (transfers : List (Option ℕ × TransferFromTap)) : Prop :=
  transfers.Pairwise fun x y => counterLe x.1 y.1 = true

lemma counterLe_antisymm {c d : Option ℕ} (h : counterLe c d = true) (h' : counterLe d c = true) :
    c = d := by
  cases c <;> cases d <;> simp_all [counterLe]
  exact Nat.le_antisymm h h'

/-- Transfers with distinct counters have one order. -/
lemma InCounterOrder.unique {transfers transfers' : List (Option ℕ × TransferFromTap)}
    (h : InCounterOrder transfers) (h' : InCounterOrder transfers')
    (hperm : transfers.Perm transfers') (hnodup : (transfers.map Prod.fst).Nodup) :
    transfers = transfers' := by
  refine List.Perm.eq_of_pairwise (fun x y hx hy hxy hyx => ?_) h h' hperm
  exact List.inj_on_of_nodup_map hnodup hx (hperm.mem_iff.2 hy) (counterLe_antisymm hxy hyx)

namespace Ordering

variable {rows : List (ℕ × TapToRskTransfer)}

lemma counted_perm (σ : Ordering) :
    ((σ.sort rows).map countedTransfer).Perm (rows.map countedTransfer) :=
  (σ.perm rows).map _

lemma counted_inCounterOrder (σ : Ordering) :
    InCounterOrder ((σ.sort rows).map countedTransfer) :=
  List.pairwise_map.2 (σ.sorted rows)

/-- The order in which rows with equal counters are turned around. -/
def reversed : Ordering where
  sort rows := stable.sort rows.reverse
  perm rows := (stable.perm _).trans (List.reverse_perm rows)
  sorted _ := stable.sorted _

/-- Two rows with equal counters come in either order. -/
lemma sublist_stable {p q : ℕ × TapToRskTransfer} (h : [p, q].Sublist rows)
    (hcounter : p.2.counter = q.2.counter) : [p, q].Sublist (stable.sort rows) := by
  refine List.pair_sublist_insertionSort ?_ h
  rw [hcounter]
  cases q.2.counter <;> simp [counterLe]

lemma sublist_reversed {p q : ℕ × TapToRskTransfer} (h : [p, q].Sublist rows)
    (hcounter : p.2.counter = q.2.counter) : [q, p].Sublist (reversed.sort rows) :=
  sublist_stable (by simpa using h.reverse) hcounter.symm

end Ordering

/-! ## Signatures -/

section Signatures

variable {Sig : Type} (Signs : TransferFromTap → Address → Sig → Prop)

/-- Signatures of the transfers, in some order of their counters. -/
def SignsInOrder (transfers : List (Option ℕ × TransferFromTap)) (signer : Address)
    (signatures : List Sig) : Prop :=
  ∃ ordered, ordered.Perm transfers ∧ InCounterOrder ordered ∧
    List.Forall₂ (fun x signature => Signs x.2 signer signature) ordered signatures

/-- There is one call for each transfer, with signatures of that transfer by enough members of
`F`. -/
structure OwnSignatures (F : Set Address) (n : ℕ) (transfers : List TransferFromTap)
    (calls : List (TransferFromTap × List Sig)) : Prop where
  transfers : (calls.map Prod.fst).Perm transfers
  signed : ∀ call ∈ calls, ∃ signers : List Address, signers.Nodup ∧ (∀ a ∈ signers, a ∈ F) ∧
    n ≤ signers.length + 1 ∧ List.Forall₂ (Signs call.1) signers call.2

/-- The calls for rows of transfers, of which each signer has signed all. -/
def acceptTransferCalls (σ : Ordering) (members : List (ℕ × TapToRskTransfer))
    (signatures : List (Address × List Sig)) : List (TransferFromTap × List Sig) :=
  ((σ.sort members).map fun p => p.2.toTransferFromTap).zip (zipAll (signatures.map Prod.snd))

variable {Signs} {F : Set Address} {n : ℕ} {members : List (ℕ × TapToRskTransfer)}
  {signatures : List (Address × List Sig)}

lemma acceptTransferCalls_nil (σ : Ordering) : acceptTransferCalls σ [] signatures = [] := by
  have hsort : σ.sort [] = [] := List.perm_nil.1 (σ.perm [])
  rw [acceptTransferCalls, hsort, List.map_nil, List.zip_nil_left]

lemma SignsInOrder.length {signer : Address} {answer : List Sig}
    (h : SignsInOrder Signs (members.map countedTransfer) signer answer) :
    answer.length = members.length := by
  obtain ⟨ordered, hperm, -, hsigns⟩ := h
  rw [← hsigns.length_eq, hperm.length_eq, List.length_map]

/-- **Distinct counters** put every signature beside its transfer. -/
lemma ownSignatures_of_nodup (hkeys : (signatures.map Prod.fst).Nodup)
    (hsigned : ∀ r ∈ signatures, r.1 ∈ F ∧
      SignsInOrder Signs (members.map countedTransfer) r.1 r.2)
    (henough : n ≤ signatures.length + 1) (hne : signatures ≠ [])
    (hcounters : (members.map fun p => p.2.counter).Nodup) (σ : Ordering) :
    OwnSignatures Signs F n (members.map fun p => p.2.toTransferFromTap)
      (acceptTransferCalls σ members signatures) := by
  have hnodup : (((σ.sort members).map countedTransfer).map Prod.fst).Nodup := by
    rw [List.map_map]
    exact (((σ.perm members).map _).nodup_iff).2 hcounters
  -- every signer has signed in the order of sending
  have hrows : ∀ r ∈ signatures, List.Forall₂ (fun x signature => Signs x.2 r.1 signature)
      ((σ.sort members).map countedTransfer) r.2 := by
    intro r hr
    obtain ⟨-, ordered, hperm, hordered, hsigns⟩ := hsigned r hr
    have heq := σ.counted_inCounterOrder.unique hordered (σ.counted_perm.trans hperm.symm) hnodup
    rwa [heq]
  have hcolumns := forall₂_zipAll
    (R := fun (x : Option ℕ × TransferFromTap) signer signature => Signs x.2 signer signature)
    hne hrows
  rw [List.forall₂_map_left_iff] at hcolumns
  have htransfers : List.Forall₂ (fun t column => List.Forall₂ (Signs t)
      (signatures.map Prod.fst) column) ((σ.sort members).map fun p => p.2.toTransferFromTap)
        (zipAll (signatures.map Prod.snd)) := List.forall₂_map_left_iff.2 hcolumns
  obtain ⟨hlength, hzip⟩ := List.forall₂_iff_zip.1 htransfers
  refine ⟨?_, fun call hcall => ⟨signatures.map Prod.fst, hkeys, ?_, ?_, hzip hcall⟩⟩
  · rw [acceptTransferCalls, List.map_fst_zip hlength.le]
    exact (σ.perm members).map _
  · intro a ha
    obtain ⟨r, hr, rfl⟩ := List.mem_map.1 ha
    exact (hsigned r hr).1
  · rwa [List.length_map]

/-- What is sent was collected. -/
lemma exists_of_mem_acceptTransferCalls {σ : Ordering} {call : TransferFromTap × List Sig}
    (hcall : call ∈ acceptTransferCalls σ members signatures) {signature : Sig}
    (h : signature ∈ call.2) : ∃ r ∈ signatures, signature ∈ r.2 := by
  obtain ⟨as, has, hmem⟩ := exists_of_mem_zipAll (List.of_mem_zip hcall).2 h
  obtain ⟨r, hr, rfl⟩ := List.mem_map.1 has
  exact ⟨r, hr, hmem⟩

/-- With own signatures, the order of sending is the order in which the first signer has signed. -/
lemma eq_of_ownSignatures {signer : Address} {answer : List Sig}
    {rest : List (Address × List Sig)} {ordered : List (Option ℕ × TransferFromTap)}
    (hbinds : ∀ t t' a a' signature, a ∈ F → a' ∈ F → Signs t a signature →
      Signs t' a' signature → t = t')
    (hsigner : signer ∈ F) (hperm : ordered.Perm (members.map countedTransfer))
    (hsigns : List.Forall₂ (fun x signature => Signs x.2 signer signature) ordered answer)
    (hrest : ∀ r ∈ rest, r.2.length = answer.length) {σ : Ordering}
    (hown : OwnSignatures Signs F n (members.map fun p => p.2.toTransferFromTap)
      (acceptTransferCalls σ members ((signer, answer) :: rest))) :
    (σ.sort members).map (fun p => p.2.toTransferFromTap) = ordered.map Prod.snd := by
  have hheads : List.Forall₂ (fun a column => ∃ rest, column = a :: rest) answer
      (zipAll (answer :: rest.map Prod.snd)) := by
    apply zipAll_cons_heads
    intro as has
    obtain ⟨r, hr, rfl⟩ := List.mem_map.1 has
    exact hrest r hr
  have hlength : (σ.sort members).length = ordered.length := by
    rw [(σ.perm members).length_eq, hperm.length_eq, List.length_map]
  refine List.ext_getElem (by simp [hlength]) fun k hk hk' => ?_
  rw [List.length_map] at hk hk'
  have hanswer : k < answer.length := hsigns.length_eq ▸ hk'
  have hcolumn : k < (zipAll (answer :: rest.map Prod.snd)).length := hheads.length_eq ▸ hanswer
  obtain ⟨others, hothers⟩ := hheads.get hanswer hcolumn
  have hcall : (((σ.sort members).map fun p => p.2.toTransferFromTap)[k],
      (zipAll (answer :: rest.map Prod.snd))[k]) ∈
        acceptTransferCalls σ members ((signer, answer) :: rest) := by
    refine List.mem_iff_getElem.2 ⟨k, ?_, List.getElem_zip⟩
    rw [acceptTransferCalls, List.length_zip, List.length_map, lt_min_iff]
    exact ⟨hk, hcolumn⟩
  obtain ⟨signers, -, hmembers, -, hsigned⟩ := hown.signed _ hcall
  have hothers' : (zipAll (answer :: rest.map Prod.snd))[k] = answer[k] :: others := hothers
  rw [hothers'] at hsigned
  obtain ⟨a, signers, ha, -, rfl⟩ := List.forall₂_cons_right_iff.1 hsigned
  rw [List.getElem_map (f := Prod.snd)]
  exact hbinds _ _ a signer answer[k] (hmembers a List.mem_cons_self) hsigner ha
    (hsigns.get hk' hanswer)

/-- **Own signatures in every order** of the rows are had only with some signature and distinct
counters. -/
theorem nodup_of_ownSignatures
    (hbinds : ∀ t t' a a' signature, a ∈ F → a' ∈ F → Signs t a signature →
      Signs t' a' signature → t = t')
    (houtpoints : (members.map fun p => p.2.outpoint).Nodup) (hmembers : members ≠ [])
    (hsigned : ∀ r ∈ signatures, r.1 ∈ F ∧
      SignsInOrder Signs (members.map countedTransfer) r.1 r.2)
    (hown : ∀ σ, OwnSignatures Signs F n (members.map fun p => p.2.toTransferFromTap)
      (acceptTransferCalls σ members signatures)) :
    signatures ≠ [] ∧ (members.map fun p => p.2.counter).Nodup := by
  obtain ⟨⟨signer, answer⟩, rest, rfl⟩ : ∃ r rest, signatures = r :: rest := by
    refine List.exists_cons_of_ne_nil ?_
    rintro rfl
    have hnone := (hown .stable).transfers.length_eq
    rw [acceptTransferCalls, List.map_nil, zipAll, List.zip_nil_right, List.map_nil,
      List.length_nil, List.length_map] at hnone
    exact hmembers (List.length_eq_zero_iff.1 hnone.symm)
  refine ⟨List.cons_ne_nil _ _, ?_⟩
  obtain ⟨hsigner, ordered, hperm, -, hsigns⟩ := hsigned (signer, answer) List.mem_cons_self
  have hlength : answer.length = members.length :=
    (hsigned (signer, answer) List.mem_cons_self).2.length
  have hrest : ∀ r ∈ rest, r.2.length = answer.length := by
    intro r hr
    rw [hlength, (hsigned r (List.mem_cons_of_mem _ hr)).2.length]
  have hsame (σ : Ordering) :=
    eq_of_ownSignatures hbinds hsigner hperm hsigns hrest (hown σ)
  have htransfers : (ordered.map Prod.snd).Nodup := by
    have houtpoint : ((members.map fun p => p.2.toTransferFromTap).map
        fun t => (t.btcTxId, t.btcTxVout)).Nodup := by
      rw [List.map_map]
      exact houtpoints
    rw [← hsame .stable]
    exact (((Ordering.stable.perm members).map _).nodup_iff).2 houtpoint.of_map
  rw [List.nodup_iff_sublist]
  intro counter hequal
  -- two rows with one counter come in both orders
  obtain ⟨pair, hpair, hcounters⟩ := List.sublist_map_iff.1 hequal
  obtain ⟨p, q, rfl⟩ : ∃ p q, pair = [p, q] := by
    refine List.length_eq_two.1 ?_
    simpa using (congrArg List.length hcounters).symm
  obtain ⟨hp, hq, -⟩ : counter = p.2.counter ∧ counter = q.2.counter ∧ True := by
    simpa using hcounters
  have hstable := (Ordering.sublist_stable hpair (hp.symm.trans hq)).map
    fun p => p.2.toTransferFromTap
  have hreversed := (Ordering.sublist_reversed hpair (hp.symm.trans hq)).map
    fun p => p.2.toTransferFromTap
  rw [hsame] at hstable hreversed
  exact not_sublist_swap htransfers hstable hreversed

end Signatures

end NbteBridge
