import NbteBridge.Foundations.Coins
import NbteBridge.Ord.Conservation

/-!
# Mined transactions

Bitcoin with runes, as the transactions in its blocks: each spends outputs of earlier ones, once,
and its own outputs get what the Runes protocol settles.  The outputs are the coins of a ledger, so
the runes on an output and what the bridge's scripts hold are those of `Coins`.
-/

namespace NbteBridge

open Coins

/-- A transaction in a block, with the runes its outputs got. -/
structure MinedTransaction where
  txid : String
  tx : Transaction
  runes : ℕ → Runes.Balances

namespace MinedTransaction

variable (m : MinedTransaction)

def outputs : List (Coin Outpoint Script Runes.RuneId) :=
  (List.range m.tx.vout.length).map fun k => ⟨⟨m.txid, k⟩, (m.tx.scripts[k]?).getD [], m.runes k⟩

def payment : Payment Outpoint Script Runes.RuneId := ⟨m.tx.vin, m.outputs⟩

end MinedTransaction

def paymentsOf (mined : List MinedTransaction) : List (Payment Outpoint Script Runes.RuneId) :=
  mined.map MinedTransaction.payment

/-- The runes on each output. -/
def chainOf (mined : List MinedTransaction) : Chain :=
  fun o id => valueAt (fun _ => true) (paymentsOf mined) o id

/-- The outputs there ever were. -/
def outpointsOf (mined : List MinedTransaction) : List Outpoint :=
  (made (paymentsOf mined)).map Coin.id

/-- No two transactions have one id, and outputs are spent once, after they were made. -/
structure MinedInOrder (mined : List MinedTransaction) : Prop where
  txids : (mined.map MinedTransaction.txid).Nodup
  spent_once : (spent (paymentsOf mined)).Nodup
  spent_made : ∀ m ∈ mined, ∀ o ∈ m.tx.vin, o ∈ outpointsOf mined
  amount_lt : ∀ m ∈ mined, ∀ k id, m.runes k id < 2 ^ 128

/-- The outputs of `m` got what its inputs held, as the protocol settles it. -/
def RunesSettled (codec : Codec) (mined : List MinedTransaction) (m : MinedTransaction) : Prop :=
  ∃ i, ∀ k id, m.runes k id = (m.tx.settle codec (chainOf mined) i).outputs k id

/-- A transaction that can be mined next. -/
structure Minable (codec : Codec) (mined : List MinedTransaction) (m : MinedTransaction) :
    Prop where
  fresh : m.txid ∉ mined.map MinedTransaction.txid
  inputs : m.tx.vin.Nodup
  unspent : ∀ o ∈ m.tx.vin, o ∈ outpointsOf mined ∧ o ∉ spent (paymentsOf mined)
  settled : RunesSettled codec mined m
  amount_lt : ∀ k id, m.runes k id < 2 ^ 128

variable {codec : Codec} {mined : List MinedTransaction} {m m' : MinedTransaction}

@[simp] lemma paymentsOf_concat : paymentsOf (mined ++ [m]) = paymentsOf mined ++ [m.payment] := by
  simp [paymentsOf]

lemma mem_outpointsOf {o : Outpoint} :
    o ∈ outpointsOf mined ↔ ∃ m ∈ mined, o.txid = m.txid ∧ o.vout < m.tx.vout.length := by
  simp only [outpointsOf, made, paymentsOf, List.mem_map, List.mem_flatMap]
  constructor
  · rintro ⟨coin, ⟨payment, ⟨m, hm, rfl⟩, hcoin⟩, rfl⟩
    obtain ⟨k, hk, rfl⟩ := List.mem_map.1 hcoin
    exact ⟨m, hm, rfl, List.mem_range.1 hk⟩
  · rintro ⟨m, hm, htxid, hvout⟩
    refine ⟨⟨⟨m.txid, o.vout⟩, (m.tx.scripts[o.vout]?).getD [], m.runes o.vout⟩,
      ⟨m.payment, ⟨m, hm, rfl⟩, ?_⟩, ?_⟩
    · exact List.mem_map.2 ⟨o.vout, List.mem_range.2 hvout, rfl⟩
    · rw [← htxid]

lemma outpointsOf_concat {o : Outpoint} (h : o ∈ outpointsOf mined) :
    o ∈ outpointsOf (mined ++ [m]) := by
  obtain ⟨m', hm', ho⟩ := mem_outpointsOf.1 h
  exact mem_outpointsOf.2 ⟨m', List.mem_append_left _ hm', ho⟩

/-- An output that was there before is none of a new transaction's. -/
lemma notMem_outputs_of_fresh (hfresh : m.txid ∉ mined.map MinedTransaction.txid) {o : Outpoint}
    (h : o ∈ outpointsOf mined) : o ∉ m.payment.outputs.map Coin.id := by
  intro hnew
  obtain ⟨coin, hcoin, rfl⟩ := List.mem_map.1 hnew
  obtain ⟨k, -, rfl⟩ := List.mem_map.1 hcoin
  obtain ⟨m', hm', htxid, -⟩ := mem_outpointsOf.1 h
  exact hfresh (List.mem_map.2 ⟨m', hm', htxid.symm⟩)

/-- What lies on an output does not change. -/
lemma valueAt_paymentsOf_concat {p : Script → Bool}
    (hfresh : m.txid ∉ mined.map MinedTransaction.txid) {o : Outpoint} (h : o ∈ outpointsOf mined)
    (id : Runes.RuneId) :
    valueAt p (paymentsOf (mined ++ [m])) o id = valueAt p (paymentsOf mined) o id := by
  rw [paymentsOf_concat]
  exact valueAt_concat (notMem_outputs_of_fresh hfresh h)

lemma chainOf_concat (hfresh : m.txid ∉ mined.map MinedTransaction.txid) {o : Outpoint}
    (h : o ∈ outpointsOf mined) (id : Runes.RuneId) :
    chainOf (mined ++ [m]) o id = chainOf mined o id :=
  valueAt_paymentsOf_concat hfresh h id

/-! ## A transaction's inputs -/

lemma Transaction.inputRunes_congr {tx : Transaction} {chain chain' : Chain}
    (h : ∀ o ∈ tx.vin, ∀ id, chain o id = chain' o id) :
    tx.inputRunes chain = tx.inputRunes chain' := by
  funext id
  exact congrArg List.sum (List.map_congr_left fun o ho => h o ho id)

lemma inputRunes_concat (hfresh : m.txid ∉ mined.map MinedTransaction.txid) {tx : Transaction}
    (h : ∀ o ∈ tx.vin, o ∈ outpointsOf mined) :
    tx.inputRunes (chainOf (mined ++ [m])) = tx.inputRunes (chainOf mined) :=
  Transaction.inputRunes_congr fun o ho id => chainOf_concat hfresh (h o ho) id

/-- A transaction's settlement depends on the runes of its inputs only. -/
lemma settle_concat (hfresh : m.txid ∉ mined.map MinedTransaction.txid) {tx : Transaction}
    (h : ∀ o ∈ tx.vin, o ∈ outpointsOf mined) (i : Runes.Issuance) :
    tx.settle codec (chainOf (mined ++ [m])) i = tx.settle codec (chainOf mined) i := by
  unfold Transaction.settle
  rw [inputRunes_concat hfresh h]

lemma RunesSettled.concat (hs : RunesSettled codec mined m')
    (hfresh : m.txid ∉ mined.map MinedTransaction.txid)
    (h : ∀ o ∈ m'.tx.vin, o ∈ outpointsOf mined) : RunesSettled codec (mined ++ [m]) m' := by
  obtain ⟨i, hi⟩ := hs
  refine ⟨i, fun k id => ?_⟩
  rw [settle_concat hfresh h, hi]

/-! ## The order of the transactions -/

namespace MinedInOrder

lemma concat (h : MinedInOrder mined) (hm : Minable codec mined m) :
    MinedInOrder (mined ++ [m]) where
  txids := by
    rw [List.map_append]
    exact List.Nodup.append h.txids (List.nodup_singleton _) (by simpa using hm.fresh)
  spent_once := by
    rw [paymentsOf_concat, spent_concat]
    exact List.Nodup.append h.spent_once hm.inputs fun o hold hnew => (hm.unspent o hnew).2 hold
  spent_made m' hm' o ho := by
    rcases List.mem_append.1 hm' with hold | hnew
    · exact outpointsOf_concat (h.spent_made m' hold o ho)
    · obtain rfl := List.mem_singleton.1 hnew
      exact outpointsOf_concat (hm.unspent o ho).1
  amount_lt m' hm' := by
    rcases List.mem_append.1 hm' with hold | hnew
    · exact h.amount_lt m' hold
    · obtain rfl := List.mem_singleton.1 hnew
      exact hm.amount_lt

/-- Every output is made once. -/
lemma outpointsOf_nodup (h : MinedInOrder mined) : (outpointsOf mined).Nodup := by
  have htxids := h.txids
  unfold outpointsOf paymentsOf made
  clear h
  induction mined with
  | nil => exact List.nodup_nil
  | cons m mined ih =>
      rw [List.map_cons, List.nodup_cons] at htxids
      rw [List.map_cons, List.flatMap_cons, List.map_append]
      refine List.Nodup.append ?_ (ih htxids.2) ?_
      · have hids : m.payment.outputs.map Coin.id =
            (List.range m.tx.vout.length).map fun k => (⟨m.txid, k⟩ : Outpoint) := by
          simp [MinedTransaction.payment, MinedTransaction.outputs]
        rw [hids]
        refine List.nodup_range.map fun k k' heq => ?_
        exact congrArg Outpoint.vout heq
      · intro o hnew hold
        exact notMem_outputs_of_fresh htxids.1 hold hnew

/-- Two transactions that spend one output are the same. -/
lemma eq_of_spends (h : MinedInOrder mined) (hm : m ∈ mined) (hm' : m' ∈ mined) {o : Outpoint}
    (ho : o ∈ m.tx.vin) (ho' : o ∈ m'.tx.vin) : m = m' := by
  have hspent := h.spent_once
  unfold spent paymentsOf at hspent
  rw [List.flatMap_map] at hspent
  have hpair := (List.nodup_flatMap.1 hspent).2
  have hsymm : Std.Symm (Function.onFun List.Disjoint
      fun m : MinedTransaction => m.payment.inputs) := ⟨fun _ _ hd => List.Disjoint.symm hd⟩
  by_contra hne
  exact hpair.forall hm hm' hne ho ho'

/-- What lies on an output is less than 128 bits. -/
lemma chainOf_lt (h : MinedInOrder mined) (o : Outpoint) (id : Runes.RuneId) :
    chainOf mined o id < 2 ^ 128 := by
  by_cases ho : o ∈ outpointsOf mined
  · obtain ⟨coin, hcoin, rfl⟩ := List.mem_map.1 ho
    rw [chainOf, valueAt_of_mem h.outpointsOf_nodup hcoin, if_pos rfl]
    obtain ⟨payment, hpayment, hout⟩ := List.mem_flatMap.1 hcoin
    obtain ⟨m, hm, rfl⟩ := List.mem_map.1 hpayment
    obtain ⟨k, -, rfl⟩ := List.mem_map.1 hout
    exact h.amount_lt m hm k id
  · rw [chainOf, valueAt_of_notMem ho]
    positivity

end MinedInOrder

/-! ## The outputs of a kind -/

/-- What a transaction makes for the scripts `p`. -/
lemma total_outputs (p : Script → Bool) (m : MinedTransaction) (id : Runes.RuneId) :
    total p m.outputs id = ((List.range m.tx.vout.length).map fun k =>
      if p ((m.tx.scripts[k]?).getD []) then m.runes k id else 0).sum := by
  rw [total, MinedTransaction.outputs, List.map_map]
  rfl

end NbteBridge
