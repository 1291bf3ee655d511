import NbteBridge.Node.Minting
import NbteBridge.Node.Payouts
import NbteBridge.Node.ScanEffects

/-!
# The node's database transactions

Everything a node does to its database, as one type: between two states of a database lies one of
these, whole.  What a result about runs needs of the parts of the node it is not about is a
property of this type.
-/

namespace NbteBridge

open Checked Tables

section Transaction

variable {Hash α : Type} {commit : PyResult Unit} {body : Db Hash → PyResult (α × Db Hash)}
  {db db' : Db Hash}

/-- `with transaction_manager.transaction()`: what the body did is rolled back when it raises, and
committed otherwise, which the database may refuse. -/
def inTransaction (commit : PyResult Unit) (body : Db Hash → PyResult (α × Db Hash))
    (db : Db Hash) : PyResult α × Db Hash :=
  match body db with
  | .error e => (.error e, db)
  | .ok (a, db') =>
      match commit with
      | .error e => (.error e, db)
      | .ok () => (.ok a, db')

lemma inTransaction_ok {a : α} (h : inTransaction commit body db = (.ok a, db')) :
    body db = .ok (a, db') := by
  unfold inTransaction at h
  split at h
  · exact absurd (Prod.mk.inj h).1 (by simp)
  · rename_i a' db₁ hbody
    split at h
    · exact absurd (Prod.mk.inj h).1 (by simp)
    · obtain ⟨ha, rfl⟩ := Prod.mk.inj h
      rw [hbody, Except.ok.inj ha]

/-- A transaction that raises leaves the database as it was. -/
lemma inTransaction_error {e : PyError} (h : inTransaction commit body db = (.error e, db')) :
    db' = db := by
  unfold inTransaction at h
  split at h
  · exact (Prod.mk.inj h).2.symm
  · split at h
    · exact (Prod.mk.inj h).2.symm
    · exact absurd (Prod.mk.inj h).1 (by simp)

end Transaction

inductive NodeTransaction (Hash : Type)
  | generateDepositAddress (evmAddress : String)
  | scanRuneDeposits
  | scanRuneTokenDeposits
  | updateRuneDepositSignatures (key : RuneDepositKey) (messageHash : Hash)
      (answers : List (SignRuneToEvmTransferAnswer Hash))
  | beginSendingRuneDeposit (key : RuneDepositKey) (numRequiredSigners : ℕ)
  | failSendingRuneDeposit (key : RuneDepositKey)
  | finishSendingRuneDeposit (key : RuneDepositKey) (txHash : String)
  | confirmRuneDeposit (key : RuneDepositKey) (updatedStatus : RuneDepositStatus)
  | beginPayout (key : RuneTokenDepositKey) (finalizedPsbt : Psbt)
  | failPayout (key : RuneTokenDepositKey)
  | finishPayout (key : RuneTokenDepositKey) (txid : String)

namespace NodeTransaction

open RuneBridgeService

variable {Hash : Type} (service : RuneBridgeService Hash) (views : Views Hash)

/-- The database after a transaction that does not raise. -/
def run (db : Db Hash) : NodeTransaction Hash → PyResult (Db Hash)
  | generateDepositAddress evmAddress => do
      let (_, db) ← service.generateDepositAddress evmAddress db
      pure db
  | scanRuneDeposits => do
      let (_, db) ← service.scanRuneDeposits views db
      pure db
  | scanRuneTokenDeposits => do
      let (_, db) ← service.scanRuneTokenDeposits views db
      pure db
  | updateRuneDepositSignatures key messageHash answers => do
      let (_, db) ← service.updateRuneDepositSignatures views key messageHash answers db
      pure db
  | beginSendingRuneDeposit key numRequiredSigners => do
      let (_, db) ← RuneBridgeService.beginSendingRuneDeposit key numRequiredSigners db
      pure db
  | failSendingRuneDeposit key => RuneBridgeService.failSendingRuneDeposit key db
  | finishSendingRuneDeposit key txHash => RuneBridgeService.finishSendingRuneDeposit key txHash db
  | confirmRuneDeposit key updatedStatus =>
      RuneBridgeService.confirmRuneDeposit key updatedStatus db
  | beginPayout key finalizedPsbt => service.beginPayout key finalizedPsbt db
  | failPayout key => RuneBridgeService.failPayout key db
  | finishPayout key txid => RuneBridgeService.finishPayout key txid db

end NodeTransaction

end NbteBridge
