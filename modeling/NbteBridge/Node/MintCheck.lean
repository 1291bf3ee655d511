import NbteBridge.Node.Answers
import NbteBridge.Node.Reference

/-!
# What a signed mint is owed

A peer signs the mint of a deposit after looking the deposit's output up in `ord` and its rune up
on the contract.  This module compares what it signs with what the bridge owes: the amount and the
fee are checked, but neither whose deposit address the output pays nor its confirmations, so these
two are exactly what is missing.
-/

namespace NbteBridge

open Checked

/-! ## What the bridge owes -/

/-- Bitcoin as it is: the address an output pays, its confirmations and the runes on it. -/
structure BitcoinLedger where
  addressOf : Outpoint → Option String
  confirmations : Outpoint → ℕ
  runes : Chain

/-- The EVM address of the user that the deposit address at an index was derived for. -/
abbrev DepositOwners := ℕ → Option String

def RuneToEvmTransfer.outpoint (t : RuneToEvmTransfer) : Outpoint := ⟨t.txid, t.vout⟩

section Owed

variable {Hash : Type} (service : RuneBridgeService Hash) (ord : OrdApiClient)
  (idOf : Rune → Runes.RuneId) (ledger : BitcoinLedger) (owners : DepositOwners)
  (t : RuneToEvmTransfer)

/-- The output pays a deposit address of the receiver and has the configured confirmations. -/
structure PaidIn : Prop where
  address : ∃ index, owners index = some t.evmAddress ∧
    ledger.addressOf t.outpoint = some (service.ordMultisig.deriveAddress index)
  confirmed : service.config.btcMinConfirmations ≤ ledger.confirmations t.outpoint

/-- The mint is owed: paid in, of exactly the amount on the output, less the configured fee. -/
structure OwedMint : Prop where
  paidIn : PaidIn service ledger owners t
  amount : ∃ rune, runeFromStr t.runeName = .ok rune ∧ rune.n = t.runeNumber ∧
    (ledger.runes t.outpoint (idOf rune) : ℤ) = t.amountRaw
  fee : ∃ response, ord.getRune t.runeName = .ok (some response) ∧
    t.netAmountRaw = t.amountRaw -
      (service.calculateRuneToEvmTransferAmounts t.amountRaw response.entry.divisibility).feeRaw

end Owed

/-! ## What a peer checks -/

namespace RuneBridgeService

variable {Hash : Type} {service : RuneBridgeService Hash} {views : Views Hash}
  {message : SignRuneToEvmTransferQuestion} {answer : SignRuneToEvmTransferAnswer Hash}

/-- What a signature vouches for: the rune, its amount on the output, the net amount, and the
message that is signed. -/
lemma checked_of_answer
    (h : service.answerSignRuneToEvmTransferQuestion views message = .ok answer) :
    ∃ response rune output messageHash,
      views.ordClient.getRune message.transfer.runeName = .ok (some response) ∧
      runeFromStr message.transfer.runeName = .ok rune ∧ rune.n = message.transfer.runeNumber ∧
      message.transfer.netAmountRaw = (service.calculateRuneToEvmTransferAmounts
        message.transfer.amountRaw response.entry.divisibility).netAmountRaw ∧
      views.ordClient.getOrdOutput message.transfer.txid message.transfer.vout = .ok output ∧
      (output.balanceOf rune : ℤ) = message.transfer.amountRaw ∧
      views.contract.getAcceptTransferFromBtcMessageHash message.transfer.evmAddress rune.n
        message.transfer.netAmountRaw message.transfer.txid message.transfer.vout =
          .ok messageHash ∧
      answer = ⟨service.evmAccount.signMessage messageHash, service.evmAccount.address,
        messageHash⟩ := by
  simp only [answerSignRuneToEvmTransferQuestion, OrdMultisig.getRuneBalanceAtOutput,
    OrdOutput.getRuneBalance, bind_eq_ok, exists_unit, require_eq_ok, orError_eq_ok,
    pure_eq_ok] at h
  obtain ⟨response?, hresponse, response, rfl, rune, hrune, hnumber, -, -, -, -, -, -, -, hnet, -,
    balance, ⟨output, houtput, rune', hrune', rfl⟩, hbalance, messageHash, hhash, rfl⟩ := h
  obtain rfl : rune = rune' := Except.ok.inj (hrune.symm.trans hrune')
  exact ⟨response, rune, output, messageHash, hresponse, hrune, hnumber, hnet, houtput, hbalance,
    hhash, rfl⟩

end RuneBridgeService

/-- **The mints that are owed.**  What a peer signs is owed if and only if the output pays a
deposit address of the receiver and is confirmed; and of the signed mints of which that is so, no
two of one deposit name different receivers. -/
theorem sign_mint_owed_iff_paid_in {Hash : Type} {service : RuneBridgeService Hash}
    {idOf : Rune → Runes.RuneId} {ledger : BitcoinLedger} {owners : DepositOwners}
    (hid : Function.Injective idOf)
    (hderive : Function.Injective service.ordMultisig.deriveAddress) :
    (∀ (views : Views Hash) (message : SignRuneToEvmTransferQuestion) answer,
      (∀ output, views.ordClient.getOrdOutput message.transfer.txid message.transfer.vout =
        .ok output → views.ordClient.Reports idOf ledger.runes message.transfer.outpoint) →
      service.answerSignRuneToEvmTransferQuestion views message = .ok answer →
      (OwedMint service views.ordClient idOf ledger owners message.transfer ↔
        PaidIn service ledger owners message.transfer)) ∧
    ∀ (views views' : Views Hash) (message message' : SignRuneToEvmTransferQuestion)
      answer answer',
      service.answerSignRuneToEvmTransferQuestion views message = .ok answer →
      service.answerSignRuneToEvmTransferQuestion views' message' = .ok answer' →
      PaidIn service ledger owners message.transfer →
      PaidIn service ledger owners message'.transfer →
      message.transfer.key = message'.transfer.key →
        message.transfer.evmAddress = message'.transfer.evmAddress := by
  constructor
  · intro views message answer hreports h
    refine ⟨OwedMint.paidIn, fun hpaid => ?_⟩
    obtain ⟨response, rune, output, -, hresponse, hrune, hnumber, hnet, houtput, hbalance, -⟩ :=
      RuneBridgeService.checked_of_answer h
    refine ⟨hpaid, ⟨rune, hrune, hnumber, ?_⟩, ⟨response, hresponse, ?_⟩⟩
    · obtain ⟨output', houtput', hruns, -⟩ := (hreports output houtput).getOrdOutput hid
      obtain rfl : output = output' := Except.ok.inj (houtput.symm.trans houtput')
      rw [← hruns, hbalance]
    · rw [hnet, RuneBridgeService.calculateRuneToEvmTransferAmounts]
      ring
  · intro views views' message message' answer answer' _ _ hpaid hpaid' hkey
    obtain ⟨index, howner, haddress⟩ := hpaid.address
    obtain ⟨index', howner', haddress'⟩ := hpaid'.address
    have houtpoint : message.transfer.outpoint = message'.transfer.outpoint := by
      simp only [RuneToEvmTransfer.key, RuneDepositKey.mk.injEq] at hkey
      rw [RuneToEvmTransfer.outpoint, hkey.1, hkey.2.1, RuneToEvmTransfer.outpoint]
    rw [houtpoint, haddress'] at haddress
    obtain rfl : index = index' := hderive (Option.some.inj haddress).symm
    exact Option.some.inj (howner.symm.trans howner')

namespace ExampleNode

/-- The mint of the eight units on the first output of the wallet, less a quarter. -/
def mintQuestion (evmAddress : String) : SignRuneToEvmTransferQuestion :=
  ⟨⟨evmAddress, 8, 8, 6, "aa", 0, "A", 0⟩⟩

/-- That output pays the deposit address of the one user there is. -/
def ledger : BitcoinLedger where
  addressOf o :=
    if o = ExampleWallet.runeUtxo.outpoint then some (ExampleWallet.ms.deriveAddress 1) else none
  confirmations _ := 7
  runes := ExampleWallet.chain

def owners : DepositOwners := fun index => if index = 1 then some "u" else none

lemma answer_mint (evmAddress : String) (h : evmAddress = "u" ∨ evmAddress = "v") :
    ∃ answer, (service '4' []).answerSignRuneToEvmTransferQuestion (views ['4'])
      (mintQuestion evmAddress) = .ok answer := by
  refine exists_ok_of_isOk ?_
  rcases h with rfl | rfl <;> decide +kernel

end ExampleNode

theorem sign_mint_owed_iff_paid_in_example :
    OwedMint (ExampleNode.service '4' []) (ExampleNode.views ['4']).ordClient ExampleWallet.idOf
      ExampleNode.ledger ExampleNode.owners (ExampleNode.mintQuestion "u").transfer := by
  obtain ⟨answer, h⟩ := ExampleNode.answer_mint "u" (.inl rfl)
  refine ((sign_mint_owed_iff_paid_in ExampleWallet.names.injective
    ExampleWallet.deriveAddress_injective).1 _ _ answer (fun _ _ => ?_) h).2 ⟨⟨1, rfl, ?_⟩, ?_⟩
  · exact ExampleWallet.reports ExampleWallet.runeUtxo (by simp [ExampleWallet.utxos])
  · decide
  · decide

/-- **Two receivers for one deposit.**  The peer signs the mint of one output for its depositor and
for someone else, and the second is not owed. -/
theorem signed_mint_not_owed :
    (∃ answer, (ExampleNode.service '4' []).answerSignRuneToEvmTransferQuestion
      (ExampleNode.views ['4']) (ExampleNode.mintQuestion "u") = .ok answer) ∧
    (∃ answer, (ExampleNode.service '4' []).answerSignRuneToEvmTransferQuestion
      (ExampleNode.views ['4']) (ExampleNode.mintQuestion "v") = .ok answer) ∧
    (ExampleNode.mintQuestion "u").transfer.key = (ExampleNode.mintQuestion "v").transfer.key ∧
    ¬ OwedMint (ExampleNode.service '4' []) (ExampleNode.views ['4']).ordClient
      ExampleWallet.idOf ExampleNode.ledger ExampleNode.owners
      (ExampleNode.mintQuestion "v").transfer := by
  refine ⟨ExampleNode.answer_mint "u" (.inl rfl), ExampleNode.answer_mint "v" (.inr rfl), rfl,
    fun h => ?_⟩
  obtain ⟨index, howner, -⟩ := h.paidIn.address
  have hv : ExampleNode.owners index ≠ some "v" := by
    unfold ExampleNode.owners
    split
    · exact fun heq => absurd (Option.some.inj heq) (by decide)
    · exact fun heq => absurd heq (by simp)
  exact hv howner

end NbteBridge
