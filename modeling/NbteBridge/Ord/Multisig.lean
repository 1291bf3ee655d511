import NbteBridge.Ord.Types

/-!
# OrdMultisig

The multisig wallet of the federation: `create_rune_psbt`, which builds the transaction of a list
of rune transfers.  Its three parts are kept apart as the source runs them: the outputs and edicts
of the transfers, coin selection for runes (a loop that ends by raising when the outputs run out),
and coin selection for the fee (a loop that pops the outputs it looks at).
-/

namespace NbteBridge

open Checked

/-- What `parse_p2wsh_multisig_utxo_descriptor` returns, as far as it is used. -/
structure DescriptorParseResult where
  masterFingerprints : List (List UInt8)

/-- An entry of the wallet's transactions; `amount` is in bitcoin. -/
structure WalletTransaction where
  category : String
  address : Option String
  txid : String
  vout : ℕ
  confirmations : ℤ
  blockheight : Option ℕ
  time : ℕ
  amount : ℚ

structure ListSinceBlock where
  lastblock : String
  transactions : List WalletTransaction

structure BitcoinRpc where
  /-- `listunspent(1, 9999999, [], False)`. -/
  listunspent : PyResult (List UTXO)
  gettransaction : String → PyResult Transaction
  /-- `listsinceblock(blockhash, target_confirmations)`; the empty hash asks for everything. -/
  listsinceblock : String → ℕ → PyResult ListSinceBlock

structure OrdMultisig where
  numRequiredSigners : ℕ
  /-- The fingerprint of the node's own master key. -/
  masterFingerprint : List UInt8
  multisigRedeemScript : Script
  changeAddress : String
  changeScriptPubkey : Script
  minNonChangeRuneUtxoConfirmations : ℕ
  parseDescriptor : Option String → PyResult DescriptorParseResult
  /-- `derive_address`; the change address is the one at index 0. -/
  deriveAddress : ℕ → String
  /-- `psbt.sign(keystore)`: the number of inputs signed, and the result. -/
  keyStoreSign : Psbt → PyResult (ℕ × Psbt)
  signerXpub : String

namespace OrdMultisig

def DUST_SAT : ℤ := 1000

variable (ms : OrdMultisig) (rpc : BitcoinRpc) (ord : OrdApiClient) (codec : Codec)

/-- `list_utxos`: sorted by confirmations, the most first; equal ones keep their order. -/
def listUtxos : PyResult (List UTXO) := do
  let rawUtxos ← rpc.listunspent
  pure (rawUtxos.insertionSort fun u v => v.confirmations ≤ u.confirmations)

/-- `get_rune_balance_at_output`. -/
def getRuneBalanceAtOutput (txid : String) (vout : ℕ) (runeName : String) : PyResult ℕ := do
  let o ← ord.getOrdOutput txid vout
  o.getRuneBalance runeName

/-! ## Outputs and edicts -/

/-- The edict of a transfer, and its output. -/
def transferEdict (outputIndex : ℕ) (transfer : RuneTransfer) :
    PyResult (Runes.Edict × TxOut) := do
  transfer.assertValid codec
  let response ← ord.getRune transfer.rune.name
  let response ← orError response (.lookupError "Rune not found")
  require (transfer.amount ≠ 0) (.zeroTransferAmountError
    "Zero transfer amounts are not supported as they have a special meaning in Edicts")
  require (0 < transfer.amount) .assertionError
  let edict ← pyordEdict response.id transfer.amount outputIndex
  let script ← codec.addressScript transfer.receiver
  pure (edict, ⟨transfer.postage, script⟩)

/-- The loop over the transfers; the first one's output has index `outputIndex`. -/
def transferEdicts : ℕ → List RuneTransfer → PyResult (List (Runes.Edict × TxOut))
  | _, [] => pure []
  | outputIndex, transfer :: transfers => do
      let e ← transferEdict ord codec outputIndex transfer
      let es ← transferEdicts (outputIndex + 1) transfers
      pure (e :: es)

/-- The amounts still required, by rune: the keys in the order the runes first occur. -/
structure RequiredRuneAmounts where
  usedRunes : List Rune
  amount : Rune → ℤ

/-- `required_rune_amounts`. -/
def requiredRuneAmounts (transfers : List RuneTransfer) : RequiredRuneAmounts where
  usedRunes := (transfers.map RuneTransfer.rune).eraseDups
  amount := fun rune =>
    (transfers.map fun t => if t.rune = rune then t.amount else 0).sum

/-- The transaction before coin selection: the runestone at output 0, the rune change at output 1,
the receivers after it. -/
def initialPsbt (edicts : List (Runes.Edict × TxOut)) : PyResult Psbt := do
  let script ← codec.encipher
    { edicts := edicts.map Prod.fst, etching := none, mint := none, pointer := some 1 }
  let psbt := (Psbt.empty.addOutput ⟨0, script⟩).addOutput
    ⟨TARGET_POSTAGE_SAT, ms.changeScriptPubkey⟩
  pure ((edicts.map Prod.snd).foldl Psbt.addOutput psbt)

/-! ## Coin selection -/

/-- `add_psbt_input`. -/
def addPsbtInput (psbt : Psbt) (utxo : UTXO) : PyResult Psbt := do
  let inputTx ← rpc.gettransaction utxo.txid
  let descriptor ← ms.parseDescriptor utxo.desc
  require (ms.masterFingerprint ∈ descriptor.masterFingerprints)
    (.valueError "UTXO doesn't belong to this multisig (master fingerprint not found)")
  let txout ← orError inputTx.vout[utxo.vout]? (.other "list index out of range")
  pure (psbt.addInput utxo.outpoint
    { witnessScript := utxo.witnessScript, utxo := some txout, derivationMap := utxo.desc })

/-- The state of coin selection: the transaction, its input value, the outputs spent so far. -/
structure Selection where
  psbt : Psbt
  inputAmountSat : ℤ
  selected : List UTXO

def Selection.add (s : Selection) (utxo : UTXO) : PyResult Selection := do
  let psbt ← ms.addPsbtInput rpc s.psbt utxo
  pure ⟨psbt, s.inputAmountSat + utxo.amountSatoshi, s.selected ++ [utxo]⟩

/-- A non-change output with few confirmations is left alone: it may be a user's deposit that was
not processed yet. -/
def tooFresh (utxo : UTXO) : Bool :=
  utxo.address ≠ some ms.changeAddress ∧
    utxo.confirmations < ms.minNonChangeRuneUtxoConfirmations

/-- `relevant_rune_balances_in_utxo`: the output's balance of each used rune. -/
def relevantRuneBalances (o : OrdOutput) : List Rune → PyResult (List (Rune × ℕ))
  | [] => pure []
  | rune :: runes => do
      let balance ← o.getRuneBalance rune.name
      let rest ← relevantRuneBalances o runes
      pure ((rune, balance) :: rest)

/-- The amounts still required after an output with these balances was selected. -/
def RequiredRuneAmounts.subtract (required : RequiredRuneAmounts) (balances : List (Rune × ℕ)) :
    RequiredRuneAmounts where
  usedRunes := required.usedRunes
  amount := fun rune =>
    required.amount rune - (((balances.find? fun e => e.1 = rune).map Prod.snd).getD 0 : ℕ)

/-- Coin selection for runes, over the outputs not looked at yet. -/
def selectRunes : List UTXO → RequiredRuneAmounts → Selection → PyResult Selection
  | [], required, _ =>
      .error (.insufficientRuneBalanceError
        (required.usedRunes.map fun r => (r.name, required.amount r)))
  | utxo :: utxos, required, s =>
      if utxo.witnessScript.isNone then selectRunes utxos required s
      else do
        let o ← ord.getOrdOutput utxo.txid utxo.vout
        if ¬ o.hasRuneBalances then selectRunes utxos required s
        else if ms.tooFresh utxo then selectRunes utxos required s
        else do
          let balances ← relevantRuneBalances o required.usedRunes
          if balances.all (fun e => e.2 = 0) then selectRunes utxos required s
          else do
            let required := required.subtract balances
            let s ← s.add ms rpc utxo
            if required.usedRunes.all (fun r => required.amount r ≤ 0) then pure s
            else selectRunes utxos required s

/-- `fee_sat` for the transaction as selected so far, counting one BTC change output. -/
def feeSat (feeRate : ℤ) (psbt : Psbt) : ℤ :=
  estimateP2wshMultisigTxVirtualSize psbt.unsignedTx ms.numRequiredSigners
    ms.multisigRedeemScript ms.changeScriptPubkey true * feeRate

/-- The first output without rune balances, and the outputs after it. -/
def popBtcUtxo : List UTXO → PyResult (UTXO × List UTXO)
  | [] => .error (.insufficientBTCBalanceError "Don't have enough BTC to fund PSBT")
  | utxo :: utxos => do
      let o ← ord.getOrdOutput utxo.txid utxo.vout
      if o.hasRuneBalances then popBtcUtxo utxos else pure (utxo, utxos)

lemma popBtcUtxo_length {utxos rest : List UTXO} {utxo : UTXO}
    (h : popBtcUtxo ord utxos = .ok (utxo, rest)) : rest.length < utxos.length := by
  induction utxos with
  | nil => exact absurd h (by simp [popBtcUtxo])
  | cons u us ih =>
      simp only [popBtcUtxo, bind_eq_ok] at h
      obtain ⟨o, -, h⟩ := h
      split at h
      · exact lt_trans (ih h) (by simp)
      · obtain ⟨-, rfl⟩ := Prod.mk.inj (pure_eq_ok.1 h)
        simp

/-- Coin selection for the fee; `outputAmountSat` is fixed before it.  `fuel` bounds the number
of rounds, each of which pops at least one output. -/
def selectFee (feeRate outputAmountSat : ℤ) : ℕ → List UTXO → Selection → PyResult Selection
  | 0, _, _ => .error (.insufficientBTCBalanceError "Don't have enough BTC to fund PSBT")
  | fuel + 1, utxos, s =>
      let feeSat := ms.feeSat feeRate s.psbt
      if s.inputAmountSat = outputAmountSat + feeSat then pure s
      else if outputAmountSat + feeSat + DUST_SAT ≤ s.inputAmountSat then pure s
      else do
        let (utxo, rest) ← popBtcUtxo ord utxos
        if utxo.witnessScript.isNone then selectFee feeRate outputAmountSat fuel rest s
        else do
          let s ← s.add ms rpc utxo
          selectFee feeRate outputAmountSat fuel rest s

/-- The last part: bound the inputs, add the BTC change, check the fee. -/
def finishPsbt (feeRate outputAmountSat : ℤ) (maxNumInputs : ℕ) (s : Selection) :
    PyResult Psbt := do
  require (s.psbt.inputs.length ≤ maxNumInputs)
    (.runtimeError "Number of inputs in PSBT exceeds the maximum")
  let feeSat := ms.feeSat feeRate s.psbt
  let changeAmountSat := s.inputAmountSat - outputAmountSat - feeSat
  require (0 ≤ changeAmountSat) .assertionError
  let psbt := if 0 < changeAmountSat then
    s.psbt.addOutput ⟨changeAmountSat, ms.changeScriptPubkey⟩ else s.psbt
  let fee ← psbt.getFee
  require (fee = feeSat) .assertionError
  pure psbt

/-- `create_rune_psbt`, with the outputs it selected. -/
def createRunePsbtSelecting (transfers : List RuneTransfer) (feeRate : ℤ) (maxNumInputs : ℕ) :
    PyResult (Psbt × List UTXO) := do
  require (transfers ≠ []) (.valueError "Expecting at least one transfer")
  let edicts ← transferEdicts ord codec 2 transfers
  let required := requiredRuneAmounts transfers
  require (required.usedRunes.all (fun r => 0 < required.amount r) = true) .assertionError
  let psbt ← ms.initialPsbt codec edicts
  let utxos ← listUtxos rpc
  let s ← ms.selectRunes rpc ord utxos required ⟨psbt, 0, []⟩
  let outputAmountSat := Psbt.outputValue s.psbt.unsignedTx.vout
  let s ← ms.selectFee rpc ord feeRate outputAmountSat (utxos.length + 1) utxos s
  let psbt ← ms.finishPsbt feeRate outputAmountSat maxNumInputs s
  pure (psbt, s.selected)

def createRunePsbt (transfers : List RuneTransfer) (feeRate : ℤ) (maxNumInputs : ℕ) :
    PyResult Psbt := do
  let (psbt, _) ← ms.createRunePsbtSelecting rpc ord codec transfers feeRate maxNumInputs
  pure psbt

/-! ## Signing -/

/-- `sign_psbt`, without finalizing. -/
def signPsbt (psbt : Psbt) : PyResult Psbt := do
  let (numInputsSigned, signed) ← ms.keyStoreSign psbt
  require (numInputsSigned = psbt.inputs.length) .assertionError
  pure signed

/-- `estimate_psbt_size_vb`. -/
def estimatePsbtSizeVb (psbt : Psbt) : ℕ :=
  estimateP2wshMultisigTxVirtualSize psbt.unsignedTx ms.numRequiredSigners
    ms.multisigRedeemScript ms.changeScriptPubkey false

end OrdMultisig

end NbteBridge
