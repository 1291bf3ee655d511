import NbteBridge.Foundations.Checked

/-!
# Bitcoin values of the node

Outputs, unsigned transactions and partially signed transactions as the node handles them, the
wallet's unspent outputs, and the virtual size the fee computations are made with.  A script is
its bytes; an address is the text Bitcoin tools print.
-/

namespace NbteBridge

open Checked

/-- The exceptions the node's code distinguishes; `other` is whatever a library or a remote
service raises. -/
inductive PyError
  | valueError (text : String)
  | lookupError (text : String)
  | assertionError
  | runtimeError (text : String)
  | overflowError
  | zeroTransferAmountError (text : String)
  | insufficientBTCBalanceError (text : String)
  | insufficientRuneBalanceError (missing : List (String × ℤ))
  | unindexedOutput
  | validationError (text : String)
  | other (text : String)
  deriving DecidableEq

abbrev PyResult := Except PyError

abbrev Script := List UInt8

/-- A reference to a transaction's output. -/
structure Outpoint where
  txid : String
  vout : ℕ
  deriving DecidableEq

structure TxOut where
  nValue : ℤ
  scriptPubKey : Script
  deriving DecidableEq

/-- A transaction without its signatures. -/
structure Transaction where
  vin : List Outpoint
  vout : List TxOut
  /-- The sequence numbers of the inputs. -/
  nSequence : List ℕ
  nLockTime : ℕ
  deriving DecidableEq

/-- An unspent output of the wallet, as `listunspent` reports it. -/
structure UTXO where
  txid : String
  vout : ℕ
  amountSatoshi : ℕ
  confirmations : ℕ
  desc : Option String
  address : Option String
  witnessScript : Option Script
  deriving DecidableEq

def UTXO.outpoint (u : UTXO) : Outpoint := ⟨u.txid, u.vout⟩

/-! ## Partially signed transactions -/

/-- What a partially signed transaction knows about one of its inputs.  `derivationMap` is left
as the descriptor it was parsed from. -/
structure PsbtInput where
  witnessScript : Option Script
  utxo : Option TxOut
  derivationMap : Option String
  /-- The signatures so far, by public key. -/
  partialSigs : List (List UInt8 × List UInt8) := []
  deriving DecidableEq

structure Psbt where
  unsignedTx : Transaction
  inputs : List PsbtInput
  deriving DecidableEq

namespace Psbt

def empty : Psbt := ⟨⟨[], [], [], 0⟩, []⟩

def addOutput (psbt : Psbt) (txout : TxOut) : Psbt :=
  { psbt with unsignedTx := { psbt.unsignedTx with vout := psbt.unsignedTx.vout ++ [txout] } }

def addInput (psbt : Psbt) (prevout : Outpoint) (inp : PsbtInput) : Psbt where
  unsignedTx :=
    { psbt.unsignedTx with
      vin := psbt.unsignedTx.vin ++ [prevout]
      nSequence := psbt.unsignedTx.nSequence ++ [0xffffffff] }
  inputs := psbt.inputs ++ [inp]

/-- The declared value of the inputs, when all of them declare one. -/
def inputValue : List PsbtInput → PyResult ℤ
  | [] => pure 0
  | inp :: inputs => do
      let utxo ← orError inp.utxo (.valueError "input amount is not known")
      let rest ← inputValue inputs
      pure (utxo.nValue + rest)

def outputValue (vout : List TxOut) : ℤ := (vout.map TxOut.nValue).sum

/-- `get_fee`: what the inputs declare beyond the outputs, which may not be negative. -/
def getFee (psbt : Psbt) : PyResult ℤ := do
  let value ← inputValue psbt.inputs
  let fee := value - outputValue psbt.unsignedTx.vout
  require (0 ≤ fee) (.valueError "total output amount is greater than total input amount")
  pure fee

end Psbt

/-- What the library of partially signed transactions does with them. -/
structure PsbtCodec where
  /-- The base-64 text, as messages carry it. -/
  toBase64 : Psbt → String
  fromBase64 : String → PyResult Psbt
  /-- `psbt.combine(other)`: the signatures of both. -/
  combine : Psbt → Psbt → PyResult Psbt
  /-- `psbt.sign(KeyStore(), finalize=True)`: whether every input is final, and the result. -/
  finalize : Psbt → PyResult (Bool × Psbt)
  /-- The final transaction. -/
  extractTransaction : Psbt → PyResult Transaction

/-! ## Virtual size -/

/-- The length of a compact size. -/
def compactSizeLength (n : ℕ) : ℕ :=
  if n < 253 then 1 else if n < 2 ^ 16 then 3 else if n < 2 ^ 32 then 5 else 9

/-- An input without a signature: outpoint, empty script and sequence number. -/
def txInSize : ℕ := 36 + 1 + 4

def txOutSize (txout : TxOut) : ℕ :=
  8 + compactSizeLength txout.scriptPubKey.length + txout.scriptPubKey.length

/-- The serialized witness of a multisig input: a dummy, the signatures and the script. -/
def witnessSize (numSignatures : ℕ) (redeemScript : Script) (signatureLength : ℕ) : ℕ :=
  compactSizeLength (numSignatures + 2) + compactSizeLength 0 +
    numSignatures * (compactSizeLength signatureLength + signatureLength) +
    compactSizeLength redeemScript.length + redeemScript.length

/-- The virtual size of a transaction with these parts: four weight units for each byte outside
the witness, one for each byte of the witness, its marker and its flag. -/
def calculateTransactionVirtualSize (numInputs inputsSize numOutputs outputsSize
    witnessSize : ℕ) : ℕ :=
  let baseSize := 4 + compactSizeLength numInputs + inputsSize + compactSizeLength numOutputs +
    outputsSize + 4
  if witnessSize = 0 then baseSize else (baseSize * 4 + 2 + witnessSize + 3) / 4

/-- `estimate_p2wsh_multisig_tx_virtual_size`; `changeScript` is the script of the change output
that `add_change_out` adds. -/
def estimateP2wshMultisigTxVirtualSize (tx : Transaction) (numSignatures : ℕ)
    (redeemScript changeScript : Script) (addChangeOut : Bool) : ℕ :=
  let vout := if addChangeOut then tx.vout ++ [⟨1, changeScript⟩] else tx.vout
  calculateTransactionVirtualSize tx.vin.length (tx.vin.length * txInSize) vout.length
    (vout.map txOutSize).sum (tx.vin.length * witnessSize numSignatures redeemScript 71)

end NbteBridge
