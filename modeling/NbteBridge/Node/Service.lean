import NbteBridge.Foundations.Binary64
import NbteBridge.Node.Models
import NbteBridge.Ord.Multisig

/-!
# RuneBridgeService

What a node's service is made of, and what it sees outside.  The service itself is fixed when the
node starts: its configuration, its multisig, its EVM account and the libraries it calls.  What it
reads from Bitcoin, `ord` and the EVM chain is a `Views`, the answers at one moment, any of which
may be an exception.
-/

namespace NbteBridge

inductive BitcoinNetwork
  | mainnet
  | testnet
  | signet
  | regtest
  deriving DecidableEq

structure RuneBridgeServiceConfig where
  evmBlockSafetyMargin : ℕ
  evmDefaultStartBlock : ℤ
  runesToEvmFeePercentageDecimal : ℚ
  btcMinConfirmations : ℕ
  btcMinPostageSat : ℕ
  btcListsinceblockBuffer : ℕ
  btcNetwork : BitcoinNetwork
  btcMaxFeeRateSatsPerVbyte : ℤ

/-- The account the node signs mints with; it signs the prefixed hash of the message. -/
structure LocalAccount (Hash : Type) where
  address : String
  signMessage : Hash → String

structure RuneBridgeService (Hash : Type) where
  config : RuneBridgeServiceConfig
  ordMultisig : OrdMultisig
  evmAccount : LocalAccount Hash
  codec : Codec
  psbtCodec : PsbtCodec
  /-- `recover_message`: the address a signature of the prefixed hash recovers to. -/
  recoverMessage : Hash → String → PyResult String
  toChecksumAddress : String → PyResult String

/-- The views of the bridge contract the node calls. -/
structure RuneBridgeContractViews (Hash : Type) where
  isRuneRegistered : ℕ → PyResult Bool
  isRunePaused : ℕ → PyResult Bool
  frozen : PyResult Bool
  isFederator : String → PyResult Bool
  numRequiredFederators : PyResult ℕ
  getAcceptTransferFromBtcMessageHash : String → ℕ → ℤ → String → ℕ → PyResult Hash

/-- The log of a `RuneTransferToBtc`, as far as it is read. -/
structure RuneTransferToBtcEvent where
  blockNumber : ℕ
  transactionIndex : ℕ
  logIndex : ℕ
  transactionHash : String
  rune : ℕ
  token : String
  receiverBtcAddress : String
  netRuneAmount : ℕ
  transferredTokenAmount : ℕ
  deriving DecidableEq

structure EvmRpc where
  blockNumber : PyResult ℤ
  /-- The bridge's transfers to Bitcoin in a range of blocks, after the retries. -/
  getLogs : ℤ → ℤ → PyResult (List RuneTransferToBtcEvent)
  gasPrice : PyResult ℕ
  /-- The balance and the transaction count of the node's account, pending ones included. -/
  pendingBalance : PyResult ℕ
  pendingTransactionCount : PyResult ℕ
  latestTransactionCount : PyResult ℕ
  /-- Whether a transaction succeeded, none before there is a receipt. -/
  getTransactionReceipt : String → PyResult (Option Bool)

/-- What a node can read outside at one moment. -/
structure Views (Hash : Type) where
  bitcoinRpc : BitcoinRpc
  ordClient : OrdApiClient
  /-- How the wait for `ord` to reach the height of bitcoind ends. -/
  ordSynced : PyResult Unit
  evm : EvmRpc
  contract : RuneBridgeContractViews Hash
  /-- `get_fee_sats_per_vb`. -/
  feeSatsPerVb : PyResult ℤ

namespace RuneBridgeService

variable {Hash : Type} (service : RuneBridgeService Hash)

/-! ## Fees -/

/-- The significant digits the node sets for its decimal arithmetic. -/
def decimalPrec : ℕ := 80

structure TransferAmounts where
  amountDecimal : ℚ
  amountRaw : ℤ
  feeDecimal : ℚ
  feeRaw : ℤ
  netAmountDecimal : ℚ
  netAmountRaw : ℤ
  deriving DecidableEq

open Decimals in
/-- `_calculate_rune_to_evm_transfer_amounts`. -/
def calculateRuneToEvmTransferAmounts (amountRaw : ℤ) (divisibility : ℕ) : TransferAmounts :=
  let divisor : ℚ := 10 ^ divisibility
  let amountDecimal := div decimalPrec amountRaw divisor
  let feeDecimal := div decimalPrec
    (mul decimalPrec amountDecimal service.config.runesToEvmFeePercentageDecimal) 100
  let netAmountDecimal := sub decimalPrec amountDecimal feeDecimal
  let netAmountRaw := truncate (mul decimalPrec netAmountDecimal divisor)
  let feeRaw := amountRaw - netAmountRaw
  ⟨amountDecimal, amountRaw, feeDecimal, feeRaw, netAmountDecimal, netAmountRaw⟩

/-- The literal `1.1`, the margin fees and fee rates are given. -/
def feeMargin : ℚ := Binary64.round (11 / 10)

/-- `_get_min_fee_rate_sat_per_vbyte`. -/
def getMinFeeRateSatPerVbyte : ℤ :=
  if service.config.btcNetwork = .mainnet then 15 else 1

end RuneBridgeService

end NbteBridge
