import NbteBridge.Foundations.Checked
import NbteBridge.Foundations.Runs
import NbteBridge.Foundations.Packed
import NbteBridge.Foundations.Peg
import NbteBridge.Runes.Protocol
import NbteBridge.Btc.Types
import NbteBridge.Contracts.Solvency
import NbteBridge.Contracts.MintAuthorisation
import NbteBridge.Ord.Types
import NbteBridge.Ord.Multisig
import NbteBridge.Ord.Reports
import NbteBridge.Ord.CoinSelection
import NbteBridge.Ord.Conservation
import NbteBridge.Ord.Reference
import NbteBridge.Foundations.Decimal
import NbteBridge.Foundations.Table
import NbteBridge.Node.Models
import NbteBridge.Node.Service
import NbteBridge.Node.Answers
import NbteBridge.Node.PayoutCheck
import NbteBridge.Node.Reference
import NbteBridge.Node.MintCheck
import NbteBridge.Node.Scan
import NbteBridge.Node.ScanEffects
import NbteBridge.Node.DepositScan
import NbteBridge.Node.Minting
import NbteBridge.Node.Payouts
import NbteBridge.Foundations.Certificates
import NbteBridge.Node.Contract
import NbteBridge.Node.Transactions
import NbteBridge.Node.TransactionEffects
import NbteBridge.Node.Signatures
import NbteBridge.Contracts.Quorum
import NbteBridge.Contracts.DomainSeparation
import NbteBridge.Contracts.RegistryBijection
import NbteBridge.Foundations.Feeds
import NbteBridge.Node.EventScan
import NbteBridge.Node.PayoutAgreement
import NbteBridge.P2p.Challenge
import NbteBridge.P2p.Handshake
import NbteBridge.Contracts.BTCAddressValidator
import NbteBridge.Contracts.AddressReference
import NbteBridge.Contracts.TapUtils
import NbteBridge.Foundations.Bits
import NbteBridge.Foundations.Tlv
import NbteBridge.Contracts.TapAddresses
import NbteBridge.Contracts.TapAddressRoundTrip
import NbteBridge.Contracts.TapBridge
import NbteBridge.Contracts.TapRelease
import NbteBridge.Foundations.Effects
import NbteBridge.TapRsk.Models
import NbteBridge.TapRsk.TapToRsk
import NbteBridge.TapRsk.Leader
import NbteBridge.TapRsk.Batches
import NbteBridge.TapRsk.FinalizedBatches
import NbteBridge.Node.Leader
import NbteBridge.Node.Retries
import NbteBridge.Node.MintAnswers
import NbteBridge.Contracts.RuneUtils
import NbteBridge.Contracts.BurstErrors
import NbteBridge.Contracts.Accounts
import NbteBridge.Contracts.TransferFees
import NbteBridge.Node.DepositFees
import NbteBridge.Node.MultiTransfer
import NbteBridge.Node.PayoutLoss
import NbteBridge.Ord.Accounting
import NbteBridge.Node.PayoutQuorum
import NbteBridge.Foundations.Outbox
import NbteBridge.Node.AtMostOnce
import NbteBridge.Node.Federation
import NbteBridge.Contracts.SpacedRunes
import NbteBridge.Contracts.TapStrings
import NbteBridge.Contracts.TapCanonical
import NbteBridge.Contracts.Admins
import NbteBridge.Contracts.TapLists
import NbteBridge.P2p.HonestHandshakes
import NbteBridge.Foundations.DecimalText
import NbteBridge.P2p.Wire
import NbteBridge.TapRsk.RskToTap
import NbteBridge.TapRsk.RskToTapOrder
import NbteBridge.TapRsk.SignatureOrder
import NbteBridge.TapRsk.OwnSignatures
import NbteBridge.Node.DepositSpending
import NbteBridge.Node.PendingDeposits
import NbteBridge.Node.DepositPolling
import NbteBridge.Foundations.Coins
import NbteBridge.Contracts.TransferEvents
import NbteBridge.Ord.Mined
import NbteBridge.Bridge.System
import NbteBridge.Bridge.Deposits
import NbteBridge.Bridge.Payouts
import NbteBridge.Bridge.Backing
import NbteBridge.Contracts.TapEvents
import NbteBridge.TapRsk.RskScan
import NbteBridge.TapRsk.SendingOrder
import NbteBridge.Bridge.TapPegOut
import NbteBridge.Contracts.TapQuotes
import NbteBridge.TapRsk.TapDeposits
import NbteBridge.TapRsk.SentDeposits
import NbteBridge.Bridge.TapPegIn
import NbteBridge.Contracts.Stopping
import NbteBridge.TapRsk.Follower
import NbteBridge.TapRsk.Collecting
import NbteBridge.TapRsk.Accepted
