import NbteBridge.Contracts.Evm
import NbteBridge.Node.Service
import NbteBridge.Ord.Reference

/-!
# A concrete node

A node of the example wallet's federation, on testnet: its service, what it sees outside, and a
database with one deposit on each side.  EVM addresses are single characters here, and a signature
is its signer's address followed by the signed hash.
-/

namespace NbteBridge

namespace ExampleNode

/-! ## Signatures -/

/-- A hash as text. -/
def textOf (h : Bytes) : List Char := h.map fun b => Char.ofNat b.toNat

def sign (signer : Char) (h : Bytes) : String := String.ofList (signer :: textOf h)

/-- The first character, when the rest is the hash. -/
def recover (h : Bytes) (signature : String) : PyResult String :=
  match signature.toList with
  | [] => .error (.other "invalid signature")
  | c :: cs => .ok (if cs = textOf h then String.ofList [c] else "nobody")

/-! ## The service -/

def config : RuneBridgeServiceConfig where
  evmBlockSafetyMargin := 5
  evmDefaultStartBlock := 1
  runesToEvmFeePercentageDecimal := 25
  btcMinConfirmations := 2
  btcMinPostageSat := 1000
  btcListsinceblockBuffer := 2
  btcNetwork := .testnet
  btcMaxFeeRateSatsPerVbyte := 100

/-- The texts of the transactions in `psbts` are their positions there. -/
def psbtCodec (psbts : List Psbt) : PsbtCodec where
  toBase64 psbt := String.ofList (List.replicate (psbts.idxOf psbt) 'x')
  fromBase64 text :=
    match psbts[text.length]? with
    | some psbt => .ok psbt
    | none => .error (.other "invalid base 64")
  combine psbt other := do
    Checked.require (psbt.unsignedTx = other.unsignedTx) (.valueError "different transactions")
    let sigs := List.zipWith (fun i j => i.partialSigs ++ j.partialSigs) psbt.inputs other.inputs
    pure ⟨psbt.unsignedTx, List.zipWith (fun i s => { i with partialSigs := s }) psbt.inputs sigs⟩
  finalize psbt := .ok (psbt.inputs.all fun i => 2 ≤ i.partialSigs.length, psbt)
  extractTransaction psbt := .ok psbt.unsignedTx

/-- The service of the node with this EVM address. -/
def service (address : Char) (psbts : List Psbt) : RuneBridgeService Bytes where
  config := config
  ordMultisig := ExampleWallet.ms
  evmAccount := ⟨String.ofList [address], sign address⟩
  codec := UnaryCodec.codec
  psbtCodec := psbtCodec psbts
  recoverMessage := recover
  toChecksumAddress := .ok

/-- The hash of a mint is the text of its arguments. -/
def contract (federators : List Char) : RuneBridgeContractViews Bytes where
  isRuneRegistered _ := .ok true
  isRunePaused _ := .ok false
  frozen := .ok false
  isFederator a := .ok (a ∈ federators.map fun c => String.ofList [c])
  numRequiredFederators := .ok (federators.length / 2 + 1)
  getAcceptTransferFromBtcMessageHash evmAddress rune amount txid vout :=
    .ok (Packed.ascii evmAddress ++ [UInt8.ofNat rune, UInt8.ofNat amount.toNat] ++
      Packed.ascii txid ++ [UInt8.ofNat vout])

/-- Three units of the rune to be paid out. -/
def event : RuneTransferToBtcEvent where
  blockNumber := 3
  transactionIndex := 0
  logIndex := 0
  transactionHash := "event"
  rune := 0
  token := "t"
  receiverBtcAddress := "user"
  netRuneAmount := 3
  transferredTokenAmount := 3

/-- A chain of ten blocks with one event, where gas costs nothing. -/
def evm : EvmRpc where
  blockNumber := .ok 10
  getLogs first last := .ok (if first ≤ 3 ∧ 3 ≤ last then [event] else [])
  gasPrice := .ok 0
  pendingBalance := .ok 0
  pendingTransactionCount := .ok 0
  latestTransactionCount := .ok 0
  getTransactionReceipt _ := .ok (some true)

def views (federators : List Char) : Views Bytes where
  bitcoinRpc := ExampleWallet.rpc
  ordClient := ExampleWallet.ord
  ordSynced := .ok ()
  evm := evm
  contract := contract federators
  feeSatsPerVb := .ok 1

/-! ## The database -/

def runeRow : RuneRow := ⟨0, "A", "A", "A", 0, false⟩

def user : User := ⟨1, "u"⟩

def tokenDepositKey : RuneTokenDepositKey := ⟨"event", 0⟩

/-- The row of `event`. -/
def tokenDeposit : RuneTokenDeposit where
  evmBlockNumber := 3
  receiverBtcAddress := "user"
  transferredTokenAmount := 3
  netRuneAmountRaw := 3
  tokenAddress := "t"
  rune := runeRow
  btcTxId := none
  finalizedPsbt := none
  status := .accepted

def db : Db Bytes :=
  { Db.empty with runeTokenDeposits := Tables.Table.empty.set tokenDepositKey tokenDeposit }

/-! ## A payout -/

def transfer : RuneTokenToBtcTransfer := ⟨"user", 3, "t", "A", 0, "event", 0⟩

/-- The payout of `transfer` from both outputs of the wallet, with this pointer. -/
def payout (pointer : ℕ) : Psbt where
  unsignedTx :=
    { vin := ExampleWallet.utxos.map UTXO.outpoint
      vout :=
        [⟨0, UnaryCodec.OP_RETURN ::
          UnaryCodec.encode ⟨[⟨ExampleWallet.runeId, 3, 2⟩], none, none, some pointer⟩⟩,
        ⟨10000, ExampleWallet.ms.changeScriptPubkey⟩,
        ⟨10000, 0 :: Packed.ascii "user"⟩,
        ⟨89796, ExampleWallet.ms.changeScriptPubkey⟩]
      nSequence := [0xffffffff, 0xffffffff]
      nLockTime := 0 }
  inputs := [⟨some [81], some ⟨10000, [0]⟩, none, []⟩, ⟨some [81], some ⟨100000, [0]⟩, none, []⟩]

/-- A question for a transaction that pays `transfer`, as its text and at one satoshi a byte. -/
def payoutQuestion (text : String) : SignRuneTokenToBtcTransferQuestion :=
  ⟨transfer, none, text, .int 1⟩

end ExampleNode

lemma ExampleWallet.resolves_getRune {name : String} {r : Rune} {response : RuneResponse}
    (hname : runeFromStr name = .ok r) (h : ExampleWallet.ord.getRune name = .ok (some response)) :
    response.id = ExampleWallet.idOf r := by
  have hsome : (if name = "A" then some ExampleWallet.runeResponse else none) = some response :=
    Except.ok.inj h
  by_cases hA : name = "A"
  · rw [if_pos hA] at hsome
    have hrune : runeFromStr name = .ok ExampleWallet.rune := by
      rw [hA]
      exact runeFromStr_name ExampleWallet.rune
    rw [hrune] at hname
    rw [← Option.some.inj hsome, ← Except.ok.inj hname, ExampleWallet.idOf_rune]
    rfl
  · rw [if_neg hA] at hsome
    exact absurd hsome (by simp)

end NbteBridge
