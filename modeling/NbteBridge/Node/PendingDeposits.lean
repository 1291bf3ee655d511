import NbteBridge.Foundations.DecimalText
import NbteBridge.Node.Minting

/-!
# The deposits shown to a user

The user interface asks for the last scanned block (`get_last_scanned_bitcoin_block`) before a
deposit is made, and from then on polls `get_pending_deposits_for_evm_address` with that block.
Transactions are selected in two ways: while they are `DETECTED` by their time, against that of the
block, and once they are `ACCEPTED` by the number of their block, against that of the block plus
`btc_listsinceblock_buffer`.  `shows_iff` says which outputs are shown.
-/

namespace NbteBridge

open Checked Tables

/-! ## What is shown of a deposit -/

/-- A coefficient and its decimal places, as many of them as there are zeros at the end dropped. -/
def dropZeros : ℕ → ℕ → ℕ × ℕ
  | n, 0 => (n, 0)
  | n, places + 1 => if n % 10 = 0 then dropZeros (n / 10) places else (n, places + 1)

/-- `decimal_amount`, as it is written: the quotient, with no more places than it needs. -/
def RuneRow.decimalNumber (rune : RuneRow) (amountRaw : ℤ) : Decimals.Number :=
  let (coefficient, places) := dropZeros amountRaw.natAbs rune.divisibility
  .finite (amountRaw < 0) coefficient (-places)

/-- `str(rune.decimal_amount(amount_raw))`. -/
def RuneRow.decimalText (rune : RuneRow) (amountRaw : ℤ) : String :=
  String.ofList (rune.decimalNumber amountRaw).text

example : (RuneRow.decimalText ⟨0, "A", "A", "A", 2, false⟩ 1250,
    RuneRow.decimalText ⟨0, "A", "A", "A", 0, false⟩ 1000) = ("12.5", "1000") := by decide +kernel

lemma dropZeros_exact (n places : ℕ) :
    (dropZeros n places).1 * 10 ^ places = n * 10 ^ (dropZeros n places).2 := by
  induction places generalizing n with
  | zero => rfl
  | succ places ih =>
      unfold dropZeros
      split
      · rename_i hzero
        have hn : n = n / 10 * 10 := (Nat.div_mul_cancel (Nat.dvd_of_mod_eq_zero hzero)).symm
        calc (dropZeros (n / 10) places).1 * 10 ^ (places + 1)
            = (dropZeros (n / 10) places).1 * 10 ^ places * 10 := by ring
          _ = n / 10 * 10 ^ (dropZeros (n / 10) places).2 * 10 := by rw [ih]
          _ = n / 10 * 10 * 10 ^ (dropZeros (n / 10) places).2 := by ring
          _ = n * 10 ^ (dropZeros (n / 10) places).2 := by rw [← hn]
      · rfl

/-- **The text of an amount is exact.**  Amounts of up to 80 digits are read back from it. -/
theorem RuneRow.read_decimalText (rune : RuneRow) {amountRaw : ℤ}
    (h : |amountRaw| < 10 ^ RuneBridgeService.decimalPrec) :
    ∃ coefficient places : ℕ,
      Decimals.Number.read (rune.decimalText amountRaw).toList =
        some (.finite (amountRaw < 0) coefficient (-places)) ∧
      rune.decimalAmount amountRaw =
        (if amountRaw < 0 then -(coefficient : ℚ) else coefficient) / 10 ^ places := by
  have hexact := dropZeros_exact amountRaw.natAbs rune.divisibility
  refine ⟨(dropZeros amountRaw.natAbs rune.divisibility).1,
    (dropZeros amountRaw.natAbs rune.divisibility).2, ?_, ?_⟩
  · rw [decimalText, String.toList_ofList, Decimals.Number.read_text]
    rfl
  · have hrepresentable : Decimals.Representable RuneBridgeService.decimalPrec
        ((amountRaw : ℚ) / 10 ^ rune.divisibility) :=
      ⟨amountRaw, -rune.divisibility, h, by rw [zpow_neg, zpow_natCast, div_eq_mul_inv]⟩
    rw [decimalAmount, Decimals.div_of_representable hrepresentable]
    have hcast : ((dropZeros amountRaw.natAbs rune.divisibility).1 : ℚ) * 10 ^ rune.divisibility =
        (amountRaw.natAbs : ℚ) * 10 ^ (dropZeros amountRaw.natAbs rune.divisibility).2 := by
      exact_mod_cast hexact
    have habs : (amountRaw.natAbs : ℚ) = |(amountRaw : ℚ)| := by
      rw [Nat.cast_natAbs, Int.cast_abs]
    rw [habs] at hcast
    rw [div_eq_div_iff (by positivity) (by positivity)]
    split
    · rename_i hneg
      have hneg' : (amountRaw : ℚ) < 0 := by exact_mod_cast hneg
      rw [abs_of_neg hneg'] at hcast
      linarith
    · rename_i hnonneg
      have hnonneg' : (0 : ℚ) ≤ amountRaw := by exact_mod_cast not_lt.1 hnonneg
      rw [abs_of_nonneg hnonneg'] at hcast
      exact hcast.symm

/-- `get_status_for_ui`. -/
def RuneDepositStatus.getStatusForUi : RuneDepositStatus → String
  | .detected => "detected"
  | .accepted => "seen"
  | .sendingToEvm => "seen"
  | .sentToEvm => "sent_to_evm"
  | .confirmedInEvm => "confirmed"
  | _ => "Processing"

/-- What the user interface is told of a deposit; the fee stands under one key or the other. -/
structure PendingDeposit where
  btcDepositTxid : String
  btcDepositVout : ℕ
  runeName : String
  runeSymbol : String
  amountDecimal : String
  feeAmountDecimal : Option String
  feeDecimal : Option String
  receiveAmountDecimal : String
  status : String
  evmTransferTxHash : Option String
  deriving DecidableEq

def PendingDeposit.outpoint (d : PendingDeposit) : Outpoint := ⟨d.btcDepositTxid, d.btcDepositVout⟩

/-- The answer to `getblock`. -/
structure Block where
  time : ℕ
  height : ℕ

namespace RuneBridgeService

variable {Hash : Type}

/-- A transaction whose runes are not known yet. -/
def pendingTx (o : Outpoint) : PendingDeposit where
  btcDepositTxid := o.txid
  btcDepositVout := o.vout
  runeName := ""
  runeSymbol := ""
  amountDecimal := "0"
  feeAmountDecimal := some "0"
  feeDecimal := none
  receiveAmountDecimal := "0"
  status := "detected"
  evmTransferTxHash := none

def pendingRune (key : RuneDepositKey) (runeDeposit : RuneDeposit Hash) : PendingDeposit where
  btcDepositTxid := key.txId
  btcDepositVout := key.vout
  runeName := runeDeposit.rune.spacedName
  runeSymbol :=
    if runeDeposit.rune.spacedName = "POWA•RANGERS•GO" then "POWA" else runeDeposit.rune.symbol
  amountDecimal := runeDeposit.rune.decimalText runeDeposit.transferAmountRaw
  feeAmountDecimal := none
  feeDecimal := some (runeDeposit.rune.decimalText
    (runeDeposit.transferAmountRaw - runeDeposit.netAmountRaw))
  receiveAmountDecimal := runeDeposit.rune.decimalText runeDeposit.netAmountRaw
  status := runeDeposit.status.getStatusForUi
  evmTransferTxHash := runeDeposit.evmTxHash

/-- `tx.rune_deposits`. -/
def runeDepositsOf (db : Db Hash) (o : Outpoint) : List (RuneDepositKey × RuneDeposit Hash) :=
  db.runeDeposits.rows.filter fun p => p.2.incomingBtcTx = o

/-- One round of the loop over the transactions. -/
def pendingDepositsOf (db : Db Hash) (tx : Outpoint × IncomingBtcTx) : List PendingDeposit :=
  let runeDeposits := runeDepositsOf db tx.1
  if tx.2.status = .detected ∧ runeDeposits.isEmpty then [pendingTx tx.1]
  else runeDeposits.map fun p => pendingRune p.1 p.2

/-! ## Polling -/

/-- `get_last_scanned_bitcoin_block`. -/
def getLastScannedBitcoinBlock (db : Db Hash) : Option String := db.lastScannedBlock

/-- `_get_block_time_by_hash`. -/
def getBlockTimeByHash (getblock : String → PyResult Block) (blockHash : String) : Option ℕ :=
  match getblock blockHash with
  | .ok block => some block.time
  | .error _ => none

/-- `_get_block_number_by_hash`. -/
def getBlockNumberByHash (getblock : String → PyResult Block) (blockHash : String) : Option ℕ :=
  match getblock blockHash with
  | .ok block => some block.height
  | .error _ => none

def pendingBtcTransactions (db : Db Hash) (user : User) (blockTime : ℕ) :
    List (Outpoint × IncomingBtcTx) :=
  let txs := db.incomingBtcTxs.rows.filter fun p =>
    p.2.user.map User.id = some user.id ∧ p.2.status = .detected ∧ blockTime ≤ p.2.time
  txs.insertionSort fun p q => p.2.time ≤ q.2.time

/-- A transaction without a block compares with no number. -/
def acceptedBtcTransactions (db : Db Hash) (user : User) (blockNumber : ℕ) :
    List (Outpoint × IncomingBtcTx) :=
  let txs := db.incomingBtcTxs.rows.filter fun p =>
    p.2.user.map User.id = some user.id ∧ p.2.status = .accepted ∧
      p.2.blockNumber.any fun n => blockNumber ≤ n
  txs.insertionSort fun p q => p.2.blockNumber.getD 0 ≤ q.2.blockNumber.getD 0

variable (service : RuneBridgeService Hash)

/-- `get_pending_deposits_for_evm_address`; `getblock` is called twice. -/
def getPendingDepositsForEvmAddress (getblock getblock' : String → PyResult Block)
    (evmAddress lastBlock : String) (db : Db Hash) : PyResult (List PendingDeposit) := do
  let evmAddress ← service.toChecksumAddress evmAddress
  match db.users.get? evmAddress with
  | none => pure []
  | some user =>
      if lastBlock.length ≠ 64 then pure []
      else
        let blockTime := (getBlockTimeByHash getblock lastBlock).getD 0
        if blockTime = 0 then pure []
        else do
          let blockNumber ← orError (getBlockNumberByHash getblock' lastBlock)
            (.other "TypeError: unsupported operand type(s) for +=: 'NoneType' and 'int'")
          let blockNumber := blockNumber + service.config.btcListsinceblockBuffer
          match db.depositAddresses.rows.find? fun p => p.2.user = user with
          | none => pure []
          | some _ =>
              let btcTransactions := pendingBtcTransactions db user blockTime ++
                acceptedBtcTransactions db user blockNumber
              pure (btcTransactions.flatMap (pendingDepositsOf db))

/-- The output is among the deposits shown. -/
def Shows (getblock getblock' : String → PyResult Block) (evmAddress lastBlock : String)
    (db : Db Hash) (o : Outpoint) : Prop :=
  ∃ deposits, service.getPendingDepositsForEvmAddress getblock getblock' evmAddress lastBlock db =
    .ok deposits ∧ ∃ d ∈ deposits, d.outpoint = o

end RuneBridgeService

/-! ## What is shown -/

section Shown

variable {Hash : Type} {service : RuneBridgeService Hash} {getblock getblock' : String → PyResult Block}
  {evmAddress lastBlock : String} {block : Block} {db : Db Hash} {user : User} {o : Outpoint}

/-- Every deposit belongs to the transaction of the output it is recorded under. -/
def Db.DepositsOfTxs (db : Db Hash) : Prop :=
  ∀ k row, db.runeDeposits.get? k = some row → row.incomingBtcTx = ⟨k.txId, k.vout⟩

/-- The transactions selected for a user. -/
def IncomingBtcTx.SelectedFor (user : User) (blockTime blockNumber : ℕ) (row : IncomingBtcTx) :
    Prop :=
  row.user.map User.id = some user.id ∧
    ((row.status = .detected ∧ blockTime ≤ row.time) ∨
      (row.status = .accepted ∧ ∃ n, row.blockNumber = some n ∧ blockNumber ≤ n))

/-- The user who polls is known, with a deposit address, and asks with a block. -/
structure RuneBridgeService.PollsAs (service : RuneBridgeService Hash)
    (evmAddress lastBlock : String) (block : Block) (db : Db Hash) (user : User) : Prop where
  known : ∃ checksumAddress, service.toChecksumAddress evmAddress = .ok checksumAddress ∧
    db.users.get? checksumAddress = some user
  address : ∃ p ∈ db.depositAddresses.rows, p.2.user = user
  hash : lastBlock.length = 64
  time : block.time ≠ 0

namespace RuneBridgeService

lemma mem_btcTransactions {blockTime blockNumber : ℕ} {tx : Outpoint × IncomingBtcTx} :
    tx ∈ pendingBtcTransactions db user blockTime ++ acceptedBtcTransactions db user blockNumber ↔
      db.incomingBtcTxs.get? tx.1 = some tx.2 ∧ tx.2.SelectedFor user blockTime blockNumber := by
  have hrows : tx ∈ db.incomingBtcTxs.rows ↔ db.incomingBtcTxs.get? tx.1 = some tx.2 :=
    ⟨fun h => Table.lookup_of_mem db.incomingBtcTxs.nodup h, fun h => Table.mem_of_get? h⟩
  have hblock : (tx.2.blockNumber.any fun n => blockNumber ≤ n) = true ↔
      ∃ n, tx.2.blockNumber = some n ∧ blockNumber ≤ n := by
    cases tx.2.blockNumber <;> simp
  rw [List.mem_append, pendingBtcTransactions, acceptedBtcTransactions, List.mem_insertionSort,
    List.mem_insertionSort, List.mem_filter, List.mem_filter, decide_eq_true_eq,
    decide_eq_true_eq, hblock, hrows, ← and_or_left, ← and_or_left]
  rfl

/-- A transaction is shown while it is `DETECTED`, and with its deposits once it has any. -/
lemma exists_mem_pendingDepositsOf (hdb : db.DepositsOfTxs) (tx : Outpoint × IncomingBtcTx) :
    (∃ d ∈ pendingDepositsOf db tx, d.outpoint = o) ↔
      tx.1 = o ∧ (tx.2.status = .detected ∨
        ∃ n row, db.runeDeposits.get? ⟨o.txid, o.vout, n⟩ = some row) := by
  have hof : ∀ p, p ∈ runeDepositsOf db tx.1 ↔
      db.runeDeposits.get? p.1 = some p.2 ∧ ⟨p.1.txId, p.1.vout⟩ = tx.1 := by
    intro p
    rw [runeDepositsOf, List.mem_filter, decide_eq_true_eq]
    constructor
    · rintro ⟨hp, htx⟩
      have hget := Table.lookup_of_mem db.runeDeposits.nodup hp
      exact ⟨hget, (hdb p.1 p.2 hget).symm.trans htx⟩
    · rintro ⟨hget, htx⟩
      exact ⟨Table.mem_of_get? hget, (hdb p.1 p.2 hget).trans htx⟩
  unfold pendingDepositsOf
  dsimp only
  split
  · rename_i hdetected
    have hpending : (pendingTx tx.1).outpoint = tx.1 := rfl
    simp only [List.mem_singleton, exists_eq_left, hpending]
    exact (and_iff_left (.inl hdetected.1)).symm
  · rename_i hnot
    constructor
    · rintro ⟨d, hd, rfl⟩
      obtain ⟨p, hp, rfl⟩ := List.mem_map.1 hd
      obtain ⟨hget, htx⟩ := (hof p).1 hp
      exact ⟨htx.symm, .inr ⟨p.1.runeNumber, p.2, hget⟩⟩
    · rintro ⟨rfl, hshown⟩
      obtain ⟨p, hp⟩ : ∃ p, p ∈ runeDepositsOf db tx.1 := by
        rcases hshown with hdetected | ⟨n, row, hrow⟩
        · have hempty : ¬ (runeDepositsOf db tx.1).isEmpty := fun h => hnot ⟨hdetected, h⟩
          rw [List.isEmpty_iff] at hempty
          exact List.exists_mem_of_ne_nil _ hempty
        · exact ⟨(⟨tx.1.txid, tx.1.vout, n⟩, row), (hof _).2 ⟨hrow, rfl⟩⟩
      exact ⟨_, List.mem_map_of_mem hp, ((hof p).1 hp).2⟩

/-- **What is shown.**  An output is shown to the user of its transaction, if that is selected: while
it is `DETECTED`, or with the deposits it has. -/
theorem shows_iff (hdb : db.DepositsOfTxs) (hblock : getblock lastBlock = .ok block)
    (hblock' : getblock' lastBlock = .ok block) :
    service.Shows getblock getblock' evmAddress lastBlock db o ↔
      ∃ user, service.PollsAs evmAddress lastBlock block db user ∧
        ∃ row, db.incomingBtcTxs.get? o = some row ∧
          row.SelectedFor user block.time
            (block.height + service.config.btcListsinceblockBuffer) ∧
          (row.status = .detected ∨
            ∃ n deposit, db.runeDeposits.get? ⟨o.txid, o.vout, n⟩ = some deposit) := by
  have htime : (getBlockTimeByHash getblock lastBlock).getD 0 = block.time := by
    rw [getBlockTimeByHash, hblock]
    rfl
  have hnumber : getBlockNumberByHash getblock' lastBlock = some block.height := by
    rw [getBlockNumberByHash, hblock']
  simp only [Shows, getPendingDepositsForEvmAddress, htime, hnumber, bind_eq_ok]
  constructor
  · rintro ⟨deposits, ⟨checksumAddress, hchecksum, h⟩, d, hd, ho⟩
    -- whoever is not known, has no address, or asks with no block is shown nothing
    have hnothing : ¬ (pure [] : PyResult (List PendingDeposit)) = .ok deposits := by
      rintro hnil
      rw [← pure_eq_ok.1 hnil] at hd
      exact absurd hd (by simp)
    cases huser : db.users.get? checksumAddress with
    | none =>
        rw [huser] at h
        exact absurd h hnothing
    | some user =>
        simp only [huser] at h
        split at h
        · exact absurd h hnothing
        rename_i hhash
        split at h
        · exact absurd h hnothing
        rename_i hzero
        simp only [bind_eq_ok, orError_eq_ok] at h
        obtain ⟨number, hsome, h⟩ := h
        obtain rfl := Option.some.inj hsome
        split at h
        · exact absurd h hnothing
        rename_i p hfind
        obtain rfl := pure_eq_ok.1 h
        obtain ⟨tx, htx, hd⟩ := List.mem_flatMap.1 hd
        obtain ⟨hget, hselected⟩ := mem_btcTransactions.1 htx
        obtain ⟨rfl, hshown⟩ := (exists_mem_pendingDepositsOf hdb tx).1 ⟨d, hd, ho⟩
        have haddress := List.find?_some hfind
        exact ⟨user, ⟨⟨checksumAddress, hchecksum, huser⟩,
          ⟨p, List.mem_of_find?_eq_some hfind, of_decide_eq_true haddress⟩,
          not_not.1 hhash, hzero⟩, tx.2, hget, hselected, hshown⟩
  · rintro ⟨user, ⟨⟨checksumAddress, hchecksum, huser⟩, ⟨p, hp, haddress⟩, hhash, hzero⟩, row, hrow,
      hselected, hshown⟩
    obtain ⟨q, hq⟩ : ∃ q, db.depositAddresses.rows.find? (fun p => p.2.user = user) = some q := by
      rw [← Option.isSome_iff_exists, List.find?_isSome]
      exact ⟨p, hp, decide_eq_true haddress⟩
    obtain ⟨d, hd, ho⟩ := (exists_mem_pendingDepositsOf hdb (o, row)).2 ⟨rfl, hshown⟩
    refine ⟨_, ⟨checksumAddress, hchecksum, ?_⟩, d,
      List.mem_flatMap.2 ⟨(o, row), mem_btcTransactions.2 ⟨hrow, hselected⟩, hd⟩, ho⟩
    simp only [huser]
    rw [if_neg (not_not.2 hhash), if_neg hzero]
    simp only [orError, ok_bind, hq]
    rfl

section Row

variable {row : IncomingBtcTx} (hdb : db.DepositsOfTxs) (hblock : getblock lastBlock = .ok block)
  (hblock' : getblock' lastBlock = .ok block)
  (hpolls : service.PollsAs evmAddress lastBlock block db user)
  (hrow : db.incomingBtcTxs.get? o = some row) (huser : row.user.map User.id = some user.id)

include hdb hblock hblock' hpolls hrow huser

lemma shows_of_detected (hdetected : row.status = .detected) (htime : block.time ≤ row.time) :
    service.Shows getblock getblock' evmAddress lastBlock db o :=
  (shows_iff hdb hblock hblock').2
    ⟨user, hpolls, row, hrow, ⟨huser, .inl ⟨hdetected, htime⟩⟩, .inl hdetected⟩

lemma shows_iff_of_accepted (haccepted : row.status = .accepted) :
    service.Shows getblock getblock' evmAddress lastBlock db o ↔
      (∃ n, row.blockNumber = some n ∧
        block.height + service.config.btcListsinceblockBuffer ≤ n) ∧
      ∃ n deposit, db.runeDeposits.get? ⟨o.txid, o.vout, n⟩ = some deposit := by
  have hnot : row.status ≠ .detected := by
    rw [haccepted]
    decide
  rw [shows_iff hdb hblock hblock']
  constructor
  · rintro ⟨user', -, row', hrow', ⟨-, hselected⟩, hshown⟩
    obtain rfl : row = row' := Option.some.inj (hrow.symm.trans hrow')
    exact ⟨(hselected.resolve_left fun h => hnot h.1).2, hshown.resolve_left hnot⟩
  · rintro ⟨hbound, hdeposit⟩
    exact ⟨user, hpolls, row, hrow, ⟨huser, .inr ⟨haccepted, hbound⟩⟩, .inr hdeposit⟩

end Row

end RuneBridgeService

end Shown

end NbteBridge
