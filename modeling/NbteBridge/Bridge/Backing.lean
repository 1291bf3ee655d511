import NbteBridge.Bridge.Payouts
import NbteBridge.Contracts.Reference
import NbteBridge.Contracts.Solvency
import NbteBridge.Node.Signatures

/-!
# The bridge stays backed

The three accounts of the bridge put together: what the contract minted was deposited
(`accepted_le_deposited`), deposits lie with the multisig or flowed out of it
(`Coins.total_le_held_add_outflow`), and what flowed out pays releases of the contract, each at most
once.  With the contract's own books, the runes in custody cover the supply of their token and all
releases that are still to be paid.
-/

namespace NbteBridge

open Checked Coins Runs

namespace BridgeSetup

variable {Node T R Hash Sig : Type} [Erc20 T] [AccessControlEnumerable R] [DecidableEq Node]
  {B : BridgeSetup Node Hash Sig} {s : BridgeState Node T R Hash}

/-! ## Releases and their payouts -/

/-- A transaction in a block pays the release: an honest node signed it for its event. -/
def PaidBy (B : BridgeSetup Node Hash Sig) (s : BridgeState Node T R Hash) (m : MinedTransaction)
    (i : ℕ) : Prop :=
  ∃ signature ∈ s.nodes.signed, signature.signer ∉ B.federation.faulty ∧
    B.keyOf i ∈ signature.events ∧ signature.tx = m.tx

def Paid (B : BridgeSetup Node Hash Sig) (s : BridgeState Node T R Hash) (i : ℕ) : Prop :=
  ∃ m ∈ s.mined, B.PaidBy s m i

instance (m : MinedTransaction) (i : ℕ) : Decidable (B.PaidBy s m i) :=
  inferInstanceAs (Decidable (∃ signature ∈ s.nodes.signed, _))

instance (i : ℕ) : Decidable (B.Paid s i) :=
  inferInstanceAs (Decidable (∃ m ∈ s.mined, B.PaidBy s m i))

/-- The runes of a token that a release is of. -/
def releaseAt (s : BridgeState Node T R Hash) (token : Address) (i : ℕ) : ℕ :=
  match s.world.releases[i]? with
  | some r => if r.token = token then r.netRuneAmount.toNat else 0
  | none => 0

/-- The releases that `P` picks, in runes. -/
def releasedWhere (s : BridgeState Node T R Hash) (token : Address) (P : ℕ → Bool) : ℕ :=
  ((List.range s.world.releases.length).map fun i => if P i then releaseAt s token i else 0).sum

/-- What is released but not paid yet. -/
def unpaidRuneAmount (B : BridgeSetup Node Hash Sig) (s : BridgeState Node T R Hash)
    (token : Address) : ℕ :=
  releasedWhere s token fun i => !decide (B.Paid s i)

/-- The runes the multisig holds. -/
def runesInCustody (B : BridgeSetup Node Hash Sig) (s : BridgeState Node T R Hash) :
    Runes.Balances :=
  fun id => held B.custody (paymentsOf s.mined) id

omit [Erc20 T] [AccessControlEnumerable R] [DecidableEq Node] in
lemma released_eq (s : BridgeState Node T R Hash) (token : Address) (P : ℕ → Bool) :
    releasedRuneAmount token s.world.logs =
      releasedWhere s token P + releasedWhere s token fun i => !P i := by
  have hmap : s.world.releases.map (fun r => if r.token = token then r.netRuneAmount.toNat else 0) =
      (List.range s.world.releases.length).map (releaseAt s token) := by
    refine List.ext_getElem (by simp) fun i hi hi' => ?_
    rw [List.length_map] at hi
    simp [releaseAt, List.getElem?_eq_getElem hi]
  rw [releasedRuneAmount_eq, hmap, releasedWhere, releasedWhere, ← List.sum_map_add]
  refine congrArg List.sum (List.map_congr_left fun i _ => ?_)
  cases P i <;> simp

/-! ## What one transaction takes -/

lemma sum_filter_le {α : Type} {P : α → Bool} {f g : α → ℕ} {l : List α}
    (h : ∀ x ∈ l, P x = true → f x ≤ g x) : ((l.filter P).map f).sum ≤ (l.map g).sum := by
  induction l with
  | nil => exact le_rfl
  | cons x l ih =>
      have hrest := ih fun y hy => h y (List.mem_cons_of_mem _ hy)
      by_cases hx : P x = true
      · have hle := h x List.mem_cons_self hx
        rw [List.filter_cons_of_pos hx]
        simp only [List.map_cons, List.sum_cons]
        omega
      · rw [List.filter_cons_of_neg hx, List.map_cons, List.sum_cons]
        omega

lemma valueAt_le (p : Script → Bool) (mined : List MinedTransaction) (o : Outpoint)
    (id : Runes.RuneId) : valueAt p (paymentsOf mined) o id ≤ chainOf mined o id := by
  unfold chainOf valueAt total
  refine List.sum_le_sum fun coin _ => ?_
  split
  · exact le_rfl
  · exact Nat.zero_le _

omit [DecidableEq Node] in
/-- A sound payout takes what it owes. -/
lemma outflow_le_owed {mined : List MinedTransaction} {m : MinedTransaction}
    {transfers : List RuneTokenToBtcTransfer} (hsettled : RunesSettled B.codec mined m)
    (hsound : ∀ i, SoundPayout B.idOf B.codec (chainOf mined) i B.changeScript m.tx transfers)
    (id : Runes.RuneId) :
    outflow B.custody B.isChange (paymentsOf mined) m.payment id ≤
      owedRunes B.idOf transfers id := by
  obtain ⟨i, hi⟩ := hsettled
  have hin : (m.payment.inputs.map fun o => valueAt B.custody (paymentsOf mined) o id).sum ≤
      m.tx.inputRunes (chainOf mined) id :=
    List.sum_le_sum fun o _ => valueAt_le B.custody mined o id
  have hchange : ((m.tx.changeOutputs B.changeScript transfers.length).map fun o =>
      (m.tx.settle B.codec (chainOf mined) i).outputs o id).sum ≤
        total B.isChange m.outputs id := by
    rw [total_outputs]
    refine sum_filter_le fun k _ hk => ?_
    obtain ⟨-, hscript⟩ := of_decide_eq_true hk
    rw [hscript, Option.getD_some, if_pos (by simp [isChange]), hi]
  have hback := (hsound i).change id
  unfold outflow
  have houtputs : m.payment.outputs = m.outputs := rfl
  rw [houtputs]
  omega

omit [DecidableEq Node] in
lemma spendsCustody_of_outflow {mined : List MinedTransaction} {m : MinedTransaction}
    {id : Runes.RuneId}
    (h : outflow B.custody B.isChange (paymentsOf mined) m.payment id ≠ 0) :
    B.SpendsCustody mined m.tx := by
  by_contra hnot
  refine h ?_
  have hzero :
      (m.payment.inputs.map fun o => valueAt B.custody (paymentsOf mined) o id).sum = 0 := by
    refine List.sum_eq_zero fun x hx => ?_
    obtain ⟨o, ho, rfl⟩ := List.mem_map.1 hx
    unfold valueAt total
    refine List.sum_eq_zero fun y hy => ?_
    obtain ⟨coin, hcoin, rfl⟩ := List.mem_map.1 hy
    obtain ⟨hmade, hid⟩ := List.mem_filter.1 hcoin
    refine if_neg fun hcustody => hnot ⟨coin, hmade, ?_, hcustody⟩
    rw [of_decide_eq_true hid]
    exact ho
  rw [outflow, hzero, Nat.zero_sub]

/-! ## Each transaction pays a release of its own -/

omit [DecidableEq Node] in
/-- The token of a release of its rune. -/
lemma token_of_release [LawfulErc20 T] {calls : List (Msg × Call Sig)}
    (h : ContractRun B.crypto calls s.world) {address : Address} {token : RuneToken T}
    (htoken : s.world.tokens address = some token) {r : Release} (hr : r ∈ s.world.releases)
    (hrune : r.rune = token.rune) : r.token = address := by
  obtain ⟨hregistered, hne⟩ := World.registered_of_release h hr
  have hwell := World.wellRegistered_of_run h
  obtain ⟨token', htoken'⟩ := hwell.byToken r.token (by rw [hregistered]; exact hne)
  have hdeployed := hwell.deployed _ _ htoken
  have hdeployed' := hwell.deployed _ _ htoken'
  rw [← hdeployed.tokensByRune, ← hdeployed'.tokensByRune, ← hdeployed'.runesByToken, hregistered,
    hrune]

lemma outflow_le_released [LawfulErc20 T] (hB : B.Lawful) {calls : List (Msg × Call Sig)}
    (hcalls : ContractRun B.crypto calls s.world) (hmined : MinedInOrder s.mined)
    (hvouched : B.PayoutsVouched s) {address : Address} {token : RuneToken T}
    (htoken : s.world.tokens address = some token) {r₀ : Rune} (hr₀ : r₀.n = token.rune.toNat) :
    ((paymentsOf s.mined).map fun x =>
        outflow B.custody B.isChange (paymentsOf s.mined) x (B.idOf r₀)).sum ≤
      releasedWhere s address fun i => decide (B.Paid s i) := by
  have hmap : (paymentsOf s.mined).map (fun x =>
      outflow B.custody B.isChange (paymentsOf s.mined) x (B.idOf r₀)) = s.mined.map fun m =>
        outflow B.custody B.isChange (paymentsOf s.mined) m.payment (B.idOf r₀) := by
    rw [paymentsOf, List.map_map]
    rfl
  rw [hmap, releasedWhere]
  refine sum_le_sum_of_vouchers (R := fun m i => B.SpendsCustody s.mined m.tx ∧ B.PaidBy s m i)
    hmined.txids.of_map ?_ ?_
  · -- the transaction's signature names the release
    intro m hm hne
    have hspends := spendsCustody_of_outflow hne
    obtain ⟨hsettled, signature, hsignature, hhonest, htx⟩ := hvouched.mined m hm hspends
    obtain ⟨transfers, hv⟩ := hvouched.signatures signature hsignature hhonest
    have hle : _ ≤ owedRunes B.idOf transfers (B.idOf r₀) :=
      outflow_le_owed hsettled (fun i => htx ▸ hv.sound i) (B.idOf r₀)
    have howed : owedRunes B.idOf transfers (B.idOf r₀) ≠ 0 := by omega
    obtain ⟨t, rfl⟩ : ∃ t, transfers = [t] := by
      rw [← List.length_eq_one_iff]
      have hpos : transfers.length ≠ 0 := fun h0 => howed (by
        rw [List.length_eq_zero_iff.1 h0]
        rfl)
      have hsingle := hv.single
      omega
    have hone : owedRunes B.idOf [t] (B.idOf r₀) =
        if t.runeId B.idOf = some (B.idOf r₀) then t.netRuneAmount.toNat else 0 := by
      simp [owedRunes]
    rw [hone] at howed hle
    have hid : t.runeId B.idOf = some (B.idOf r₀) := by
      by_contra hother
      exact howed (if_neg hother)
    rw [if_pos hid] at hle
    obtain ⟨i, rune, hrune, hkey, r, hr, hn, hnet⟩ := hv.shown t (by simp)
    rw [RuneTokenToBtcTransfer.runeId, hrune] at hid
    obtain rfl : rune = r₀ := hB.idOf_injective (Option.some.inj hid)
    have hword : r.rune = token.rune := BitVec.eq_of_toNat_eq (hn.symm.trans hr₀)
    have haddress := token_of_release hcalls htoken (List.mem_of_getElem? hr) hword
    have hpaid : B.PaidBy s m i :=
      ⟨signature, hsignature, hhonest, by rw [hv.events, hkey]; simp, htx⟩
    refine ⟨i, List.mem_range.2 (List.getElem?_eq_some_iff.1 hr).1, ⟨hspends, hpaid⟩, ?_⟩
    have hrelease : releaseAt s address i = r.netRuneAmount.toNat := by
      rw [releaseAt, hr]
      exact if_pos haddress
    rw [if_pos (decide_eq_true ⟨m, hm, hpaid⟩), hrelease]
    rw [hnet] at hle
    simpa using hle
  · -- signatures for one release are of transactions that conflict, and both are in blocks
    rintro m hm m' hm' i ⟨⟨coin, -, hcoin, -⟩, signature, hsignature, hhonest, hkey, htx⟩
      ⟨-, signature', hsignature', hhonest', hkey', htx'⟩
    rcases hvouched.conflict signature hsignature signature' hsignature' hhonest hhonest' _ hkey
      hkey' with hsame | ⟨o, ho, ho'⟩
    · have hcoin' : coin.id ∈ m'.tx.vin := by
        rw [← htx', ← hsame, htx]
        exact hcoin
      exact hmined.eq_of_spends hm hm' hcoin hcoin'
    · rw [htx] at ho
      rw [htx'] at ho'
      exact hmined.eq_of_spends hm hm' ho ho'

omit [Erc20 T] [AccessControlEnumerable R] [DecidableEq Node] in
/-- Deposits are in custody, or flowed out. -/
lemma deposited_le (hB : B.Lawful) (hmined : MinedInOrder s.mined) (id : Runes.RuneId) :
    total B.isDeposit (made (paymentsOf s.mined)) id ≤ B.runesInCustody s id +
      ((paymentsOf s.mined).map fun x =>
        outflow B.custody B.isChange (paymentsOf s.mined) x id).sum := by
  refine total_le_held_add_outflow hmined.spent_once ?_ ?_ ?_ id
  · intro script hdeposit
    simp [custody, hdeposit]
  · intro script hchange
    simp only [isChange, decide_eq_true_eq] at hchange
    simp [custody, hchange]
  · intro script hdeposit
    simp only [isChange, decide_eq_false_iff_not]
    rintro rfl
    rw [hB.change_notDeposit] at hdeposit
    exact absurd hdeposit (by simp)

end BridgeSetup

/-! ## Every run -/

section Results

variable {Node T R Hash Sig : Type} [Erc20 T] [AccessControlEnumerable R] [LawfulErc20 T]
  [DecidableEq Node] {B : BridgeSetup Node Hash Sig}
  {tr : List (BridgeAction Node Hash Sig)} {s : BridgeState Node T R Hash} {address : Address}
  {token : RuneToken T} {r : Rune}

/-- **Minted runes were deposited.**  In every run in which the mints that honest nodes sign are of
deposits, the runes accepted for a token come to no more than those on outputs at deposit addresses,
and so does its supply. -/
theorem minted_runes_were_deposited [LawfulAccessControlEnumerable R] (hB : B.Lawful)
    (h : B.RunWith B.MintsDeposits tr s) (htoken : s.world.tokens address = some token)
    (hr : r.n = token.rune.toNat) :
    acceptedRuneAmount token.rune (BridgeAction.callsOf tr) ≤
        total B.isDeposit (made (paymentsOf s.mined)) (B.idOf r) ∧
      token.totalSupply ≤ token.runeAmountDivisor.toNat *
        total B.isDeposit (made (paymentsOf s.mined)) (B.idOf r) := by
  have haccepted := BridgeSetup.accepted_le_deposited hB (fun _ _ h => h) h hr
  have hsolvent := (World.balanced_of_run (BridgeSetup.contractRun h)).solvent address token htoken
  refine ⟨haccepted, ?_⟩
  have hsupply : token.totalSupply ≤ token.runeAmountDivisor.toNat *
      acceptedRuneAmount token.rune (BridgeAction.callsOf tr) := by
    have hbooks : token.totalSupply + _ + _ = _ := hsolvent
    exact hbooks ▸ (Nat.le_add_right _ _).trans (Nat.le_add_right _ _)
  exact hsupply.trans (Nat.mul_le_mul_left _ haccepted)

/-- **The multisig pays releases only.**  In every run in which the payouts that honest nodes sign
are covered, and are the only ones of their events, what was deposited is in custody or was paid for
a release: the deposits and the releases still to be paid are covered by what is in custody and what
was released. -/
theorem multisig_pays_releases_only (hB : B.Lawful) (h : B.RunWith B.PaysCovered tr s)
    (htoken : s.world.tokens address = some token) (hr : r.n = token.rune.toNat) :
    total B.isDeposit (made (paymentsOf s.mined)) (B.idOf r) + B.unpaidRuneAmount s address ≤
      B.runesInCustody s (B.idOf r) + releasedRuneAmount address s.world.logs := by
  have hmined := BridgeSetup.minedInOrder h
  have hheld := BridgeSetup.deposited_le hB hmined (B.idOf r)
  have hpaid := BridgeSetup.outflow_le_released hB (BridgeSetup.contractRun h) hmined
    (BridgeSetup.payoutsVouched hB (fun _ _ h => h) h) htoken hr
  have hreleased := BridgeSetup.released_eq s address fun i => decide (B.Paid s i)
  unfold BridgeSetup.unpaidRuneAmount
  omega

/-- **The bridge stays backed.**  In every run in which honest nodes sign mints of deposits and
covered payouts, one for each event, the runes in the multisig's custody cover the supply of their
token and all releases that are still to be paid. -/
theorem bridge_stays_backed [LawfulAccessControlEnumerable R] (hB : B.Lawful)
    (h : B.RunWith (fun s a => B.MintsDeposits s a ∧ B.PaysCovered s a) tr s)
    (htoken : s.world.tokens address = some token) (hr : r.n = token.rune.toNat) :
    token.totalSupply + token.runeAmountDivisor.toNat * B.unpaidRuneAmount s address ≤
      token.runeAmountDivisor.toNat * B.runesInCustody s (B.idOf r) := by
  have hcalls := BridgeSetup.contractRun h
  have hmined := BridgeSetup.minedInOrder h
  have hvouched := BridgeSetup.payoutsVouched hB (fun _ _ h => h.2) h
  exact ((World.balanced_of_run hcalls).solvent address token htoken).backed
    (BridgeSetup.accepted_le_deposited hB (fun _ _ h => h.1) h hr)
    (BridgeSetup.deposited_le hB hmined (B.idOf r))
    (BridgeSetup.outflow_le_released hB hcalls hmined hvouched htoken hr)
    (BridgeSetup.released_eq s address _)

end Results

/-! ## An example -/

namespace ExampleBridge

def runeId : Runes.RuneId := ⟨2, 0⟩

/-- Three units to the user, the rest to the multisig. -/
def payout : Psbt where
  unsignedTx :=
    { vin := [⟨"aa", 0⟩, ⟨"aa", 1⟩]
      vout :=
        [⟨0, UnaryCodec.OP_RETURN :: UnaryCodec.encode ⟨[⟨runeId, 3, 2⟩], none, none, some 1⟩⟩,
        ⟨10000, ExampleWallet.ms.changeScriptPubkey⟩,
        ⟨10000, 0 :: Packed.ascii "user"⟩,
        ⟨89796, ExampleWallet.ms.changeScriptPubkey⟩]
      nSequence := [0xffffffff, 0xffffffff]
      nLockTime := 0 }
  inputs :=
    [⟨some [81], some ⟨10000, 0 :: Packed.ascii "ux"⟩, none, []⟩,
      ⟨some [81], some ⟨100000, ExampleWallet.ms.changeScriptPubkey⟩, none, []⟩]

/-- One node, which is enough to sign. -/
def federation : Federation (Fin 1) Bytes where
  service _ := ExampleNode.service '4' [payout]
  numRequiredSigners := 1
  agreed _ := rfl
  faulty := ∅
  fewFaulty := by decide

def bridge : BridgeSetup (Fin 1) Bytes (Address × Bytes) where
  federation := federation
  abi := ExampleNode.abi
  crypto := symbolicCrypto
  signed := id
  idOf r := ⟨r.n + 1, 0⟩
  codec := UnaryCodec.codec
  changeScript := ExampleWallet.ms.changeScriptPubkey
  isDeposit script := decide (script = 0 :: Packed.ascii "ux")
  keyOf i := ⟨"event", i⟩

lemma lawful : bridge.Lawful where
  ideal := symbolicCrypto_ideal
  idOf_injective r r' h := Rune.eq_of_n (Nat.succ.inj (congrArg Runes.RuneId.block h))
  block_pos r := Nat.succ_pos _
  codec := UnaryCodec.codec_lawful
  change_notOpReturn := by decide
  change_notDeposit := by decide
  keyOf_injective i i' h := congrArg RuneTokenDepositKey.evmLogIndex h
  nodes_codec _ := rfl
  nodes_change _ := rfl
  nodes_fee _ := by
    show IsFeePercentage 25
    exact ⟨by norm_num, by norm_num, 25 * 10 ^ 30, by norm_num⟩

/-! ### The contracts -/

def federator : Address := ExampleNode.addressOf '4'

def user : Address := ExampleNode.addressOf '5'

def deployed : World Balances RoleLists :=
  { Deployment.world with
    accessControls := fun a =>
      if a = 2 then
        some ⟨RoleLists.insert (NBTEBridgeAccessControl.construct 3).roles ROLE_FEDERATOR federator⟩
      else none }

/-- Six of the eight units deposited. -/
def accepted : TransferFromBtc := ⟨user, 1, 6, 2, 0⟩

def messageHash : Bytes := getAcceptTransferFromBtcMessageHash symbolicCrypto 1 accepted

def signature : Address × Bytes := (federator, symbolicCrypto.toEthSignedMessageHash messageHash)

/-- A rune is registered, a deposit minted, and four of its six units are sent back. -/
def calls : List (Msg × Call (Address × Bytes)) :=
  [(⟨3, 0⟩, .registerRune 10 ⟨Packed.ascii "B", Packed.ascii "B", 1, 0⟩),
   (⟨federator, 0⟩, .acceptTransferFromBtc accepted [signature]),
   (⟨user, 0⟩, .tokenCall 10 (.approve 1 (4 * 10 ^ 18))),
   (⟨user, 300000000000000⟩, .transferToBtc 10 (4 * 10 ^ 18) (Packed.ascii "user"))]

def worldAfter : ℕ → Result (World Balances RoleLists)
  | 0 => deployed.initializeBridge 2 6
  | n + 1 => do
      let w ← worldAfter n
      (calls[n]?).elim (.error "") fun a => w.step symbolicCrypto a.1 a.2

/-- The contracts after the first `n` calls. -/
@[irreducible] def world (n : ℕ) : World Balances RoleLists := (worldAfter n).toOption.getD deployed

/-! ### The node -/

def ord : OrdApiClient where
  getRune name := .ok (if name = "B" then some ⟨runeId, ⟨"B", "B", 1, false⟩⟩ else none)
  getOutput txid vout := .ok
    { indexed := true, spent := false, transaction := txid, value := 10000
      runes := if txid = "aa" ∧ vout = 0 then [("B", ⟨8, 0⟩)] else []
      inscriptions := [] }

def event : RuneTransferToBtcEvent := { ExampleNode.event with rune := 1 }

def views : Views Bytes :=
  { ExampleNode.views ['4'] with
    ordClient := ord
    evm := { ExampleNode.evm with
      getLogs := fun first last => .ok (if first ≤ 3 ∧ 3 ≤ last then [event] else []) }
    contract := (world 1).contractViews ExampleNode.abi symbolicCrypto }

def mintQuestion : SignRuneToEvmTransferQuestion :=
  ⟨⟨String.ofList ['5'], 8, 8, 6, "aa", 0, "B", 1⟩⟩

def payoutQuestion : SignRuneTokenToBtcTransferQuestion :=
  ⟨{ ExampleNode.transfer with runeName := "B", runeNumber := 1 }, none, "", .int 1⟩

/-- The node's database after it scanned the event. -/
@[irreducible] def scanned : Db Bytes :=
  ((((federation.service 0).scanRuneTokenDeposits views .empty).toOption).map Prod.snd).getD .empty

/-- What the calls and the node compute here. -/
structure Computed : Prop where
  calls : ∀ n ≤ 4, (worldAfter n).isOk = true
  self : (world 1).self = 1
  federators : ((world 1).accessControls (world 1).bridge.accessControl).map
    (fun ac => ac.roles.members ROLE_FEDERATOR) = some [federator]
  releases : (world 4).releases = [⟨10, 1, 3⟩]
  rune : ((world 4).tokens 10).map RuneToken.rune = some 1
  mint : ((federation.service 0).answerSignRuneToEvmTransferQuestion views mintQuestion).map
    SignRuneToEvmTransferAnswer.messageHash = .ok messageHash
  scan : ((federation.service 0).scanRuneTokenDeposits views .empty).isOk = true
  sign : ((federation.service 0).answerSignRuneTokenToBtcTransferQuestion views scanned
    payoutQuestion).isOk = true
  runestone : UnaryCodec.codec.decipher payout.unsignedTx.scripts =
    some (.runestone ⟨[⟨runeId, 3, 2⟩], none, none, some 1⟩)
  pointer : payout.unsignedTx.defaultOutput UnaryCodec.codec = some 1

lemma computed : Computed where
  calls := by decide +kernel
  self := by decide +kernel
  federators := by decide +kernel
  releases := by decide +kernel
  rune := by decide +kernel
  mint := by decide +kernel
  scan := by decide +kernel
  sign := by decide +kernel
  runestone := by decide +kernel
  pointer := by decide +kernel

def rune : Rune := ⟨"B", 1, by decide +kernel⟩

/-! ### The contracts' steps -/

lemma worldAfter_eq {n : ℕ} {w : World Balances RoleLists} (h : worldAfter n = .ok w) :
    world n = w := by
  unfold world
  rw [h]
  rfl

lemma initialized : (world 0).Initialized := by
  obtain ⟨w, h⟩ : ∃ w, worldAfter 0 = .ok w := exists_ok_of_isOk ((computed).calls 0 (by simp))
  rw [worldAfter_eq h]
  exact ⟨deployed, ⟨rfl, fun _ => rfl, rfl⟩, 2, 6, h⟩

lemma world_step {n : ℕ} {a : Msg × Call (Address × Bytes)} (ha : calls[n]? = some a)
    (hn : n + 1 ≤ 4) :
    World.Step symbolicCrypto (world n) a (world (n + 1)) := by
  obtain ⟨w', h'⟩ := exists_ok_of_isOk ((computed).calls (n + 1) hn)
  obtain ⟨w, hw, hstep⟩ := bind_eq_ok.1 (show (worldAfter n >>= _) = Except.ok w' from h')
  rw [ha] at hstep
  rw [worldAfter_eq hw, worldAfter_eq h']
  exact hstep

/-! ### Bitcoin -/

/-- Eight units of the rune, somewhere else. -/
def genesis : MinedTransaction where
  txid := "genesis"
  tx := ⟨[], [⟨10000, [0]⟩], [], 0⟩
  runes k id := if k = 0 ∧ id = runeId then 8 else 0

/-- All of them to the user's deposit address, and satoshis to the multisig. -/
def deposit : MinedTransaction where
  txid := "aa"
  tx := ⟨[⟨"genesis", 0⟩],
    [⟨10000, 0 :: Packed.ascii "ux"⟩, ⟨100000, ExampleWallet.ms.changeScriptPubkey⟩],
    [0xffffffff], 0⟩
  runes k id := if k = 0 ∧ id = runeId then 8 else 0

def settlement : ℕ → Runes.Balances :=
  (payout.unsignedTx.settle UnaryCodec.codec (chainOf [genesis, deposit])
    ⟨fun _ => 0, none⟩).outputs

def paid : MinedTransaction := ⟨"paid", payout.unsignedTx, settlement⟩

lemma chainOf_genesis (o : Outpoint) (id : Runes.RuneId) :
    chainOf [genesis] o id = if o = ⟨"genesis", 0⟩ ∧ id = runeId then 8 else 0 := by
  by_cases ho : (⟨"genesis", 0⟩ : Outpoint) = o
  · simp [chainOf, valueAt, made, paymentsOf, MinedTransaction.payment, MinedTransaction.outputs,
      genesis, ho, List.range_succ, eq_comm]
  · simp [chainOf, valueAt, made, paymentsOf, MinedTransaction.payment, MinedTransaction.outputs,
      genesis, ho, List.range_succ, Ne.symm ho]

lemma chainOf_deposit (id : Runes.RuneId) :
    chainOf [genesis, deposit] ⟨"aa", 0⟩ id = if id = runeId then 8 else 0 := by
  simp [chainOf, valueAt, made, paymentsOf, MinedTransaction.payment, MinedTransaction.outputs,
    genesis, deposit, List.range_succ]

lemma chainOf_change (id : Runes.RuneId) : chainOf [genesis, deposit] ⟨"aa", 1⟩ id = 0 := by
  simp [chainOf, valueAt, made, paymentsOf, MinedTransaction.payment, MinedTransaction.outputs,
    genesis, deposit, List.range_succ]

lemma inputRunes_payout (id : Runes.RuneId) :
    payout.unsignedTx.inputRunes (chainOf [genesis, deposit]) id =
      if id = runeId then 8 else 0 := by
  rw [← chainOf_deposit]
  show chainOf _ ⟨"aa", 0⟩ id + (chainOf _ ⟨"aa", 1⟩ id + 0) = _
  rw [chainOf_change, Nat.add_zero]

lemma minedInOrder_genesis : MinedInOrder [genesis] where
  txids := by decide
  spent_once := by decide
  spent_made := by decide
  amount_lt m hm k id := by
    obtain rfl := List.mem_singleton.1 hm
    simp only [genesis]
    split <;> norm_num

lemma settled_deposit : RunesSettled UnaryCodec.codec [genesis] deposit := by
  refine ⟨⟨fun _ => 0, none⟩, fun k id => ?_⟩
  have hinput : deposit.tx.inputRunes (chainOf [genesis]) id = if id = runeId then 8 else 0 := by
    simp [Transaction.inputRunes, deposit, chainOf_genesis]
  have hdecipher : UnaryCodec.codec.decipher deposit.tx.scripts = none := by decide
  have houts : deposit.tx.scripts.map UnaryCodec.codec.isOpReturn = [false, false] := by decide
  have hdefault : Runes.defaultOutput [false, false] none = some 0 := by decide
  rw [Transaction.settle, hdecipher, houts]
  simp only [Runes.settle, Runes.finish, Runes.withDefault, Runes.Allocation.start, hdefault,
    hinput]
  rcases k with _ | _ | k <;> simp [deposit]

lemma minable_deposit : Minable UnaryCodec.codec [genesis] deposit where
  fresh := by decide
  inputs := by decide
  unspent := by decide
  settled := settled_deposit
  amount_lt k id := by
    simp only [deposit]
    split <;> norm_num

lemma minable_paid : Minable UnaryCodec.codec [genesis, deposit] paid where
  fresh := by decide
  inputs := by decide
  unspent := by decide
  settled := ⟨⟨fun _ => 0, none⟩, fun _ _ => rfl⟩
  amount_lt k id := by
    show settlement k id < _
    rw [settlement, Transaction.settle, (computed).runestone,
      Runes.outputs_settle_of_single rfl (by decide) (by decide)]
    have hheld : Runes.Runestone.held ⟨[⟨runeId, 3, 2⟩], none, none, some 1⟩ ⟨fun _ => 0, none⟩
        (payout.unsignedTx.inputRunes (chainOf [genesis, deposit])) id ≤ 8 := by
      rw [Runes.Runestone.held, inputRunes_payout]
      simp only [Runes.minted, Runes.premined]
      split <;> simp
    have hpaid := Runes.Edict.paid_le ⟨runeId, 3, 2⟩ (Runes.Runestone.held
      ⟨[⟨runeId, 3, 2⟩], none, none, some 1⟩ ⟨fun _ => 0, none⟩
        (payout.unsignedTx.inputRunes (chainOf [genesis, deposit]))) id
    split_ifs <;> omega

/-! ### Its answers -/

lemma number_B : runeFromStr "B" = .ok rune := runeFromStr_name rune

lemma resolves : views.ordClient.Resolves bridge.idOf where
  block_pos := lawful.block_pos
  getRune name r response hname h := by
    have hsome := Except.ok.inj h
    by_cases hB : name = "B"
    · rw [if_pos hB] at hsome
      rw [hB, number_B] at hname
      rw [← Option.some.inj hsome, ← Except.ok.inj hname]
      rfl
    · rw [if_neg hB] at hsome
      exact absurd hsome (by simp)

lemma reports : views.ordClient.Reports bridge.idOf (chainOf [genesis, deposit]) ⟨"aa", 0⟩ := by
  refine ⟨_, rfl, rfl, rfl, [(rune, 8)], ?_, by simp, ?_, fun id hid => ?_⟩
  · exact .cons ⟨number_B, rfl⟩ .nil
  · intro b hb
    obtain rfl : b = (rune, 8) := by simpa using hb
    exact chainOf_deposit runeId
  · rw [chainOf_deposit] at hid
    exact ⟨(rune, 8), by simp, (of_not_not fun hne => hid (if_neg hne)).symm⟩

lemma answer_mint : ∃ answer, (federation.service 0).answerSignRuneToEvmTransferQuestion views
    mintQuestion = .ok answer ∧ answer.messageHash = messageHash := by
  have hhash := (computed).mint
  cases h : (federation.service 0).answerSignRuneToEvmTransferQuestion views mintQuestion with
  | error e =>
      rw [h] at hhash
      exact absurd hhash (by simp [Except.map])
  | ok answer =>
      rw [h] at hhash
      exact ⟨answer, rfl, Except.ok.inj hhash⟩

lemma answer_payout : ∃ answer,
    (federation.service 0).answerSignRuneTokenToBtcTransferQuestion views scanned payoutQuestion =
      .ok answer :=
  exists_ok_of_isOk (computed).sign

lemma run_scan :
    NodeTransaction.scanRuneTokenDeposits.run (federation.service 0) views (.empty : Db Bytes) =
      .ok scanned := by
  obtain ⟨⟨n, db⟩, h⟩ : ∃ r, (federation.service 0).scanRuneTokenDeposits views .empty = .ok r :=
    exists_ok_of_isOk (computed).scan
  show ((federation.service 0).scanRuneTokenDeposits views .empty >>= fun r => pure r.2) = _
  unfold scanned
  rw [h]
  rfl

/-! ### The run -/

/-- The bridge after this many calls, with what was signed and mined. -/
def state (n : ℕ) (db : Db Bytes) (signed : List (PayoutSignature (Fin 1)))
    (attested : List (Fin 1 × Bytes)) (mined : List MinedTransaction) :
    BridgeState (Fin 1) Balances RoleLists Bytes :=
  ⟨world n, ⟨fun _ => db, signed⟩, attested, mined⟩

def actions : List (BridgeAction (Fin 1) Bytes (Address × Bytes)) :=
  [.call ⟨3, 0⟩ (.registerRune 10 ⟨Packed.ascii "B", Packed.ascii "B", 1, 0⟩),
    .mine deposit,
    .signMint 0 views mintQuestion,
    .call ⟨federator, 0⟩ (.acceptTransferFromBtc accepted [signature]),
    .call ⟨user, 0⟩ (.tokenCall 10 (.approve 1 (4 * 10 ^ 18))),
    .call ⟨user, 300000000000000⟩
      (.transferToBtc 10 (4 * 10 ^ 18) (Packed.ascii "user")),
    .node (.work 0 views .scanRuneTokenDeposits),
    .node (.ask 0 views payoutQuestion),
    .mine paid]

lemma unforged (db : Db Bytes) : bridge.Unforged
    (state 1 db [] [(0, messageHash)] [genesis, deposit]) accepted [signature] where
  given σ hσ node _ a ha hsigned := by
    show ((node, getAcceptTransferFromBtcMessageHash symbolicCrypto (world 1).self accepted) :
      Fin 1 × Bytes) ∈ [((0 : Fin 1), messageHash)]
    rw [(computed).self, Fin.eq_zero node]
    exact List.mem_singleton_self _
  honest ac hac federators signers _ hfederators _ hcard hsub := by
    have hroles := (computed).federators
    rw [show (world 1).accessControls (world 1).bridge.accessControl = some ac from hac] at hroles
    have hmembers : ac.roles.members ROLE_FEDERATOR = [federator] := Option.some.inj hroles
    cases signers with
    | nil => exact absurd hcard (by simp)
    | cons a signers =>
        refine ⟨a, List.mem_cons_self, 0, by simp [bridge, federation], ?_⟩
        have ha := (hfederators a).1 (hsub a List.mem_cons_self)
        have hmem : a ∈ ac.roles.members ROLE_FEDERATOR := of_decide_eq_true ha
        rw [hmembers, List.mem_singleton] at hmem
        rw [hmem]
        decide

lemma owner_of_made {coin : Coin Outpoint Script Runes.RuneId}
    (h : coin ∈ made (paymentsOf [genesis, deposit])) :
    (coin.id, coin.owner) ∈ [(⟨"genesis", 0⟩, [0]), (⟨"aa", 0⟩, 0 :: Packed.ascii "ux"),
      ((⟨"aa", 1⟩ : Outpoint), ExampleWallet.ms.changeScriptPubkey)] := by
  have hmap : (made (paymentsOf [genesis, deposit])).map (fun coin => (coin.id, coin.owner)) =
      [(⟨"genesis", 0⟩, [0]), (⟨"aa", 0⟩, 0 :: Packed.ascii "ux"),
        ((⟨"aa", 1⟩ : Outpoint), ExampleWallet.ms.changeScriptPubkey)] := by decide
  rw [← hmap]
  exact List.mem_map_of_mem h

lemma start : bridge.Start (state 0 .empty [] [] [genesis]) where
  world := initialized
  nodes := ⟨fun _ => rfl, rfl⟩
  attested := rfl
  mined := minedInOrder_genesis
  unfunded coin hcoin := by
    obtain rfl := List.mem_singleton.1 hcoin
    decide

/-- A step that signs mints of deposits and covered payouts only. -/
abbrev SoundStep (s : BridgeState (Fin 1) Balances RoleLists Bytes)
    (a : BridgeAction (Fin 1) Bytes (Address × Bytes))
    (s' : BridgeState (Fin 1) Balances RoleLists Bytes) : Prop :=
  (bridge.MintsDeposits s a ∧ bridge.PaysCovered s a) ∧ bridge.Step s a s'

lemma step_call {n : ℕ} {m : Msg} {call : Call (Address × Bytes)} {db : Db Bytes}
    {attested : List (Fin 1 × Bytes)} {mined : List MinedTransaction}
    (hcall : calls[n]? = some (m, call)) (hn : n + 1 ≤ 4)
    (hunforged : ∀ t signatures, call = .acceptTransferFromBtc t signatures →
      bridge.Unforged (state n db [] attested mined) t signatures) :
    SoundStep (state n db [] attested mined) (.call m call) (state (n + 1) db [] attested mined) :=
  ⟨⟨trivial, trivial⟩, .call hunforged (world_step hcall hn)⟩

lemma step_deposit : SoundStep (state 1 .empty [] [] [genesis]) (.mine deposit)
    (state 1 .empty [] [] [genesis, deposit]) := by
  refine ⟨⟨trivial, trivial⟩, .mine minable_deposit fun hspends => ?_⟩
  obtain ⟨coin, hcoin, -, hcustody⟩ := hspends
  rw [start.unfunded coin hcoin] at hcustody
  exact absurd hcustody (by simp)

lemma step_mint : SoundStep (state 1 .empty [] [] [genesis, deposit])
    (.signMint 0 views mintQuestion)
    (state 1 .empty [] [(0, messageHash)] [genesis, deposit]) := by
  obtain ⟨answer, hanswer, hhash⟩ := answer_mint
  rw [← hhash]
  refine ⟨⟨fun coin hcoin hid => ?_, trivial⟩,
    .signMint (by decide) (fun _ _ => reports) (.refl _) hanswer⟩
  have howner := owner_of_made hcoin
  rw [hid] at howner
  have hscript : coin.owner = 0 :: Packed.ascii "ux" := by
    simpa [mintQuestion, RuneToEvmTransfer.outpoint] using howner
  rw [hscript]
  decide

lemma covered : bridge.Covered (state 4 scanned [] [(0, messageHash)] [genesis, deposit])
    (.ask 0 views payoutQuestion) := by
  intro psbt hpsbt
  obtain rfl : payout = psbt := Except.ok.inj hpsbt
  refine ⟨by decide, fun i => ⟨?_, ?_⟩⟩
  · intro t ht id hid
    obtain rfl := List.mem_singleton.1 ht
    have hrune : payoutQuestion.transfer.runeId bridge.idOf = some runeId := by
      rw [RuneTokenToBtcTransfer.runeId, show payoutQuestion.transfer.runeName = "B" from rfl,
        number_B]
      rfl
    obtain rfl : runeId = id := Option.some.inj (hrune.symm.trans hid)
    refine ⟨le_trans ?_ (AcceptedPayout.inputRunes_le_heldRunes _ _ i _ _),
      fun h => absurd h (by decide)⟩
    rw [show chainOf (state 4 scanned [] [(0, messageHash)] [genesis, deposit]).mined =
      chainOf [genesis, deposit] from rfl, inputRunes_payout, if_pos rfl]
    decide
  · intro o ho hchange
    obtain rfl : 1 = o := Option.some.inj ((computed).pointer.symm.trans ho)
    exact absurd (by decide) hchange

lemma step_scan : SoundStep (state 4 .empty [] [(0, messageHash)] [genesis, deposit])
    (.node (.work 0 views .scanRuneTokenDeposits))
    (state 4 scanned [] [(0, messageHash)] [genesis, deposit]) := by
  have hdb : Function.update (fun _ : Fin 1 => (.empty : Db Bytes)) 0 scanned =
      fun _ => scanned := by
    funext node
    rw [Fin.eq_zero node, Function.update_self]
  refine ⟨⟨trivial, trivial, fun h => h⟩, ?_⟩
  unfold state
  rw [← hdb]
  refine .node (fun head _ first last events _ hlogs shown hshown => ?_)
    (.work (by decide) run_scan)
  obtain rfl : event = shown := by
    rw [← Except.ok.inj hlogs] at hshown
    split at hshown
    · exact (List.mem_singleton.1 hshown).symm
    · cases hshown
  exact ⟨0, rfl, ⟨10, 1, 3⟩, by rw [(computed).releases]; rfl, rfl, rfl⟩

lemma step_payout : SoundStep (state 4 scanned [] [(0, messageHash)] [genesis, deposit])
    (.node (.ask 0 views payoutQuestion))
    (state 4 scanned [Federation.signature 0 payoutQuestion payout] [(0, messageHash)]
      [genesis, deposit]) := by
  obtain ⟨answer, hanswer⟩ := answer_payout
  refine ⟨⟨trivial, covered, ?_⟩, .node resolves (.signed (by decide) rfl hanswer)⟩
  rintro ⟨psbt, -, transfer, -, -, signature, hsigned, -⟩
  cases hsigned

lemma step_paid : SoundStep
    (state 4 scanned [Federation.signature 0 payoutQuestion payout] [(0, messageHash)]
      [genesis, deposit]) (.mine paid)
    (state 4 scanned [Federation.signature 0 payoutQuestion payout] [(0, messageHash)]
      [genesis, deposit, paid]) := by
  refine ⟨⟨trivial, trivial⟩, .mine minable_paid fun _ => ⟨{0}, le_rfl, fun node hnode => ?_⟩⟩
  obtain rfl := Finset.mem_singleton.1 hnode
  exact ⟨_, List.mem_singleton_self _, rfl, rfl⟩

/-- Five units in custody, and none left to be paid. -/
def ended : BridgeState (Fin 1) Balances RoleLists Bytes :=
  state 4 scanned [Federation.signature 0 payoutQuestion payout] [(0, messageHash)]
    [genesis, deposit, paid]

lemma run : bridge.RunWith (fun s a => bridge.MintsDeposits s a ∧ bridge.PaysCovered s a) actions
    ended := by
  have hregister : SoundStep (state 0 .empty [] [] [genesis]) _ (state 1 .empty [] [] [genesis]) :=
    step_call rfl (by simp) fun t signatures h => by cases h
  have haccept : SoundStep (state 1 .empty [] [(0, messageHash)] [genesis, deposit])
      (.call ⟨federator, 0⟩ (.acceptTransferFromBtc accepted [signature]))
      (state 2 .empty [] [(0, messageHash)] [genesis, deposit]) := by
    refine step_call rfl (by simp) fun t signatures h => ?_
    obtain ⟨rfl, rfl⟩ := Call.acceptTransferFromBtc.inj h
    exact unforged .empty
  have happrove : SoundStep (state 2 .empty [] [(0, messageHash)] [genesis, deposit]) _
      (state 3 .empty [] [(0, messageHash)] [genesis, deposit]) :=
    step_call rfl (by simp) fun t signatures h => by cases h
  have hrelease : SoundStep (state 3 .empty [] [(0, messageHash)] [genesis, deposit]) _
      (state 4 .empty [] [(0, messageHash)] [genesis, deposit]) :=
    step_call rfl (by simp) fun t signatures h => by cases h
  have hminted := (((Run.init start).step hregister).step step_deposit).step step_mint
  have hreleased := ((hminted.step haccept).step happrove).step hrelease
  exact ((hreleased.step step_scan).step step_payout).step step_paid

lemma exists_token : ∃ token, ended.world.tokens 10 = some token ∧ rune.n = token.rune.toNat := by
  obtain ⟨token, htoken, h⟩ := Option.map_eq_some_iff.1 (computed).rune
  exact ⟨token, htoken, by rw [h]; rfl⟩

lemma idOf_rune : bridge.idOf rune = runeId := rfl

end ExampleBridge

open ExampleBridge in
theorem minted_runes_were_deposited_example : ∃ token, ended.world.tokens 10 = some token ∧
    acceptedRuneAmount token.rune (BridgeAction.callsOf actions) ≤
        total bridge.isDeposit (made (paymentsOf ended.mined)) runeId ∧
      token.totalSupply ≤ token.runeAmountDivisor.toNat *
        total bridge.isDeposit (made (paymentsOf ended.mined)) runeId := by
  obtain ⟨token, htoken, hr⟩ := exists_token
  have hdeposited := minted_runes_were_deposited lawful
    ((run).mono fun s a s' h => ⟨h.1.1, h.2⟩) htoken hr
  rw [idOf_rune] at hdeposited
  exact ⟨token, htoken, hdeposited⟩

open ExampleBridge in
theorem multisig_pays_releases_only_example :
    total bridge.isDeposit (made (paymentsOf ended.mined)) runeId +
        bridge.unpaidRuneAmount ended 10 ≤
      bridge.runesInCustody ended runeId + releasedRuneAmount 10 ended.world.logs := by
  obtain ⟨token, htoken, hr⟩ := exists_token
  have hcovered := multisig_pays_releases_only lawful
    ((run).mono fun s a s' h => ⟨h.1.2, h.2⟩) htoken hr
  rw [idOf_rune] at hcovered
  exact hcovered

open ExampleBridge in
theorem bridge_stays_backed_example : ∃ token, ended.world.tokens 10 = some token ∧
    token.totalSupply + token.runeAmountDivisor.toNat * bridge.unpaidRuneAmount ended 10 ≤
      token.runeAmountDivisor.toNat * bridge.runesInCustody ended runeId := by
  obtain ⟨token, htoken, hr⟩ := exists_token
  have hbacked := bridge_stays_backed lawful run htoken hr
  rw [idOf_rune] at hbacked
  exact ⟨token, htoken, hbacked⟩

end NbteBridge
