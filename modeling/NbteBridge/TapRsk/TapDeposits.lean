import NbteBridge.Contracts.TapQuotes
import NbteBridge.TapRsk.Leader

/-!
# TapDepositService

How a node learns of deposits of Taproot Assets.  A user asks for an address to deposit to, and is
quoted an amount of assets to send and of tokens to get.  The scan asks tapd, address after address,
for what it has received there, and adds a row for each outpoint that has none.

A successful scan leaves a row for every outpoint tapd has told of, and adds none for anything
else, in the order of the addresses and with no outpoint twice (`scanNewDeposits_ok`).
-/

namespace NbteBridge

open Checked Effects Tables

/-! ## Rows and events -/

/-- `TapDepositAddress`, with what the user was quoted. -/
structure TapDepositAddressRow where
  address : TapDepositAddress
  tapAssetId : Bytes32
  rskTokenAddress : Address
  tapAmount : ℤ
  rskAmount : ℤ
  deriving DecidableEq

/-- An event of `list_receives`, whose outpoint and status are those its texts say. -/
structure TapReceive where
  /-- `addr.encoded` -/
  encoded : Bytes
  outpoint : Bytes32 × Uint256
  completed : Bool
  deriving DecidableEq

/-- `TapRestClient`, as the service uses it. -/
structure TapClient where
  /-- The address of `create_address`, for an asset and an amount. -/
  createAddress : Bytes32 → ℤ → PyResult Bytes
  /-- `list_receives` of an address, of the events that are completed. -/
  listReceives : Bytes → PyResult (List TapReceive)

namespace TapDepositService

/-! ## Deposit addresses -/

/-- `_get_bridgeable_asset`, from the contract's registries. -/
def getBridgeableAsset (b : TapBridge) :
    Option Address → Option Bytes32 → PyResult BridgeableAsset
  | some _, some _ =>
      throw (.valueError "Only one of rsk_token_address or tap_asset_id must be specified")
  | none, none => throw (.other "TypeError")
  | some rskToken, none => do
      let asset := b.assetsByRskTokenAddress rskToken
      require (asset.rskToken ≠ 0) (.valueError "Asset not found")
      pure asset
  | none, some tapAssetId => do
      let asset := b.assetsByTaprootAssetId tapAssetId
      require (asset.rskToken ≠ 0) (.valueError "Asset not found")
      pure asset

/-- What is to be sent, and what is to be got for it. -/
def quote (divisor : ℕ) (tapAmount rskAmount : Option ℤ) : PyResult (ℤ × ℤ) :=
  match rskAmount, tapAmount with
  | some rskAmount, _ => do
      require (divisor ≠ 0) (.other "ZeroDivisionError")
      require (rskAmount % divisor = 0)
        (.valueError s!"rsk_amount must be divisible by {divisor}")
      pure (rskAmount / divisor, rskAmount)
  | none, some tapAmount => pure (tapAmount, tapAmount * divisor)
  | none, none => throw (.other "TypeError")

/-- `generate_deposit_address`: the row it returns, and all rows. -/
def generateDepositAddress (client : TapClient) (b : TapBridge) (userRskAddress : Address)
    (tapAmount : Option ℤ) (tapAssetId : Option Bytes32) (rskAmount : Option ℤ)
    (rskTokenAddress : Option Address) (addresses : List TapDepositAddressRow) :
    PyResult (TapDepositAddressRow × List TapDepositAddressRow) := do
  require (¬ (tapAmount = none ∧ rskAmount = none))
    (.valueError "Either tap_amount or rsk_amount must be specified")
  require (¬ (tapAmount ≠ none ∧ rskAmount ≠ none))
    (.valueError "Only one of tap_amount or rsk_amount must be specified")
  require (¬ (tapAssetId = none ∧ rskTokenAddress = none))
    (.valueError "Either tap_asset_id or rsk_token_address must be specified")
  require (¬ (tapAssetId ≠ none ∧ rskTokenAddress ≠ none))
    (.valueError "Only one of tap_asset_id or rsk_token_address must be specified")
  let asset ← getBridgeableAsset b rskTokenAddress tapAssetId
  let (tapAmount, rskAmount) ← quote asset.tapAmountDivisor.toNat tapAmount rskAmount
  let tapAddress ← client.createAddress asset.tapAssetId tapAmount
  -- the column is unique
  require (∀ row ∈ addresses, row.address.tapAddress ≠ tapAddress) (.other "IntegrityError")
  let row : TapDepositAddressRow := {
    address := ⟨userRskAddress, tapAddress⟩
    tapAssetId := asset.tapAssetId
    rskTokenAddress := asset.rskToken
    tapAmount := tapAmount
    rskAmount := rskAmount }
  pure (row, addresses ++ [row])

/-! ### Quotes -/

/-- An address tapd makes is of the asset and the amount it is asked for, as the contract reads
it. -/
def Encodes (client : TapClient) (u : TapUtils) : Prop :=
  ∀ assetId amount tapAddress, client.createAddress assetId amount = .ok tapAddress →
    ∃ decoded, u.decodeTapAddress tapAddress = .ok decoded ∧ decoded.assetId = assetId ∧
      (decoded.amount.toNat : ℤ) = amount

lemma getBridgeableAsset_ok {b : TapBridge} (hb : b.AssetsAgree) {rskToken : Option Address}
    {tapAssetId : Option Bytes32} {asset : BridgeableAsset}
    (h : getBridgeableAsset b rskToken tapAssetId = .ok asset) : asset ∈ b.assets := by
  cases rskToken with
  | some token =>
      cases tapAssetId with
      | some id => cases h
      | none =>
          simp only [getBridgeableAsset, bind_eq_ok, exists_unit, require_eq_ok, pure_eq_ok] at h
          obtain ⟨hset, rfl⟩ := h
          by_contra hnot
          refine hset ?_
          rw [hb.tokenUnset token fun listed hlisted heq => ?_]
          · rfl
          · rw [← heq, hb.byToken listed hlisted] at hnot
            exact hnot hlisted
  | none =>
      cases tapAssetId with
      | none => cases h
      | some id =>
          simp only [getBridgeableAsset, bind_eq_ok, exists_unit, require_eq_ok, pure_eq_ok] at h
          obtain ⟨hset, rfl⟩ := h
          by_contra hnot
          refine hset ?_
          rw [hb.idUnset id fun listed hlisted heq => ?_]
          · rfl
          · rw [← heq, hb.byId listed hlisted] at hnot
            exact hnot hlisted

/-- What is to be got is what is sent, times the divisor. -/
lemma quote_ok {divisor : ℕ} {tapAmount rskAmount : Option ℤ} {t r : ℤ}
    (h : quote divisor tapAmount rskAmount = .ok (t, r)) : r = t * divisor := by
  cases rskAmount with
  | some rskAmount =>
      simp only [quote, bind_eq_ok, exists_unit, require_eq_ok, pure_eq_ok, Prod.mk.injEq] at h
      obtain ⟨-, hdivides, rfl, rfl⟩ := h
      exact (Int.ediv_mul_cancel (Int.dvd_of_emod_eq_zero hdivides)).symm
  | none =>
      cases tapAmount with
      | some tapAmount =>
          obtain ⟨rfl, rfl⟩ := Prod.mk.inj (pure_eq_ok.1 h)
          rfl
      | none => cases h

/-- **A new deposit address** is quoted what the contract makes of it. -/
lemma generateDepositAddress_ok {client : TapClient} {b : TapBridge} (hb : b.AssetsAgree)
    (hencodes : Encodes client b.tapUtils) {userRskAddress : Address}
    {tapAmount rskAmount : Option ℤ} {tapAssetId : Option Bytes32}
    {rskTokenAddress : Option Address} {addresses addresses' : List TapDepositAddressRow}
    {row : TapDepositAddressRow}
    (h : generateDepositAddress client b userRskAddress tapAmount tapAssetId rskAmount
      rskTokenAddress addresses = .ok (row, addresses')) :
    addresses' = addresses ++ [row] ∧
      (∀ other ∈ addresses, other.address.tapAddress ≠ row.address.tapAddress) ∧
      row.address.rskAddress = userRskAddress ∧
      TapQuote b row.address.tapAddress row.rskTokenAddress row.rskAmount := by
  simp only [generateDepositAddress, bind_eq_ok, exists_unit, require_eq_ok, pure_eq_ok,
    Prod.exists, Prod.mk.injEq] at h
  obtain ⟨-, -, -, -, asset, hasset, t, r, hquote, tapAddress, hcreate, hunique, rfl, rfl⟩ := h
  obtain ⟨decoded, hdecoded, hid, hamount⟩ := hencodes _ _ _ hcreate
  have hlisted := getBridgeableAsset_ok hb hasset
  refine ⟨rfl, hunique, rfl, asset, hlisted, decoded, hdecoded, hid, rfl, ?_⟩
  show r = _
  rw [quote_ok hquote, hamount]

/-! ## The scan -/

variable {Hash Sig : Type}

/-- The outpoints seen, and the database. -/
abbrev ScanState (Hash Sig : Type) : Type := List (Bytes32 × Uint256) × TapDb Hash Sig

/-- One event; a row that is added gets the number `newId` has for it. -/
def scanReceive (newId : TapDb Hash Sig → ℕ) (depositAddress : TapDepositAddress)
    (event : TapReceive) (s : ScanState Hash Sig) : PyResult (ScanState Hash Sig) :=
  let (previousOutpoints, db) := s
  if event.outpoint ∈ previousOutpoints then pure s
  else do
    require (event.encoded = depositAddress.tapAddress) (.valueError "Address mismatch")
    require (event.completed = true) (.valueError "Outpoint not yet completed")
    require (db.transfers.get? (newId db) = none) (.other "IntegrityError")
    require (∀ p ∈ db.transfers.rows, p.2.outpoint ≠ event.outpoint) (.other "IntegrityError")
    pure (previousOutpoints ++ [event.outpoint], db.setTransfer (newId db)
      ⟨none, depositAddress, event.outpoint.1, event.outpoint.2, none⟩)

def scanReceives (newId : TapDb Hash Sig → ℕ) (depositAddress : TapDepositAddress) :
    List TapReceive → ScanState Hash Sig → PyResult (ScanState Hash Sig)
  | [], s => pure s
  | event :: events, s => do
      let s ← scanReceive newId depositAddress event s
      scanReceives newId depositAddress events s

/-- The loop over the addresses. -/
def scanAddresses (client : TapClient) (newId : TapDb Hash Sig → ℕ) :
    List TapDepositAddressRow → ScanState Hash Sig → PyResult (ScanState Hash Sig)
  | [], s => pure s
  | row :: rows, s => do
      let events ← client.listReceives row.address.tapAddress
      let s ← scanReceives newId row.address events s
      scanAddresses client newId rows s

/-- `scan_new_deposits`. -/
def scanNewDeposits (client : TapClient) (newId : TapDb Hash Sig → ℕ)
    (depositAddresses : List TapDepositAddressRow) (db : TapDb Hash Sig) :
    PyResult (TapDb Hash Sig) := do
  let previousOutpoints := db.transfers.rows.map fun p => p.2.outpoint
  let (_, db) ← scanAddresses client newId depositAddresses (previousOutpoints, db)
  pure db

/-! ## What a scan does -/

variable {client : TapClient} {newId : TapDb Hash Sig → ℕ} {s s' s'' : ScanState Hash Sig}
  {C : Crypto Hash Sig} {rskAccount : Address}

/-- The scan has gone on: it has added rows of deposits that satisfy `P`. -/
structure Progress (P : TapToRskTransfer → Prop) (s s' : ScanState Hash Sig) : Prop where
  rows : ∃ new, s'.2.transfers.rows = s.2.transfers.rows ++ new ∧ ∀ p ∈ new, P p.2
  seen : s.1 = s.2.transfers.rows.map (fun p => p.2.outpoint) →
    s'.1 = s'.2.transfers.rows.map fun p => p.2.outpoint
  kept : ∀ o ∈ s.1, o ∈ s'.1
  moves : ∀ (C : Crypto Hash Sig) (rskAccount : Address) (chain : TapWorld)
    (sent : List (SentTx Sig)),
    (TapLeader.world C rskAccount).Waits ⟨s.2, chain, sent⟩ ⟨s'.2, chain, sent⟩

variable {P Q : TapToRskTransfer → Prop}

lemma Progress.refl (P : TapToRskTransfer → Prop) (s : ScanState Hash Sig) : Progress P s s :=
  ⟨⟨[], (List.append_nil _).symm, by simp⟩, id, fun _ ho => ho, fun _ _ _ _ => .refl⟩

lemma Progress.trans (h : Progress P s s') (h' : Progress P s' s'') : Progress P s s'' where
  rows := by
    obtain ⟨new, hrows, hnew⟩ := h.rows
    obtain ⟨new', hrows', hnew'⟩ := h'.rows
    refine ⟨new ++ new', by rw [hrows', hrows, List.append_assoc], fun p hp => ?_⟩
    exact (List.mem_append.1 hp).elim (hnew p) (hnew' p)
  seen hs := h'.seen (h.seen hs)
  kept o ho := h'.kept o (h.kept o ho)
  moves C rskAccount chain sent :=
    (h.moves C rskAccount chain sent).trans (h'.moves C rskAccount chain sent)

lemma Progress.mono (h : Progress P s s') (hP : ∀ t, P t → Q t) : Progress Q s s' := by
  obtain ⟨⟨new, hrows, hnew⟩, hseen, hkept, hmoves⟩ := h
  exact ⟨⟨new, hrows, fun p hp => hP _ (hnew p hp)⟩, hseen, hkept, hmoves⟩

/-- A row of an event at an address. -/
structure RowOf (address : TapDepositAddress) (events : List TapReceive) (t : TapToRskTransfer) :
    Prop where
  depositAddress : t.depositAddress = address
  unbatched : t.transferBatchId = none
  event : ∃ event ∈ events, event.encoded = address.tapAddress ∧ event.completed = true ∧
    event.outpoint = t.outpoint

lemma scanReceive_ok {address : TapDepositAddress} {event : TapReceive}
    (h : scanReceive newId address event s = .ok s') :
    Progress (RowOf address [event]) s s' ∧ event.outpoint ∈ s'.1 := by
  obtain ⟨previousOutpoints, db⟩ := s
  rw [scanReceive] at h
  split_ifs at h with hseen
  · obtain rfl := pure_eq_ok.1 h
    exact ⟨.refl _ _, hseen⟩
  · simp only [bind_eq_ok, exists_unit, require_eq_ok, pure_eq_ok] at h
    obtain ⟨hencoded, hcompleted, hnew, hunseen, rfl⟩ := h
    have hrows := Table.rows_set_of_get?_eq_none
      (⟨none, address, event.outpoint.1, event.outpoint.2, none⟩ : TapToRskTransfer) hnew
    refine ⟨⟨⟨_, hrows, ?_⟩, ?_, ?_, ?_⟩, List.mem_append_right _ (List.mem_singleton_self _)⟩
    · intro p hp
      rw [List.mem_singleton.1 hp]
      exact ⟨rfl, rfl, event, by simp, hencoded, hcompleted, rfl⟩
    · intro hs
      show previousOutpoints ++ _ = ((db.transfers.set _ _).rows.map _)
      rw [hrows, List.map_append]
      exact congrArg (· ++ [event.outpoint]) hs
    · exact fun o ho => List.mem_append_left _ ho
    · intro C rskAccount chain sent
      exact .single (.deposited hnew rfl hunseen)

lemma scanReceives_ok {address : TapDepositAddress} {events : List TapReceive}
    (h : scanReceives newId address events s = .ok s') :
    Progress (RowOf address events) s s' ∧ ∀ event ∈ events, event.outpoint ∈ s'.1 := by
  induction events generalizing s with
  | nil =>
      obtain rfl := pure_eq_ok.1 h
      exact ⟨.refl _ _, by simp⟩
  | cons event events ih =>
      simp only [scanReceives, bind_eq_ok] at h
      obtain ⟨s₁, hone, hrest⟩ := h
      obtain ⟨hprogress, hseen⟩ := scanReceive_ok hone
      obtain ⟨hprogress', hall⟩ := ih hrest
      have hsub {events' : List TapReceive} (hmem : ∀ e ∈ events', e ∈ event :: events)
          (t : TapToRskTransfer) (ht : RowOf address events' t) :
          RowOf address (event :: events) t := by
        obtain ⟨haddress, hunbatched, e, he, hevent⟩ := ht
        exact ⟨haddress, hunbatched, e, hmem e he, hevent⟩
      refine ⟨(hprogress.mono (hsub (by simp))).trans (hprogress'.mono (hsub ?_)), ?_⟩
      · exact fun e he => List.mem_cons_of_mem _ he
      · intro e he
        rcases List.mem_cons.1 he with rfl | he
        · exact hprogress'.kept _ hseen
        · exact hall e he

/-- A row of an event tapd has told of, at one of the addresses. -/
def Received (client : TapClient) (rows : List TapDepositAddressRow) (t : TapToRskTransfer) :
    Prop :=
  ∃ row ∈ rows, ∃ events, client.listReceives row.address.tapAddress = .ok events ∧
    RowOf row.address events t

lemma scanAddresses_ok {rows : List TapDepositAddressRow}
    (h : scanAddresses client newId rows s = .ok s') :
    Progress (Received client rows) s s' ∧ ∀ row ∈ rows, ∃ events,
      client.listReceives row.address.tapAddress = .ok events ∧
      ∀ event ∈ events, event.outpoint ∈ s'.1 := by
  induction rows generalizing s with
  | nil =>
      obtain rfl := pure_eq_ok.1 h
      exact ⟨.refl _ _, by simp⟩
  | cons row rows ih =>
      simp only [scanAddresses, bind_eq_ok] at h
      obtain ⟨events, hevents, s₁, hone, hrest⟩ := h
      obtain ⟨hprogress, hseen⟩ := scanReceives_ok hone
      obtain ⟨hprogress', hall⟩ := ih hrest
      refine ⟨(hprogress.mono fun t ht => ?_).trans (hprogress'.mono fun t ht => ?_), ?_⟩
      · exact ⟨row, by simp, events, hevents, ht⟩
      · obtain ⟨row', hrow', hreceived⟩ := ht
        exact ⟨row', List.mem_cons_of_mem _ hrow', hreceived⟩
      · intro row' hrow'
        rcases List.mem_cons.1 hrow' with rfl | hrow'
        · exact ⟨events, hevents, fun e he => hprogress'.kept _ (hseen e he)⟩
        · exact hall row' hrow'

/-- **A scan.**  Rows are added for events tapd has told of, and afterwards every such event has
one. -/
lemma scanNewDeposits_ok {rows : List TapDepositAddressRow} {db db' : TapDb Hash Sig}
    (h : scanNewDeposits client newId rows db = .ok db') :
    (∃ new, db'.transfers.rows = db.transfers.rows ++ new ∧
      ∀ p ∈ new, Received client rows p.2) ∧
    (∀ row ∈ rows, ∃ events, client.listReceives row.address.tapAddress = .ok events ∧
      ∀ event ∈ events, ∃ p ∈ db'.transfers.rows, p.2.outpoint = event.outpoint) ∧
    ∀ (C : Crypto Hash Sig) (rskAccount : Address) (chain : TapWorld) (sent : List (SentTx Sig)),
      (TapLeader.world C rskAccount).Waits ⟨db, chain, sent⟩ ⟨db', chain, sent⟩ := by
  simp only [scanNewDeposits, bind_eq_ok, pure_eq_ok, Prod.exists] at h
  obtain ⟨seen, db₁, hscan, rfl⟩ := h
  obtain ⟨hprogress, hall⟩ := scanAddresses_ok hscan
  refine ⟨hprogress.rows, fun row hrow => ?_, hprogress.moves⟩
  obtain ⟨events, hevents, hseen⟩ := hall row hrow
  refine ⟨events, hevents, fun event hevent => ?_⟩
  have hmem := hseen event hevent
  rw [hprogress.seen rfl] at hmem
  exact List.mem_map.1 hmem

end TapDepositService

end NbteBridge
