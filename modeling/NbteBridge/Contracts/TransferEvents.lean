import NbteBridge.Foundations.Lists
import NbteBridge.Contracts.Reference
import NbteBridge.Contracts.Registry

/-!
# Transfer events

Nodes learn of transfers from the bridge's events only.  In every reachable state these are, one to
one and in order, the successful transfer calls so far: each event carries its call's arguments with
the rune or the token registered for it, and the counters are 1, 2, 3 and so on up to
`numTransfersTotal`.
-/

namespace NbteBridge

open Checked

/-- The counter of a transfer's event. -/
def Log.transferCounter : Log → Option Uint256
  | .runeTransferToBtc counter _ _ _ _ _ _ _ _ => some counter
  | .runeTransferFromBtc counter _ _ _ _ _ _ => some counter
  | _ => none

def transferLogs (logs : List Log) : List Log := logs.filter fun log => log.transferCounter.isSome

def Call.isTransfer {Sig : Type} : Call Sig → Bool
  | .transferToBtc .. | .acceptTransferFromBtc .. => true
  | _ => false

def transferCalls {Sig : Type} (tr : List (Msg × Call Sig)) : List (Msg × Call Sig) :=
  tr.filter fun a => a.2.isTransfer

lemma transferCalls_concat {Sig : Type} (tr : List (Msg × Call Sig)) (a : Msg × Call Sig) :
    transferCalls (tr ++ [a]) = transferCalls tr ++ if a.2.isTransfer then [a] else [] := by
  by_cases h : a.2.isTransfer = true <;> simp [transferCalls, h]

/-- The event tells what was called, and the rune or the token that `b` has registered for it. -/
inductive RecordsTransfer {Sig : Type} (b : RuneBridge) : Msg × Call Sig → Log → Prop
  | toBtc {m : Msg} {token : Address} {tokenAmount counter rune netRuneAmount tokenFee : Uint256}
      {receiver : Bytes} (hrune : b.runesByToken token = rune) (hne : rune ≠ 0)
      (hpos : 0 < netRuneAmount.toNat) :
      RecordsTransfer b (m, .transferToBtc token tokenAmount receiver)
        (.runeTransferToBtc counter m.sender token rune tokenAmount netRuneAmount receiver m.value
          tokenFee)
  | fromBtc {m : Msg} {t : TransferFromBtc} {signatures : List Sig} {token : Address}
      {counter tokenAmount : Uint256} (htoken : b.tokensByRune t.rune = token) (hne : token ≠ 0) :
      RecordsTransfer b (m, .acceptTransferFromBtc t signatures)
        (.runeTransferFromBtc counter t.to_ token t.rune tokenAmount t.btcTxId t.btcTxVout)

/-- What is registered in `b` is registered in `b'`. -/
structure RuneBridge.RegistryKept (b b' : RuneBridge) : Prop where
  runesByToken : ∀ token, b.runesByToken token ≠ 0 → b'.runesByToken token = b.runesByToken token
  tokensByRune : ∀ rune, b.tokensByRune rune ≠ 0 → b'.tokensByRune rune = b.tokensByRune rune

lemma RecordsTransfer.mono {Sig : Type} {b b' : RuneBridge} {a : Msg × Call Sig} {log : Log}
    (h : RecordsTransfer b a log) (hkept : b.RegistryKept b') : RecordsTransfer b' a log := by
  cases h with
  | toBtc hrune hne hpos => exact .toBtc ((hkept.runesByToken _ (hrune ▸ hne)).trans hrune) hne hpos
  | fromBtc htoken hne => exact .fromBtc ((hkept.tokensByRune _ (htoken ▸ hne)).trans htoken) hne

lemma transferLogs_append (logs new : List Log) :
    transferLogs (logs ++ new) = transferLogs logs ++ transferLogs new := by
  simp [transferLogs]

variable {T R Hash Sig : Type}
  {C : Crypto Hash Sig} {w w' : World T R} {m : Msg}

/-- No transfer happened between `w` and `w'`. -/
structure TransfersKept (w w' : World T R) : Prop where
  logs : transferLogs w'.logs = transferLogs w.logs
  count : w'.bridge.numTransfersTotal = w.bridge.numTransfersTotal

lemma TransfersKept.emit {logs : List Log} (h : TransfersKept w w') (hl : transferLogs logs = []) :
    TransfersKept w (w'.emit logs) := by
  refine ⟨?_, h.count⟩
  rw [World.emit, transferLogs_append, hl, List.append_nil, h.logs]

/-- The transfer `a` leads from `w` to `w'`. -/
structure TransferAdded (w : World T R) (a : Msg × Call Sig) (w' : World T R) : Prop where
  logs : ∃ log, transferLogs w'.logs = transferLogs w.logs ++ [log] ∧
    RecordsTransfer w.bridge a log ∧ log.transferCounter = some w'.bridge.numTransfersTotal
  count : w'.bridge.numTransfersTotal.toNat = w.bridge.numTransfersTotal.toNat + 1

namespace World

/-! ## Function by function -/

lemma onToken_transfersKept {address : Address} {f : RuneToken T → Result (RuneToken T)}
    {logs : List Log} (hl : transferLogs logs = []) (h : w.onToken address f logs = .ok w') :
    TransfersKept w w' := by
  simp only [onToken, bind_eq_ok, pure_eq_ok] at h
  obtain ⟨token, -, token', -, rfl⟩ := h
  exact .emit ⟨rfl, rfl⟩ hl

variable [Erc20 T]

lemma transferToBtc_added {token : Address} {tokenAmount : Uint256} {receiver : Bytes}
    (h : w.transferToBtc m token tokenAmount receiver = .ok w') :
    TransferAdded w ((m, .transferToBtc token tokenAmount receiver) : Msg × Call Sig) w' := by
  simp only [transferToBtc, bind_eq_ok, exists_unit, require_eq_ok, pure_eq_ok, token_eq_ok,
    Prod.exists] at h
  obtain ⟨-, -, rune, hrune, token, htoken, -, -, -, -, -, policy, -, -, -, hvalue, netRune,
    netToken, fee, hamounts, moved, hmove, burned, hburn, counter, hcounter, rfl⟩ := h
  simp only [RuneBridge.getRuneByToken, bind_eq_ok, exists_unit, require_eq_ok, pure_eq_ok] at hrune
  obtain ⟨-, hne, rfl⟩ := hrune
  obtain ⟨hpos, -, -⟩ := transferAmounts_ok hamounts
  have hone : (1 : Uint256).toNat = 1 := by decide
  have hrecords : RecordsTransfer w.bridge
      ((m, .transferToBtc _ tokenAmount receiver) : Msg × Call Sig)
      (.runeTransferToBtc counter m.sender _ _ tokenAmount netRune receiver m.value fee) :=
    .toBtc rfl hne hpos
  refine ⟨⟨_, ?_, hrecords, rfl⟩, ?_⟩
  · simp only [World.emit, setToken, transferLogs_append, hvalue]
    rfl
  · exact (Uint256.add_eq_ok.1 hcounter).trans (by rw [hone])

lemma doRegisterRune_transfersKept {newToken : Address} {r : RuneRegistration}
    (h : w.doRegisterRune newToken r = .ok w') : TransfersKept w w' := by
  simp only [doRegisterRune, bind_eq_ok, exists_unit, pure_eq_ok] at h
  obtain ⟨-, -, -, rfl⟩ := h
  exact .emit ⟨rfl, rfl⟩ rfl

/-- What is registered stays. -/
lemma registryKept_of_effect [LawfulErc20 T] (hreg : w.WellRegistered) {a : Msg × Call Sig}
    (he : Effect C w a w') : w.bridge.RegistryKept w'.bridge := by
  have hsame (hrunes : w'.bridge.tokensByRune = w.bridge.tokensByRune)
      (htokens : w'.bridge.runesByToken = w.bridge.runesByToken) :
      w.bridge.RegistryKept w'.bridge :=
    ⟨fun token _ => by rw [htokens], fun rune _ => by rw [hrunes]⟩
  cases he with
  | quiet hq hk => exact hsame hk.tokensByRune hk.runesByToken
  | moved hq hk => exact hsame hk.tokensByRune hk.runesByToken
  | burned hc hk => exact hsame hk.tokensByRune hk.runesByToken
  | minted ht hm => exact absurd (hreg.deployed _ _ ht).minter hm
  | released hq hself hkept => exact hsame hkept.1 hkept.2.1
  | accepted ha hself hkept => exact hsame hkept.1 hkept.2.1
  | @registered newToken r hq hcall hself hnew hrune hfresh htokens hbyRune hbyToken =>
      refine ⟨fun token hne => ?_, fun rune hne => ?_⟩
      · obtain ⟨t, ht⟩ := hreg.byToken token hne
        have hother : token ≠ newToken := by
          rintro rfl
          rw [Option.isNone_iff_eq_none.1 hfresh.2.2.1] at ht
          exact absurd ht (by simp)
        rw [hbyToken, Function.update_of_ne hother]
      · have hother : rune ≠ r.rune := by
          rintro rfl
          exact hne (RuneBridge.free_of_not_registered hnew hrune.2)
        rw [hbyRune, Function.update_of_ne hother]

variable [AccessControlEnumerable R]

lemma acceptTransferFromBtc_added {t : TransferFromBtc} {signatures : List Sig}
    (h : w.acceptTransferFromBtc C m t signatures = .ok w') :
    TransferAdded w (m, .acceptTransferFromBtc t signatures) w' := by
  simp only [acceptTransferFromBtc, bind_eq_ok, exists_unit, require_eq_ok, pure_eq_ok,
    token_eq_ok] at h
  obtain ⟨-, -, -, ac, -, -, address, haddress, hfresh, token, htoken, amount, hamount, minted,
    hmint, counter, hcounter, rfl⟩ := h
  obtain ⟨-, haddr, hne⟩ := getTokenByRune_ok haddress
  have hone : (1 : Uint256).toNat = 1 := by decide
  have hrecords : RecordsTransfer w.bridge (m, .acceptTransferFromBtc t signatures)
      (.runeTransferFromBtc counter t.to_ address t.rune amount t.btcTxId t.btcTxVout) :=
    .fromBtc haddr hne
  refine ⟨⟨_, ?_, hrecords, rfl⟩, ?_⟩
  · simp only [World.emit, setToken, transferLogs_append]
    rfl
  · exact (Uint256.add_eq_ok.1 hcounter).trans (by rw [hone]; rfl)

/-- A call that is no transfer. -/
lemma step_transfersKept {a : Msg × Call Sig} (ha : a.2.isTransfer = false)
    (h : Step C w a w') : TransfersKept w w' := by
  obtain ⟨m, call⟩ := a
  simp only [Step, step, bind_eq_ok, exists_unit, require_eq_ok] at h
  obtain ⟨-, -, h⟩ := h
  cases call with
  | transferToBtc => exact absurd ha (by simp [Call.isTransfer])
  | acceptTransferFromBtc => exact absurd ha (by simp [Call.isTransfer])
  | requestRuneRegistration rune =>
      simp only [requestRuneRegistration, bind_eq_ok, exists_unit, pure_eq_ok] at h
      obtain ⟨-, -, -, -, -, -, rfl⟩ := h
      exact .emit ⟨rfl, rfl⟩ rfl
  | acceptRuneRegistrationRequest newToken r signatures =>
      simp only [acceptRuneRegistrationRequest, bind_eq_ok, exists_unit] at h
      obtain ⟨-, -, -, ac, -, -, h⟩ := h
      exact doRegisterRune_transfersKept h
  | withdrawBaseCurrency amount receiver =>
      simp only [withdrawBaseCurrency, bind_eq_ok, exists_unit, pure_eq_ok] at h
      obtain ⟨-, -, -, -, rfl⟩ := h
      exact .emit ⟨rfl, rfl⟩ rfl
  | withdrawTokens token amount receiver =>
      simp only [withdrawTokens, bind_eq_ok, exists_unit] at h
      obtain ⟨-, -, h⟩ := h
      split at h
      · simp only [bind_eq_ok, pure_eq_ok] at h
        obtain ⟨token', -, rfl⟩ := h
        exact .emit ⟨rfl, rfl⟩ rfl
      · simp only [bind_eq_ok, exists_unit, pure_eq_ok] at h
        obtain ⟨-, rfl⟩ := h
        exact .emit ⟨rfl, rfl⟩ rfl
  | registerRune newToken r =>
      simp only [registerRune, bind_eq_ok, exists_unit] at h
      exact doRegisterRune_transfersKept h.2
  | setEvmToBtcTransferPolicy token policy =>
      simp only [setEvmToBtcTransferPolicy, doSetEvmToBtcTransferPolicy, bind_eq_ok,
        exists_unit, pure_eq_ok] at h
      obtain ⟨-, -, -, -, -, rfl⟩ := h
      exact .emit ⟨rfl, rfl⟩ rfl
  | setRuneRegistrationRequestsEnabled enabled =>
      simp only [setRuneRegistrationRequestsEnabled, bind_eq_ok, exists_unit, pure_eq_ok] at h
      obtain ⟨-, rfl⟩ := h
      exact .emit ⟨rfl, rfl⟩ rfl
  | setRuneRegistrationFee fee =>
      simp only [setRuneRegistrationFee, bind_eq_ok, exists_unit, pure_eq_ok] at h
      obtain ⟨-, rfl⟩ := h
      exact .emit ⟨rfl, rfl⟩ rfl
  | setBtcAddressValidator validator =>
      simp only [setBtcAddressValidator, bind_eq_ok, exists_unit, pure_eq_ok] at h
      obtain ⟨-, -, rfl⟩ := h
      exact .emit ⟨rfl, rfl⟩ rfl
  | setAccessControl accessControl =>
      simp only [setAccessControl, bind_eq_ok, exists_unit, pure_eq_ok] at h
      obtain ⟨-, -, rfl⟩ := h
      exact .emit ⟨rfl, rfl⟩ rfl
  | setRunePaused rune paused =>
      simp only [setRunePaused, bind_eq_ok, exists_unit] at h
      obtain ⟨-, h⟩ := h
      split at h
      · obtain rfl := pure_eq_ok.1 h
        exact .emit ⟨rfl, rfl⟩ rfl
      · obtain rfl := pure_eq_ok.1 h
        exact ⟨rfl, rfl⟩
  | pause =>
      simp only [pause, bind_eq_ok, exists_unit, pure_eq_ok] at h
      obtain ⟨-, -, rfl⟩ := h
      exact .emit ⟨rfl, rfl⟩ rfl
  | freeze =>
      simp only [freeze, bind_eq_ok, exists_unit, pure_eq_ok] at h
      obtain ⟨-, -, rfl⟩ := h
      split
      · refine .emit ⟨?_, rfl⟩ rfl
        simp only [World.emit, transferLogs_append]
        exact List.append_nil _
      · exact .emit ⟨rfl, rfl⟩ rfl
  | unpause =>
      simp only [unpause, bind_eq_ok, exists_unit, pure_eq_ok] at h
      obtain ⟨-, -, -, rfl⟩ := h
      exact .emit ⟨rfl, rfl⟩ rfl
  | unfreeze =>
      simp only [unfreeze, bind_eq_ok, exists_unit, pure_eq_ok] at h
      obtain ⟨-, -, rfl⟩ := h
      exact .emit ⟨rfl, rfl⟩ rfl
  | tokenCall => exact onToken_transfersKept rfl h
  | tokenBurn => exact onToken_transfersKept rfl h
  | tokenMintTo => exact onToken_transfersKept rfl h
  | tokenChangeMinter => exact onToken_transfersKept rfl h
  | accessControlCall address c =>
      simp only [bind_eq_ok, pure_eq_ok] at h
      obtain ⟨-, -, -, -, rfl⟩ := h
      exact ⟨rfl, rfl⟩
  | deployAccessControl address =>
      simp only [bind_eq_ok, exists_unit, pure_eq_ok] at h
      obtain ⟨-, rfl⟩ := h
      exact ⟨rfl, rfl⟩
  | externalsChange externals =>
      obtain rfl := pure_eq_ok.1 h
      exact ⟨rfl, rfl⟩

lemma step_transferAdded {a : Msg × Call Sig} (ha : a.2.isTransfer = true)
    (h : Step C w a w') : TransferAdded w a w' := by
  obtain ⟨m, call⟩ := a
  simp only [Step, step, bind_eq_ok, exists_unit, require_eq_ok] at h
  obtain ⟨-, -, h⟩ := h
  cases call with
  | transferToBtc => exact transferToBtc_added h
  | acceptTransferFromBtc => exact acceptTransferFromBtc_added h
  | _ => exact absurd ha (by simp [Call.isTransfer])

/-! ## Every run -/

/-- The events are those of the calls `tr`, in order, numbered from one. -/
structure TransfersRecorded (w : World T R) (tr : List (Msg × Call Sig)) : Prop where
  events : List.Forall₂ (RecordsTransfer w.bridge) (transferCalls tr) (transferLogs w.logs)
  counters : (transferLogs w.logs).map (fun log => log.transferCounter.map BitVec.toNat) =
    (List.range' 1 w.bridge.numTransfersTotal.toNat).map some

omit [Erc20 T] [AccessControlEnumerable R] in
lemma transfersRecorded_of_initialized (h : w.Initialized) :
    w.TransfersRecorded ([] : List (Msg × Call Sig)) := by
  obtain ⟨w₀, hw₀, ac, validator, hinit⟩ := h
  simp only [initializeBridge, doSetEvmToBtcTransferPolicy, hw₀.bridge, bind_eq_ok, exists_unit,
    pure_eq_ok] at hinit
  obtain ⟨-, -, -, -, rfl⟩ := hinit
  have hnone : transferLogs (w₀.logs ++
      [.evmToBtcTransferPolicyChanged 0 EvmToBtcTransferPolicy.initial]) = [] := by
    rw [hw₀.logs]
    rfl
  refine ⟨?_, ?_⟩
  · simp only [World.emit, hnone]
    exact .nil
  · simp only [World.emit, hnone]
    rfl

lemma TransfersRecorded.step [LawfulErc20 T] {tr : List (Msg × Call Sig)} {a : Msg × Call Sig}
    (hreg : w.WellRegistered) (hrec : w.TransfersRecorded tr) (h : Step C w a w') :
    w'.TransfersRecorded (tr ++ [a]) := by
  have hmono : List.Forall₂ (RecordsTransfer w'.bridge) (transferCalls tr) (transferLogs w.logs) :=
    hrec.events.imp fun _ _ hr => hr.mono (registryKept_of_effect hreg (step_effect h))
  by_cases ha : a.2.isTransfer = true
  · obtain ⟨⟨log, hlogs, hrecords, hcounter⟩, hcount⟩ := step_transferAdded ha h
    have hrecords := hrecords.mono (registryKept_of_effect hreg (step_effect h))
    refine ⟨?_, ?_⟩
    · rw [transferCalls_concat, if_pos ha, hlogs]
      exact List.rel_append hmono (.cons hrecords .nil)
    · rw [hlogs, List.map_append, hrec.counters, hcount, List.range'_concat, List.map_append]
      simp only [List.map_cons, List.map_nil, hcounter, Option.map_some, hcount]
      rw [Nat.one_mul, Nat.add_comm]
  · have hkept := step_transfersKept (by simpa using ha) h
    refine ⟨?_, ?_⟩
    · rw [transferCalls_concat, if_neg ha, List.append_nil, hkept.logs]
      exact hmono
    · rw [hkept.logs, hkept.count, hrec.counters]

lemma transfersRecorded_of_run [LawfulErc20 T] {tr : List (Msg × Call Sig)}
    (h : ContractRun C tr w) : w.TransfersRecorded tr := by
  refine h.invariant (I := fun tr w => w.TransfersRecorded tr)
    (fun _ hw => transfersRecorded_of_initialized hw) ?_
  intro tr w a w' hrun hrec hs
  exact hrec.step (wellRegistered_of_run hrun) hs

end World

variable [Erc20 T] [AccessControlEnumerable R]

/-- **The transfer events are the transfer calls.**  In every reachable state the bridge's transfer
events are those of the run's successful transfer calls, one to one and in order, each with its
call's arguments and the registered rune or token, numbered from 1 to `numTransfersTotal`. -/
theorem transfer_events_record_calls [LawfulErc20 T] {tr : List (Msg × Call Sig)}
    (h : ContractRun C tr w) : w.TransfersRecorded tr :=
  World.transfersRecorded_of_run h

/-- The calls of `Deployment` transfer runes in and out once each. -/
theorem transfer_events_record_calls_deployment :
    ∃ w : World Balances RoleLists, w.TransfersRecorded Deployment.calls ∧
      w.bridge.numTransfersTotal = 2 := by
  obtain ⟨w, hrun, hw⟩ := Deployment.run_of_eval Deployment.calls
    (fun w => w.bridge.numTransfersTotal) 2 (by decide +kernel)
  exact ⟨w, transfer_events_record_calls hrun, hw⟩

/-! ## Releases -/

/-- What a transfer to Bitcoin releases. -/
structure Release where
  token : Address
  rune : Uint256
  netRuneAmount : Uint256
  deriving DecidableEq

def Log.release : Log → Option Release
  | .runeTransferToBtc _ _ token rune _ netRuneAmount _ _ _ => some ⟨token, rune, netRuneAmount⟩
  | _ => none

/-- The releases so far, oldest first. -/
def World.releases (w : World T R) : List Release := w.logs.filterMap Log.release

omit [Erc20 T] [AccessControlEnumerable R] in
lemma releasedRuneAmount_eq (token : Address) (w : World T R) :
    releasedRuneAmount token w.logs =
      (w.releases.map fun r => if r.token = token then r.netRuneAmount.toNat else 0).sum := by
  rw [World.releases, Lists.sum_map_filterMap]
  exact congrArg List.sum (List.map_congr_left fun log _ => by cases log <;> rfl)

omit [Erc20 T] [AccessControlEnumerable R] in
lemma releases_eq (w : World T R) : w.releases = (transferLogs w.logs).filterMap Log.release := by
  rw [World.releases, transferLogs, List.filterMap_filter]
  exact List.filterMap_congr fun log _ => by cases log <;> rfl

/-- A release is of the rune registered for its token. -/
lemma World.registered_of_release [LawfulErc20 T] {tr : List (Msg × Call Sig)}
    (h : ContractRun C tr w) {r : Release} (hr : r ∈ w.releases) :
    w.bridge.runesByToken r.token = r.rune ∧ r.rune ≠ 0 := by
  rw [releases_eq, List.mem_filterMap] at hr
  obtain ⟨log, hlog, hrelease⟩ := hr
  obtain ⟨a, -, hrecords⟩ :=
    Lists.exists_left_of_forall₂ (World.transfersRecorded_of_run h).events hlog
  cases hrecords with
  | toBtc hrune hne hpos =>
      obtain rfl := Option.some.inj hrelease
      exact ⟨hrune, hne⟩
  | fromBtc => exact absurd hrelease (by simp [Log.release])

/-- Releases are only ever added. -/
lemma World.Step.releases {a : Msg × Call Sig} (h : World.Step C w a w') :
    ∃ new, w'.releases = w.releases ++ new := by
  rw [releases_eq, releases_eq]
  by_cases ha : a.2.isTransfer = true
  · obtain ⟨⟨log, hlogs, -, -⟩, -⟩ := World.step_transferAdded ha h
    exact ⟨[log].filterMap Log.release, by rw [hlogs, List.filterMap_append]⟩
  · exact ⟨[], by rw [(World.step_transfersKept (by simpa using ha) h).logs, List.append_nil]⟩

end NbteBridge
