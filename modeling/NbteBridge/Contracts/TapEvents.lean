import NbteBridge.Contracts.TapRelease

/-!
# Events of the tap Bridge

Whoever looks at the contract from outside sees its events.  In every run these are, one to one and
in order, the successful transfers in both directions: the counters are 1, 2, 3 and so on up to
`numTransfersTotal`, and the transfers from tap are exactly the tokens released.

The token and the amount of a transfer from tap are not in its call: the contract reads them from
the tap address, with the assets it has at that moment.  As assets come and go, what an event says is
compared with the state its call was made in.
-/

namespace NbteBridge

open Checked Runs

/-- The counter of a transfer's event. -/
def TapLog.counter : TapLog → Option Uint256
  | .transferFromTap counter .. => some counter
  | .transferToTap counter .. => some counter
  | _ => none

/-- The tokens an event says were released. -/
def TapLog.release : TapLog → Option TokenTransfer
  | .transferFromTap _ to_ rskToken amountWei _ _ => some ⟨rskToken, to_, amountWei⟩
  | _ => none

def tapTransferLogs (logs : List TapLog) : List TapLog := logs.filter fun log => log.counter.isSome

variable {Hash Sig : Type}

def TapCall.isTransfer : TapCall Sig → Bool
  | .transferToTap _ => true
  | .acceptTransferFromTap .. => true
  | _ => false

/-- A call, with the world it was made in. -/
abbrev TapMoment (Sig : Type) := TapWorld × Address × TapCall Sig

/-- The event of a transfer call. -/
inductive RecordsTapTransfer : TapMoment Sig → TapLog → Prop
  | toTap {w : TapWorld} {sender : Address} {receiverTapAddress : Bytes} {counter : Uint256} :
      RecordsTapTransfer (w, sender, .transferToTap receiverTapAddress)
        (.transferToTap counter sender receiverTapAddress)
  | fromTap {w : TapWorld} {sender : Address} {t : TransferFromTap} {signatures : List Sig}
      {counter amountWei : Uint256} {asset : BridgeableAsset}
      (hdecoded : w.decodeTransfer t.transferTapAddress = .ok (asset, amountWei)) :
      RecordsTapTransfer (w, sender, .acceptTransferFromTap t signatures)
        (.transferFromTap counter t.to_ asset.rskToken amountWei t.btcTxId t.btcTxVout)

namespace TapWorld

variable {C : Crypto Hash Sig} {w w' : TapWorld} {a : Address × TapCall Sig}

/-! ## One step -/

/-- A transfer adds its event. -/
structure TransferLogged (w w' : TapWorld) (a : Address × TapCall Sig) (log : TapLog) : Prop where
  logs : w'.logs = w.logs ++ [log]
  counter : ∃ counter, log.counter = some counter ∧ counter = w'.bridge.numTransfersTotal ∧
    counter.toNat = w.bridge.numTransfersTotal.toNat + 1
  released : w'.released = w.released ++ log.release.toList
  records : RecordsTapTransfer (w, a) log

/-- Other calls add none. -/
structure NothingLogged (w w' : TapWorld) : Prop where
  logs : ∃ new, w'.logs = w.logs ++ new ∧ ∀ log ∈ new, log.counter = none ∧ log.release = none
  counter : w'.bridge.numTransfersTotal = w.bridge.numTransfersTotal
  released : w'.released = w.released

lemma nothingLogged_withBridge {b : TapBridge} {logs : List TapLog}
    (hcounter : b.numTransfersTotal = w.bridge.numTransfersTotal)
    (hlogs : ∀ log ∈ logs, log.counter = none ∧ log.release = none) :
    NothingLogged w (w.withBridge b logs) := ⟨⟨logs, rfl, hlogs⟩, hcounter, rfl⟩

/-- **What a step logs.** -/
lemma logged_of_step (h : Step C w a w') :
    (a.2.isTransfer = true ∧ ∃ log, TransferLogged w w' a log) ∨
      (a.2.isTransfer = false ∧ NothingLogged w w') := by
  obtain ⟨sender, call⟩ := a
  cases call with
  | transferToTap receiverTapAddress =>
      simp only [Step, step, transferToTap, bind_eq_ok, exists_unit, Prod.exists, pure_eq_ok] at h
      obtain ⟨asset, amount, -, -, counter, hcounter, rfl⟩ := h
      exact .inl ⟨rfl, _, rfl, ⟨counter, rfl, rfl, Uint256.add_eq_ok.1 hcounter⟩,
        (List.append_nil _).symm, .toTap⟩
  | acceptTransferFromTap t signatures =>
      simp only [Step, step, acceptTransferFromTap, bind_eq_ok, exists_unit, Prod.exists,
        pure_eq_ok] at h
      obtain ⟨-, -, asset, amount, hdecoded, -, -, counter, hcounter, rfl⟩ := h
      exact .inl ⟨rfl, _, rfl, ⟨counter, rfl, rfl, Uint256.add_eq_ok.1 hcounter⟩, rfl,
        .fromTap hdecoded⟩
  | addBridgeableAsset asset =>
      simp only [Step, step, TapBridge.addBridgeableAsset, bind_eq_ok, exists_unit,
        pure_eq_ok] at h
      obtain ⟨-, b, ⟨-, -, -, -, -, rfl⟩, rfl⟩ := h
      exact .inr ⟨rfl, nothingLogged_withBridge rfl (by simp [TapLog.counter, TapLog.release])⟩
  | removeBridgeableAsset rskTokenAddress =>
      simp only [Step, step, TapBridge.removeBridgeableAsset, bind_eq_ok, exists_unit,
        pure_eq_ok, Prod.exists, Prod.mk.injEq] at h
      obtain ⟨-, b, asset, ⟨-, rfl, -⟩, rfl⟩ := h
      exact .inr ⟨rfl, nothingLogged_withBridge rfl (by simp [TapLog.counter, TapLog.release])⟩
  | addFederator account =>
      simp only [Step, step, TapBridge.addFederator, bind_eq_ok, exists_unit, pure_eq_ok] at h
      obtain ⟨-, b, ⟨-, rfl⟩, rfl⟩ := h
      exact .inr ⟨rfl, nothingLogged_withBridge rfl (by simp [TapLog.counter, TapLog.release])⟩
  | removeFederator account =>
      simp only [Step, step, TapBridge.removeFederator, bind_eq_ok, exists_unit, pure_eq_ok] at h
      obtain ⟨-, b, ⟨-, rfl⟩, rfl⟩ := h
      exact .inr ⟨rfl, nothingLogged_withBridge rfl (by simp [TapLog.counter, TapLog.release])⟩
  | setNumRequiredSigners numRequiredSigners =>
      simp only [Step, step, TapBridge.setNumRequiredSigners, bind_eq_ok, exists_unit,
        pure_eq_ok] at h
      obtain ⟨-, b, ⟨-, rfl⟩, rfl⟩ := h
      exact .inr ⟨rfl, nothingLogged_withBridge rfl (by simp)⟩
  | setTapUtils tapUtils =>
      simp only [Step, step, bind_eq_ok, exists_unit, pure_eq_ok] at h
      obtain ⟨-, rfl⟩ := h
      exact .inr ⟨rfl, nothingLogged_withBridge rfl (by simp)⟩
  | transferOwnership newOwner =>
      simp only [Step, step, bind_eq_ok, exists_unit, pure_eq_ok] at h
      obtain ⟨-, -, rfl⟩ := h
      exact .inr ⟨rfl, nothingLogged_withBridge rfl (by simp)⟩
  | renounceOwnership =>
      simp only [Step, step, bind_eq_ok, exists_unit, pure_eq_ok] at h
      obtain ⟨-, rfl⟩ := h
      exact .inr ⟨rfl, nothingLogged_withBridge rfl (by simp)⟩
  | externalsChange externals =>
      simp only [Step, step, pure_eq_ok] at h
      obtain rfl := h
      exact .inr ⟨rfl, ⟨[], (List.append_nil _).symm, by simp⟩, rfl, rfl⟩

/-! ## Every run -/

/-- The events are those of the calls, in order, numbered from one. -/
structure TransfersLogged (w : TapWorld) (history : List (TapMoment Sig)) : Prop where
  events : List.Forall₂ RecordsTapTransfer (history.filter fun p => p.2.2.isTransfer)
    (tapTransferLogs w.logs)
  counters : (tapTransferLogs w.logs).map (fun log => log.counter.map BitVec.toNat) =
    (List.range' 1 w.bridge.numTransfersTotal.toNat).map some
  released : w.released = w.logs.filterMap TapLog.release

lemma transfersLogged_of_deployed (h : w.Deployed) :
    w.TransfersLogged ([] : List (TapMoment Sig)) := by
  obtain ⟨sender, tapUtils, numRequiredSigners, federators, hconstruct, hreleased, hlogs⟩ := h
  simp only [TapBridge.construct, bind_eq_ok, exists_unit, pure_eq_ok] at hconstruct
  obtain ⟨-, -, -, hbridge⟩ := hconstruct
  have hnone : tapTransferLogs w.logs = [] := by
    rw [hlogs, tapTransferLogs, List.filter_eq_nil_iff]
    intro log hlog
    obtain ⟨federator, -, rfl⟩ := List.mem_map.1 hlog
    simp [TapLog.counter]
  refine ⟨?_, ?_, ?_⟩
  · rw [hnone]
    exact .nil
  · rw [hnone, ← hbridge]
    rfl
  · rw [hreleased, hlogs, List.filterMap_map]
    exact (List.filterMap_eq_nil_iff.2 fun _ _ => rfl).symm

lemma TransfersLogged.step {history : List (TapMoment Sig)} (hw : w.TransfersLogged history)
    (h : Step C w a w') : w'.TransfersLogged (history ++ [(w, a)]) := by
  rcases logged_of_step h with
    ⟨ha, log, hlogs, ⟨counter, hsome, htotal, hnext⟩, hreleased, hrecords⟩ |
    ⟨ha, ⟨new, hlogs, hnew⟩, hcounter, hreleased⟩
  · have htransfers : tapTransferLogs w'.logs = tapTransferLogs w.logs ++ [log] := by
      rw [tapTransferLogs, hlogs, List.filter_append, List.filter_singleton, hsome]
      rfl
    refine ⟨?_, ?_, ?_⟩
    · rw [htransfers, List.filter_append, List.filter_singleton, ha]
      exact List.rel_append hw.events (.cons hrecords .nil)
    · rw [htransfers, List.map_append, hw.counters, ← htotal, hnext, List.range'_concat,
        List.map_append]
      simp only [List.map_cons, List.map_nil, hsome, Option.map_some, hnext]
      rw [Nat.one_mul, Nat.add_comm]
    · rw [hreleased, hlogs, List.filterMap_append, hw.released]
      cases hrelease : log.release <;> simp [hrelease]
  · have htransfers : tapTransferLogs w'.logs = tapTransferLogs w.logs := by
      have hnone : new.filter (fun log => log.counter.isSome) = [] := by
        refine List.filter_eq_nil_iff.2 fun log hlog => ?_
        simp [(hnew log hlog).1]
      rw [tapTransferLogs, hlogs, List.filter_append, hnone, List.append_nil, tapTransferLogs]
    refine ⟨?_, ?_, ?_⟩
    · rw [htransfers, List.filter_append, List.filter_singleton, ha]
      simpa using hw.events
    · rw [htransfers, hcounter]
      exact hw.counters
    · have hnone : new.filterMap TapLog.release = [] :=
        List.filterMap_eq_nil_iff.2 fun log hlog => (hnew log hlog).2
      rw [hreleased, hlogs, List.filterMap_append, hnone, List.append_nil, hw.released]

lemma transfersLogged_of_traced {history : List (TapMoment Sig)}
    (h : Traced Deployed (Step C) history w) : w.TransfersLogged history := by
  refine h.invariant (I := fun history w => w.TransfersLogged history)
    (fun _ hw => transfersLogged_of_deployed hw) ?_
  rintro history w ⟨_, a⟩ w' - hw ⟨rfl, hstep⟩
  exact hw.step hstep

end TapWorld

/-- **The events of the tap Bridge are its transfers.**  In every run they are the successful
transfers in both directions, one to one and in order, each with its call's arguments and what was
read from the tap address, numbered from 1 to `numTransfersTotal`, and those from tap are exactly the
tokens released. -/
theorem tap_events_record_calls {C : Crypto Hash Sig} {tr : List (Address × TapCall Sig)}
    {w : TapWorld} (h : TapRun C tr w) :
    ∃ history, Traced TapWorld.Deployed (TapWorld.Step C) history w ∧
      history.map Prod.snd = tr ∧ w.TransfersLogged history := by
  obtain ⟨history, hhistory, hcalls⟩ := h.traced
  exact ⟨history, hhistory, hcalls, TapWorld.transfersLogged_of_traced hhistory⟩

open TapWorld in
/-- The release of `Example` is the first event. -/
theorem tap_events_record_calls_example :
    ∃ (w : TapWorld) (history : List (TapMoment (Address × Bytes))), history.map Prod.snd =
      [(9, .addBridgeableAsset Example.asset),
        (4, .acceptTransferFromTap Example.transfer [Example.signature])] ∧
      w.TransfersLogged history ∧ w.bridge.numTransfersTotal = 1 := by
  have heval : (do
      let b ← TapBridge.construct 9 ⟨Packed.ascii "taprt"⟩ 2 [4, 5]
      let w ← (Example.world b).step symbolicCrypto 9 (.addBridgeableAsset Example.asset)
      let w' ← w.step symbolicCrypto 4 (.acceptTransferFromTap Example.transfer [Example.signature])
      pure w'.bridge.numTransfersTotal) = .ok 1 := by
    decide +kernel
  simp only [bind_eq_ok, pure_eq_ok] at heval
  obtain ⟨b, hb, w, hw, w', hw', htotal⟩ := heval
  have hrun : TapRun symbolicCrypto ([] ++ [(9, .addBridgeableAsset Example.asset)]) w :=
    .step (.init ⟨9, _, 2, [4, 5], hb, rfl, rfl⟩) hw
  have hrun' : TapRun symbolicCrypto ([(9, .addBridgeableAsset Example.asset)] ++
      [(4, .acceptTransferFromTap Example.transfer [Example.signature])]) w' := hrun.step hw'
  obtain ⟨history, -, hcalls, hlogged⟩ := tap_events_record_calls hrun'
  exact ⟨w', history, hcalls, hlogged, htotal⟩

end NbteBridge
