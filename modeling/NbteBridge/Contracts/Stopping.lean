import NbteBridge.Contracts.TransferEvents

/-!
# Pausing and freezing

Pausers pause the bridge, guards freeze it, admins pause single runes.  The switches are a small
machine of their own (`Switches`), which the bridge refines: each call turns them as `Call.turn`
says, and is let through by them as `RuneBridge.Admits` says.

A frozen bridge is paused too, in every reachable state.  So a rune of a frozen bridge, and a paused
rune, stand still until a guard or an admin lifts the stop, whatever else is called.
-/

namespace NbteBridge

open Checked Runs

/-! ## The switches -/

@[ext]
structure Switches where
  frozen : Bool
  paused : Bool
  isRunePaused : Uint256 → Bool

def RuneBridge.switches (b : RuneBridge) : Switches := ⟨b.frozen, b.paused, b.isRunePaused⟩

/-- How a call turns them.  Freezing pauses; unfreezing does not unpause. -/
def Call.turn {Sig : Type} : Call Sig → Switches → Switches
  | .pause, s => { s with paused := true }
  | .freeze, s => { s with frozen := true, paused := true }
  | .unpause, s => { s with paused := false }
  | .unfreeze, s => { s with frozen := false }
  | .setRunePaused rune paused, s =>
      { s with isRunePaused := Function.update s.isRunePaused rune paused }
  | _, s => s

/-- The calls the switches let through. -/
def RuneBridge.Admits {Sig : Type} (b : RuneBridge) : Call Sig → Prop
  | .transferToBtc token _ _ =>
      b.paused = false ∧ b.isRunePaused (b.runesByToken token) = false
  | .requestRuneRegistration _ => b.paused = false
  | .acceptTransferFromBtc t _ => b.frozen = false ∧ b.isRunePaused t.rune = false
  | .acceptRuneRegistrationRequest .. => b.frozen = false
  | .pause => b.paused = false
  | .freeze => b.frozen = false
  | .unpause => b.paused = true ∧ b.frozen = false
  | .unfreeze => b.frozen = true
  | _ => True

variable {T R Hash Sig : Type}
  {C : Crypto Hash Sig} {w w' : World T R} {rune : Uint256}

/-- A guard unfreezes the bridge, or an admin unpauses the rune. -/
inductive World.LiftedBy [AccessControlEnumerable R] (w : World T R) (rune : Uint256) :
    Msg × Call Sig → Prop
  | guard {m : Msg} {ac : NBTEBridgeAccessControl R} (hac : w.accessControl = .ok ac)
      (hguard : ac.checkGuard m.sender = .ok ()) : LiftedBy w rune (m, .unfreeze)
  | admin {m : Msg} {ac : NBTEBridgeAccessControl R} (hac : w.accessControl = .ok ac)
      (hadmin : ac.checkAdmin m.sender = .ok ()) : LiftedBy w rune (m, .setRunePaused rune false)

/-- The bridge is frozen, or the rune paused. -/
def RuneBridge.Stopped (b : RuneBridge) (rune : Uint256) : Prop :=
  b.frozen = true ∨ b.isRunePaused rune = true

lemma RuneBridge.not_stopped {b : RuneBridge} (hthawed : b.frozen = false)
    (hlive : b.isRunePaused rune = false) : ¬ b.Stopped rune := by
  simp [Stopped, hthawed, hlive]

namespace World

/-! ### Function by function -/

lemma onToken_switches {address : Address} {f : RuneToken T → Result (RuneToken T)}
    {logs : List Log} (h : w.onToken address f logs = .ok w') :
    w'.bridge.switches = w.bridge.switches := by
  simp only [onToken, bind_eq_ok, pure_eq_ok] at h
  obtain ⟨token, -, token', -, rfl⟩ := h
  rfl

variable [Erc20 T]

lemma transferToBtc_admitted {m : Msg} {token : Address} {tokenAmount : Uint256} {receiver : Bytes}
    (h : w.transferToBtc m token tokenAmount receiver = .ok w') :
    w.bridge.Admits (.transferToBtc token tokenAmount receiver : Call Sig) ∧
      w'.bridge.switches = w.bridge.switches := by
  simp only [transferToBtc, whenNotPaused, bind_eq_ok, exists_unit, require_eq_ok, pure_eq_ok,
    Prod.exists] at h
  obtain ⟨hpaused, -, rune, hrune, token, -, -, hrunePaused, -, -, -, policy, -, -, -, -, netRune,
    netToken, fee, -, moved, -, burned, -, counter, -, rfl⟩ := h
  simp only [RuneBridge.getRuneByToken, bind_eq_ok, exists_unit, require_eq_ok, pure_eq_ok] at hrune
  obtain ⟨-, -, rfl⟩ := hrune
  exact ⟨⟨hpaused, hrunePaused⟩, rfl⟩

lemma doRegisterRune_switches {newToken : Address} {r : RuneRegistration}
    (h : w.doRegisterRune newToken r = .ok w') : w'.bridge.switches = w.bridge.switches := by
  simp only [doRegisterRune, bind_eq_ok, exists_unit, pure_eq_ok] at h
  obtain ⟨-, -, -, rfl⟩ := h
  rfl

variable [AccessControlEnumerable R]

lemma acceptTransferFromBtc_admitted {m : Msg} {t : TransferFromBtc} {signatures : List Sig}
    (h : w.acceptTransferFromBtc C m t signatures = .ok w') :
    w.bridge.Admits (.acceptTransferFromBtc t signatures : Call Sig) ∧
      w'.bridge.switches = w.bridge.switches := by
  simp only [acceptTransferFromBtc, whenNotFrozen, bind_eq_ok, exists_unit, require_eq_ok,
    pure_eq_ok] at h
  obtain ⟨-, hfrozen, hpaused, ac, -, -, address, -, -, token, -, amount, -, minted, -, counter, -,
    rfl⟩ := h
  exact ⟨⟨hfrozen, hpaused⟩, rfl⟩

/-- **The switches.**  A call is let through by them, and turns them. -/
theorem step_switches {a : Msg × Call Sig} (h : Step C w a w') :
    w.bridge.Admits a.2 ∧ w'.bridge.switches = a.2.turn w.bridge.switches := by
  obtain ⟨m, call⟩ := a
  simp only [Step, step, bind_eq_ok, exists_unit, require_eq_ok] at h
  obtain ⟨-, -, h⟩ := h
  cases call with
  | transferToBtc => exact transferToBtc_admitted h
  | requestRuneRegistration rune =>
      simp only [requestRuneRegistration, whenNotPaused, bind_eq_ok, exists_unit, require_eq_ok,
        pure_eq_ok] at h
      obtain ⟨-, hpaused, -, -, -, -, rfl⟩ := h
      exact ⟨hpaused, rfl⟩
  | acceptTransferFromBtc => exact acceptTransferFromBtc_admitted h
  | acceptRuneRegistrationRequest newToken r signatures =>
      simp only [acceptRuneRegistrationRequest, whenNotFrozen, bind_eq_ok, exists_unit,
        require_eq_ok] at h
      obtain ⟨-, hfrozen, -, ac, -, -, h⟩ := h
      exact ⟨hfrozen, doRegisterRune_switches h⟩
  | withdrawBaseCurrency amount receiver =>
      simp only [withdrawBaseCurrency, bind_eq_ok, exists_unit, pure_eq_ok] at h
      obtain ⟨-, -, -, -, rfl⟩ := h
      exact ⟨trivial, rfl⟩
  | withdrawTokens token amount receiver =>
      simp only [withdrawTokens, bind_eq_ok, exists_unit] at h
      obtain ⟨-, -, h⟩ := h
      split at h
      · simp only [bind_eq_ok, pure_eq_ok] at h
        obtain ⟨token', -, rfl⟩ := h
        exact ⟨trivial, rfl⟩
      · simp only [bind_eq_ok, exists_unit, pure_eq_ok] at h
        obtain ⟨-, rfl⟩ := h
        exact ⟨trivial, rfl⟩
  | registerRune newToken r =>
      simp only [registerRune, bind_eq_ok, exists_unit] at h
      exact ⟨trivial, doRegisterRune_switches h.2⟩
  | setEvmToBtcTransferPolicy token policy =>
      simp only [setEvmToBtcTransferPolicy, doSetEvmToBtcTransferPolicy, bind_eq_ok,
        exists_unit, pure_eq_ok] at h
      obtain ⟨-, -, -, -, -, rfl⟩ := h
      exact ⟨trivial, rfl⟩
  | setRuneRegistrationRequestsEnabled enabled =>
      simp only [setRuneRegistrationRequestsEnabled, bind_eq_ok, exists_unit, pure_eq_ok] at h
      obtain ⟨-, rfl⟩ := h
      exact ⟨trivial, rfl⟩
  | setRuneRegistrationFee fee =>
      simp only [setRuneRegistrationFee, bind_eq_ok, exists_unit, pure_eq_ok] at h
      obtain ⟨-, rfl⟩ := h
      exact ⟨trivial, rfl⟩
  | setBtcAddressValidator validator =>
      simp only [setBtcAddressValidator, bind_eq_ok, exists_unit, pure_eq_ok] at h
      obtain ⟨-, -, rfl⟩ := h
      exact ⟨trivial, rfl⟩
  | setAccessControl accessControl =>
      simp only [setAccessControl, bind_eq_ok, exists_unit, pure_eq_ok] at h
      obtain ⟨-, -, rfl⟩ := h
      exact ⟨trivial, rfl⟩
  | setRunePaused rune paused =>
      simp only [setRunePaused, bind_eq_ok, exists_unit] at h
      obtain ⟨-, h⟩ := h
      split at h
      · obtain rfl := pure_eq_ok.1 h
        exact ⟨trivial, rfl⟩
      · rename_i hsame
        obtain rfl := pure_eq_ok.1 h
        -- the switch is where it should be already
        obtain rfl : paused = w.bridge.isRunePaused rune := not_not.1 hsame
        refine ⟨trivial, Switches.ext rfl rfl ?_⟩
        exact (Function.update_eq_self rune w.bridge.isRunePaused).symm
  | pause =>
      simp only [pause, whenNotPaused, bind_eq_ok, exists_unit, require_eq_ok, pure_eq_ok] at h
      obtain ⟨-, hpaused, rfl⟩ := h
      exact ⟨hpaused, rfl⟩
  | freeze =>
      simp only [freeze, bind_eq_ok, exists_unit, pure_eq_ok] at h
      obtain ⟨-, hfrozen, rfl⟩ := h
      split at hfrozen
      · rename_i hpaused
        have hfrozen : w.bridge.frozen = false := require_eq_ok.1 hfrozen
        refine ⟨hfrozen, ?_⟩
        rw [if_pos hpaused]
        rfl
      · rename_i hpaused
        have hfrozen : w.bridge.frozen = false := require_eq_ok.1 hfrozen
        have hpaused' : w.bridge.paused = true := by simpa using hpaused
        refine ⟨hfrozen, ?_⟩
        rw [if_neg hpaused]
        exact Switches.ext rfl hpaused' rfl
  | unpause =>
      simp only [unpause, whenNotFrozen, bind_eq_ok, exists_unit, require_eq_ok, pure_eq_ok] at h
      obtain ⟨-, hfrozen, hpaused, rfl⟩ := h
      exact ⟨⟨hpaused, hfrozen⟩, rfl⟩
  | unfreeze =>
      simp only [unfreeze, bind_eq_ok, exists_unit, require_eq_ok, pure_eq_ok] at h
      obtain ⟨-, hfrozen, rfl⟩ := h
      exact ⟨hfrozen, rfl⟩
  | tokenCall => exact ⟨trivial, onToken_switches h⟩
  | tokenBurn => exact ⟨trivial, onToken_switches h⟩
  | tokenMintTo => exact ⟨trivial, onToken_switches h⟩
  | tokenChangeMinter => exact ⟨trivial, onToken_switches h⟩
  | accessControlCall address c =>
      simp only [bind_eq_ok, pure_eq_ok] at h
      obtain ⟨-, -, -, -, rfl⟩ := h
      exact ⟨trivial, rfl⟩
  | deployAccessControl address =>
      simp only [bind_eq_ok, exists_unit, pure_eq_ok] at h
      obtain ⟨-, rfl⟩ := h
      exact ⟨trivial, rfl⟩
  | externalsChange externals =>
      obtain rfl := pure_eq_ok.1 h
      exact ⟨trivial, rfl⟩

/-! ### What is reached -/

lemma frozen_paused_of_turn {Sig : Type} {call : Call Sig} {b : RuneBridge}
    (hadmits : b.Admits call) (h : b.frozen = true → b.paused = true) :
    (call.turn b.switches).frozen = true → (call.turn b.switches).paused = true := by
  intro hfrozen
  cases call with
  | pause => rfl
  | freeze => rfl
  | unpause =>
      have hthawed : b.frozen = false := hadmits.2
      have hfrozen : b.frozen = true := hfrozen
      rw [hthawed] at hfrozen
      cases hfrozen
  | unfreeze => cases hfrozen
  | _ => exact h hfrozen

/-- A frozen bridge is paused. -/
lemma paused_of_frozen {tr : List (Msg × Call Sig)} (h : ContractRun C tr w) :
    w.bridge.frozen = true → w.bridge.paused = true := by
  refine h.stateInvariant (I := fun w => w.bridge.frozen = true → w.bridge.paused = true) ?_ ?_
  · intro w hw hfrozen
    obtain ⟨w₀, hw₀, ac, validator, hinit⟩ := hw
    simp only [initializeBridge, doSetEvmToBtcTransferPolicy, hw₀.bridge, bind_eq_ok, exists_unit,
      pure_eq_ok] at hinit
    obtain ⟨-, -, -, -, rfl⟩ := hinit
    cases hfrozen
  · intro w a w' ih hs
    obtain ⟨hadmits, hturn⟩ := step_switches hs
    have hkept := frozen_paused_of_turn hadmits ih
    rw [← hturn] at hkept
    exact hkept

/-! ### Who lifts a stop -/

lemma liftedBy_of_unfreeze {m : Msg} (h : Step C w (m, .unfreeze) w') :
    w.LiftedBy rune ((m, .unfreeze) : Msg × Call Sig) := by
  simp only [Step, step, unfreeze, onlyGuard, bind_eq_ok, exists_unit] at h
  obtain ⟨-, -, ⟨ac, hac, hguard⟩, -⟩ := h
  exact .guard hac hguard

lemma liftedBy_of_setRunePaused {m : Msg} (h : Step C w (m, .setRunePaused rune false) w') :
    w.LiftedBy rune ((m, .setRunePaused rune false) : Msg × Call Sig) := by
  simp only [Step, step, setRunePaused, onlyAdmin, bind_eq_ok, exists_unit] at h
  obtain ⟨-, -, ⟨ac, hac, hadmin⟩, -⟩ := h
  exact .admin hac hadmin

/-- Only a guard or an admin ends a stop. -/
lemma stopped_of_step {a : Msg × Call Sig} (hstopped : w.bridge.Stopped rune)
    (h : Step C w a w') (hlift : ¬ w.LiftedBy rune a) : w'.bridge.Stopped rune := by
  obtain ⟨hadmits, hturn⟩ := step_switches h
  have hfrozen : w'.bridge.frozen = (a.2.turn w.bridge.switches).frozen :=
    congrArg Switches.frozen hturn
  have hrunes : w'.bridge.isRunePaused = (a.2.turn w.bridge.switches).isRunePaused :=
    congrArg Switches.isRunePaused hturn
  rw [RuneBridge.Stopped, hfrozen, hrunes]
  obtain ⟨m, call⟩ := a
  cases call with
  | freeze => exact .inl rfl
  | unfreeze => exact absurd (liftedBy_of_unfreeze h) hlift
  | setRunePaused rune' paused =>
      refine hstopped.imp id fun hpaused => ?_
      by_cases hrune : rune = rune'
      · subst hrune
        cases paused with
        | true => exact Function.update_self rune true w.bridge.isRunePaused
        | false => exact absurd (liftedBy_of_setRunePaused h) hlift
      · exact (Function.update_of_ne hrune paused w.bridge.isRunePaused).trans hpaused
  | _ => exact hstopped

end World

/-! ### What stands still -/

/-- The rune of a transfer's event. -/
def Log.transferRune : Log → Option Uint256
  | .runeTransferToBtc _ _ _ rune _ _ _ _ _ => some rune
  | .runeTransferFromBtc _ _ _ rune _ _ _ => some rune
  | _ => none

/-- The events of transfers of a rune. -/
def transferLogsOf (rune : Uint256) (logs : List Log) : List Log :=
  (transferLogs logs).filter fun log => log.transferRune = some rune

/-- Between `w` and `w'` the rune was neither brought in nor released: nothing was minted of it, and
no event tells the nodes to pay anything out. -/
structure World.StandsStill [Erc20 T] (rune : Uint256) (w w' : World T R) : Prop where
  processed : ∀ txHash vout, w'.bridge.isTransferFromBtcProcessed txHash vout rune =
    w.bridge.isTransferFromBtcProcessed txHash vout rune
  transfers : transferLogsOf rune w'.logs = transferLogsOf rune w.logs
  supply : ∀ address token, w.tokens address = some token → token.rune = rune →
    ∃ token', w'.tokens address = some token' ∧ token'.rune = rune ∧
      token'.totalSupply ≤ token.totalSupply

namespace World

/-- A transfer the switches let through is not of a rune that is stopped. -/
lemma transferRune_ne {a : Msg × Call Sig} {log : Log} (hadmits : w.bridge.Admits a.2)
    (hrecords : RecordsTransfer w.bridge a log)
    (hpaused : w.bridge.frozen = true → w.bridge.paused = true)
    (hstopped : w.bridge.Stopped rune) : log.transferRune ≠ some rune := by
  cases hrecords with
  | toBtc hrune =>
      obtain ⟨hrunning, hlive⟩ := hadmits
      have hthawed : w.bridge.frozen = false := by
        rw [← Bool.not_eq_true]
        intro hfrozen
        rw [hpaused hfrozen] at hrunning
        cases hrunning
      intro heq
      obtain rfl := Option.some.inj heq
      rw [hrune] at hlive
      exact RuneBridge.not_stopped hthawed hlive hstopped
  | fromBtc =>
      obtain ⟨hthawed, hlive⟩ := hadmits
      intro heq
      obtain rfl := Option.some.inj heq
      exact RuneBridge.not_stopped hthawed hlive hstopped

variable [Erc20 T]

lemma StandsStill.refl (rune : Uint256) (w : World T R) : StandsStill rune w w :=
  ⟨fun _ _ => rfl, rfl, fun _ token htoken hrune => ⟨token, htoken, hrune, le_rfl⟩⟩

lemma StandsStill.trans {w₁ w₂ w₃ : World T R} (h : StandsStill rune w₁ w₂)
    (h' : StandsStill rune w₂ w₃) : StandsStill rune w₁ w₃ := by
  refine ⟨fun txHash vout => (h'.processed txHash vout).trans (h.processed txHash vout),
    h'.transfers.trans h.transfers, fun address token htoken hrune => ?_⟩
  obtain ⟨token₂, htoken₂, hrune₂, hle₂⟩ := h.supply address token htoken hrune
  obtain ⟨token₃, htoken₃, hrune₃, hle₃⟩ := h'.supply address token₂ htoken₂ hrune₂
  exact ⟨token₃, htoken₃, hrune₃, hle₃.trans hle₂⟩

/-- Tokens of the rune only get fewer when a token moves to no greater supply. -/
lemma supply_of_tokenMoved {address : Address} {moved moved' : RuneToken T}
    (hm : TokenMoved w w' address moved moved')
    (hle : moved.rune = rune → moved'.totalSupply ≤ moved.totalSupply) :
    ∀ a token, w.tokens a = some token → token.rune = rune →
      ∃ token', w'.tokens a = some token' ∧ token'.rune = rune ∧
        token'.totalSupply ≤ token.totalSupply := by
  intro a token htoken hrune
  rw [hm.after]
  by_cases ha : a = address
  · subst ha
    obtain rfl : token = moved := Option.some.inj (htoken.symm.trans hm.before)
    exact ⟨moved', Function.update_self a (some moved') w.tokens, hm.terms.rune.trans hrune,
      hle hrune⟩
  · exact ⟨token, (Function.update_of_ne ha (some moved') w.tokens).trans htoken, hrune, le_rfl⟩

variable [AccessControlEnumerable R]

lemma transferLogsOf_of_step {a : Msg × Call Sig} (h : Step C w a w')
    (hpaused : w.bridge.frozen = true → w.bridge.paused = true)
    (hstopped : w.bridge.Stopped rune) :
    transferLogsOf rune w'.logs = transferLogsOf rune w.logs := by
  by_cases ha : a.2.isTransfer = true
  · obtain ⟨⟨log, hlogs, hrecords, -⟩, -⟩ := step_transferAdded ha h
    have hother := transferRune_ne (step_switches h).1 hrecords hpaused hstopped
    rw [transferLogsOf, transferLogsOf, hlogs, List.filter_append,
      List.filter_cons_of_neg (by simpa using hother)]
    exact List.append_nil _
  · rw [transferLogsOf, transferLogsOf, (step_transfersKept (by simpa using ha) h).logs]

/-- **A step** of a bridge on which the rune is stopped. -/
lemma standsStill_of_step [LawfulErc20 T] {a : Msg × Call Sig} (hreg : w.WellRegistered)
    (hpaused : w.bridge.frozen = true → w.bridge.paused = true)
    (hstopped : w.bridge.Stopped rune) (h : Step C w a w') : StandsStill rune w w' := by
  have htransfers := transferLogsOf_of_step h hpaused hstopped
  have hsame (hproc : w'.bridge.processedTransfersFromBtc = w.bridge.processedTransfersFromBtc)
      (txHash : Bytes32) (vout : Uint256) :
      w'.bridge.isTransferFromBtcProcessed txHash vout rune =
        w.bridge.isTransferFromBtcProcessed txHash vout rune := by
    rw [RuneBridge.isTransferFromBtcProcessed, RuneBridge.isTransferFromBtcProcessed, hproc]
  cases step_effect h with
  | quiet hq hk ht =>
      refine ⟨hsame hk.processed, htransfers, fun a token htoken hrune => ?_⟩
      exact ⟨token, (congrFun ht a).trans htoken, hrune, le_rfl⟩
  | moved hq hk ht hs =>
      exact ⟨hsame hk.processed, htransfers, supply_of_tokenMoved ht fun _ => hs.le⟩
  | burned hc hk ht hs =>
      exact ⟨hsame hk.processed, htransfers,
        supply_of_tokenMoved ht fun _ => (Nat.le_add_right _ _).trans hs.le⟩
  | minted ht hm => exact absurd (hreg.deployed _ _ ht).minter hm
  | released hq hself hkept ht hs =>
      exact ⟨hsame hkept.2.2.2, htransfers,
        supply_of_tokenMoved ht fun _ => (Nat.le_add_right _ _).trans hs.le⟩
  | @accepted m t signatures address token token' ha hself hkept hfresh hproc hrune haddr hnonzero
      ht hs hb hother hlog =>
      have hadmits := (step_switches h).1
      rw [ha] at hadmits
      obtain ⟨hthawed, hlive⟩ := hadmits
      have hne : t.rune ≠ rune := by
        rintro rfl
        exact RuneBridge.not_stopped hthawed hlive hstopped
      have htokenRune : token.rune = t.rune := by
        obtain ⟨registered, hregistered, heq⟩ := hreg.byRune t.rune (haddr ▸ hnonzero)
        rw [haddr, ht.before] at hregistered
        rw [Option.some.inj hregistered, heq]
      refine ⟨fun txHash vout => ?_, htransfers, supply_of_tokenMoved ht fun hrune => ?_⟩
      · rw [RuneBridge.isTransferFromBtcProcessed, hproc]
        exact if_neg fun hkey => hne hkey.2.2.symm
      · exact absurd (htokenRune.symm.trans hrune) hne
  | @registered newToken r hq hcall hself hnew hrune hfresh htokens hbyRune hbyToken hlist hproc =>
      refine ⟨hsame hproc, htransfers, fun a token htoken hrune => ⟨token, ?_, hrune, le_rfl⟩⟩
      have hother : a ≠ newToken := by
        rintro rfl
        rw [Option.isNone_iff_eq_none.1 hfresh.2.2.1] at htoken
        cases htoken
      rw [htokens, Function.update_of_ne hother, htoken]

end World

/-- **A stop stops a rune.**  From a reachable state in which the bridge is frozen or the rune
paused, and until a guard unfreezes the bridge or an admin unpauses the rune, the stop lasts and
the rune stands still, whatever else is called by whomever; and a frozen bridge is paused. -/
theorem stopped_runes_stand_still [Erc20 T] [AccessControlEnumerable R] [LawfulErc20 T]
    {tr rest : List (Msg × Call Sig)}
    (h : ContractRun C tr w) (hstopped : w.bridge.Stopped rune)
    (hrest : Run (fun w₀ => w₀ = w) (fun w a w' => ¬ w.LiftedBy rune a ∧ World.Step C w a w')
      rest w') :
    w'.bridge.Stopped rune ∧ (w'.bridge.frozen = true → w'.bridge.paused = true) ∧
      World.StandsStill rune w w' := by
  have hinv : (∃ tr : List (Msg × Call Sig), ContractRun C tr w') ∧ w'.bridge.Stopped rune ∧
      World.StandsStill rune w w' := by
    refine hrest.stateInvariant (I := fun w' => (∃ tr : List (Msg × Call Sig),
      ContractRun C tr w') ∧ w'.bridge.Stopped rune ∧ World.StandsStill rune w w') ?_ ?_
    · rintro w' rfl
      exact ⟨⟨tr, h⟩, hstopped, .refl rune w'⟩
    · rintro w₁ a w₂ ⟨⟨tr₁, hrun⟩, hstop, hstill⟩ ⟨hlift, hs⟩
      have hstep := World.standsStill_of_step (World.wellRegistered_of_run hrun)
        (World.paused_of_frozen hrun) hstop hs
      exact ⟨⟨_, hrun.step hs⟩, World.stopped_of_step hstop hs hlift, hstill.trans hstep⟩
  obtain ⟨⟨tr', hrun⟩, hstop, hstill⟩ := hinv
  exact ⟨hstop, World.paused_of_frozen hrun, hstill⟩

/-- An admin freezes the bridge of `Deployment`, and a holder burns tokens. -/
theorem stopped_runes_stand_still_deployment :
    ∃ w w' : World Balances RoleLists, w.bridge.frozen = true ∧ World.StandsStill 7 w w' ∧
      (w'.tokens 10).map RuneToken.totalSupply = some 39000 := by
  obtain ⟨w, hrun, hw⟩ := Deployment.run_of_eval (Deployment.calls ++ [(⟨3, 0⟩, .freeze)])
    (fun w => (w.bridge.frozen, (w.step symbolicCrypto ⟨5, 0⟩ (.tokenBurn 10 66)).map fun w' =>
      (w'.tokens 10).map RuneToken.totalSupply)) (true, .ok (some 39000)) (by decide +kernel)
  obtain ⟨hfrozen, hburned⟩ := Prod.mk.inj hw
  cases hstep : w.step symbolicCrypto ⟨5, 0⟩ (.tokenBurn 10 66) with
  | error e =>
      rw [hstep] at hburned
      cases hburned
  | ok w' =>
      rw [hstep] at hburned
      have hlift : ¬ w.LiftedBy 7
          ((⟨5, 0⟩, .tokenBurn 10 66) : Msg × Call (Address × Bytes)) := by
        intro hlift
        cases hlift
      have hrest : Run (fun w₀ => w₀ = w) (fun w a w' => ¬ w.LiftedBy 7 a ∧
          World.Step symbolicCrypto w a w') ([] ++ [(⟨5, 0⟩, .tokenBurn 10 66)]) w' :=
        .step (.init rfl) ⟨hlift, hstep⟩
      obtain ⟨-, -, hstill⟩ := stopped_runes_stand_still hrun (.inl hfrozen) hrest
      exact ⟨w, w', hfrozen, hstill, Except.ok.inj hburned⟩

end NbteBridge
