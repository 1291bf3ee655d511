import NbteBridge.Foundations.Lists
import NbteBridge.Bridge.System

/-!
# Mints stand on deposits

A mint that the contract accepts was signed by an honest node, so the output it names was in a block
then, with at least the runes that are minted, and it is the only mint of that output and rune.  As
long as the nodes are asked to sign mints of deposits only, the runes accepted come to no more than
those deposited.
-/

namespace NbteBridge

open Checked Coins Runs

/-! ## The transfers of a run -/

/-- The transfer a call brings onto the bridge. -/
def acceptedTransfer {Sig : Type} (a : Msg × Call Sig) : Option TransferFromBtc :=
  match a.2 with
  | .acceptTransferFromBtc t _ => some t
  | _ => none

def acceptedTransfers {Sig : Type} (tr : List (Msg × Call Sig)) : List TransferFromBtc :=
  tr.filterMap acceptedTransfer

lemma acceptedRuneAmount_eq {Sig : Type} (rune : Uint256) (tr : List (Msg × Call Sig)) :
    acceptedRuneAmount rune tr = ((acceptedTransfers tr).map fun t =>
      if t.rune = rune then t.runeAmount.toNat else 0).sum := by
  rw [acceptedTransfers, Lists.sum_map_filterMap]
  refine congrArg List.sum (List.map_congr_left fun a _ => ?_)
  obtain ⟨m, call⟩ := a
  cases call <;> rfl

lemma acceptedKeys_eq {Sig : Type} (tr : List (Msg × Call Sig)) :
    acceptedKeys tr = (acceptedTransfers tr).map fun t => (t.btcTxId, t.btcTxVout, t.rune) := by
  rw [acceptedKeys, acceptedTransfers, List.map_filterMap]
  refine List.filterMap_congr fun a _ => ?_
  obtain ⟨m, call⟩ := a
  cases call <;> rfl

lemma eq_of_acceptedTransfer {Sig : Type} {m : Msg} {call : Call Sig} {t : TransferFromBtc}
    (h : acceptedTransfer (m, call) = some t) :
    ∃ signatures, call = .acceptTransferFromBtc t signatures := by
  unfold acceptedTransfer at h
  split at h
  · rename_i t' signatures hcall
    obtain rfl := Option.some.inj h
    exact ⟨signatures, hcall⟩
  · cases h

lemma Abi.toNat_of_uint256 {n : ℤ} {word : Uint256} (h : Abi.uint256 n = .ok word) :
    (word.toNat : ℤ) = n := by
  simp only [Abi.uint256, bind_eq_ok, exists_unit, require_eq_ok, pure_eq_ok] at h
  obtain ⟨⟨hlow, hhigh⟩, rfl⟩ := h
  rw [BitVec.toNat_ofInt]
  omega

/-- A node signs no mint of nothing. -/
lemma RuneBridgeService.netAmount_ne_zero_of_answer {Hash : Type} {service : RuneBridgeService Hash}
    {views : Views Hash} {message : SignRuneToEvmTransferQuestion}
    {answer : SignRuneToEvmTransferAnswer Hash}
    (h : service.answerSignRuneToEvmTransferQuestion views message = .ok answer) :
    message.transfer.netAmountRaw ≠ 0 := by
  simp only [answerSignRuneToEvmTransferQuestion, bind_eq_ok, exists_unit, require_eq_ok] at h
  obtain ⟨_, _, _, _, _, _, _, _, _, _, _, _, _, _, _, hne, _⟩ := h
  exact hne

namespace BridgeSetup

variable {Node T R Hash Sig : Type} [Erc20 T] [AccessControlEnumerable R]
  {B : BridgeSetup Node Hash Sig}

/-- A mint of an output at a deposit address that holds at least the runes. -/
structure StandsOn (B : BridgeSetup Node Hash Sig) (mined : List MinedTransaction)
    (t : TransferFromBtc) : Prop where
  deposit : ∃ coin ∈ made (paymentsOf mined), B.isDeposit coin.owner = true ∧
    B.abi.bytes32 coin.id.txid = some t.btcTxId ∧ coin.id.vout = t.btcTxVout.toNat ∧
    ∃ r : Rune, r.n = t.rune.toNat ∧ t.runeAmount.toNat ≤ coin.value (B.idOf r)

lemma StandsOn.concat {mined : List MinedTransaction} {t : TransferFromBtc}
    (h : B.StandsOn mined t) (m : MinedTransaction) : B.StandsOn (mined ++ [m]) t := by
  obtain ⟨coin, hcoin, hrest⟩ := h.deposit
  refine ⟨coin, ?_, hrest⟩
  rw [paymentsOf_concat, made_concat]
  exact List.mem_append_left _ hcoin

omit [Erc20 T] in
/-- **What a signed mint stands on.** -/
lemma standsOn_of_answer (hB : B.Lawful) {w : World T R} {mined : List MinedTransaction}
    (hmined : MinedInOrder mined) {node : Node} {views : Views Hash}
    {question : SignRuneToEvmTransferQuestion} {answer : SignRuneToEvmTransferAnswer Hash}
    (hreports : ∀ output, views.ordClient.getOrdOutput question.transfer.txid
        question.transfer.vout = .ok output →
      views.ordClient.Reports B.idOf (chainOf mined) question.transfer.outpoint)
    (hreads : views.contract.Reads (w.contractViews B.abi B.crypto))
    (hdeposit : ∀ coin ∈ made (paymentsOf mined), coin.id = question.transfer.outpoint →
      B.isDeposit coin.owner = true)
    (h : (B.federation.service node).answerSignRuneToEvmTransferQuestion views question =
      .ok answer) :
    ∃ t, answer.messageHash = getAcceptTransferFromBtcMessageHash B.crypto w.self t ∧
      B.StandsOn mined t := by
  obtain ⟨response, rune, output, messageHash, -, -, -, hnet, houtput, hbalance, hhash, rfl⟩ :=
    RuneBridgeService.checked_of_answer h
  have hne := RuneBridgeService.netAmount_ne_zero_of_answer h
  obtain ⟨output', houtput', hruns, -⟩ := (hreports output houtput).getOrdOutput hB.idOf_injective
  obtain rfl : output = output' := Except.ok.inj (houtput.symm.trans houtput')
  have hamount : (chainOf mined question.transfer.outpoint (B.idOf rune) : ℤ) =
      question.transfer.amountRaw := by rw [← hruns, hbalance]
  have hnonneg : 0 ≤ question.transfer.amountRaw := by omega
  have hlt : question.transfer.amountRaw < 2 ^ 128 := by
    have hchain := hmined.chainOf_lt question.transfer.outpoint (B.idOf rune)
    rw [← hamount]
    exact_mod_cast hchain
  rw [netAmountRaw_eq hnonneg hlt (hB.nodes_fee node)] at hnet
  have hle := netOf_le hnonneg (hB.nodes_fee node)
  have hnetNonneg := netOf_nonneg hnonneg (hB.nodes_fee node)
  -- something is minted, so the output is there
  have hmade : question.transfer.outpoint ∈ outpointsOf mined := by
    by_contra hnot
    have hzero : chainOf mined question.transfer.outpoint (B.idOf rune) = 0 :=
      valueAt_of_notMem hnot
    rw [hzero] at hamount
    omega
  obtain ⟨coin, hcoin, hid⟩ := List.mem_map.1 hmade
  have hvalue : chainOf mined question.transfer.outpoint (B.idOf rune) =
      coin.value (B.idOf rune) := by
    rw [← hid, chainOf, valueAt_of_mem hmined.outpointsOf_nodup hcoin, if_pos rfl]
  have hreal := hreads.messageHash _ _ _ _ _ _ hhash
  simp only [World.contractViews, bind_eq_ok, pure_eq_ok] at hreal
  obtain ⟨t, ht, rfl⟩ := hreal
  simp only [Abi.transferFromBtc, bind_eq_ok, orError_eq_ok, pure_eq_ok] at ht
  obtain ⟨to_, -, runeWord, hrune, amountWord, hamountWord, txid, htxid, vout, hvout, rfl⟩ := ht
  have hruneNat := Abi.toNat_of_uint256 hrune
  have hamountNat := Abi.toNat_of_uint256 hamountWord
  have hvoutNat := Abi.toNat_of_uint256 hvout
  refine ⟨_, rfl, coin, hcoin, hdeposit coin hcoin hid, ?_, ?_, rune, ?_, ?_⟩
  · rw [hid]
    exact htxid
  · rw [hid]
    exact_mod_cast hvoutNat.symm
  · exact_mod_cast hruneNat.symm
  · show amountWord.toNat ≤ coin.value (B.idOf rune)
    omega

/-- **What an accepted mint stands on**: an honest node signed it. -/
lemma attested_of_accept [LawfulAccessControlEnumerable R] (hB : B.Lawful)
    {s : BridgeState Node T R Hash} {m : Msg} {t : TransferFromBtc} {signatures : List Sig}
    {world : World T R} (hunforged : B.Unforged s t signatures)
    (h : s.world.acceptTransferFromBtc B.crypto m t signatures = .ok world) :
    ∃ node, (node, getAcceptTransferFromBtcMessageHash B.crypto s.world.self t) ∈ s.attested := by
  obtain ⟨ac, hac, -, -, -, hchecked⟩ := checked_of_accept h
  obtain ⟨federators, signers, hfederators, hmem, hsigners, hlen, hall⟩ :=
    recovered_of_checked hchecked
  obtain ⟨a, ha, node, hhonest, haddress⟩ := hunforged.honest ac hac federators signers hfederators
    hmem hsigners hlen fun a ha => (hall a ha).1
  obtain ⟨-, signature, hsignature, hrecovered⟩ := hall a ha
  have hsigned := hB.ideal.recover_signed _ _ a ⟨node, hhonest, haddress⟩ hrecovered
  exact ⟨node, hunforged.given signature hsignature node hhonest a haddress hsigned⟩

end BridgeSetup

/-! ## Runs -/

lemma World.self_of_effect {T R Hash Sig : Type} [Erc20 T] [AccessControlEnumerable R]
    {C : Crypto Hash Sig} {w w' : World T R} (hreg : w.WellRegistered) {a : Msg × Call Sig}
    (he : Effect C w a w') : w'.self = w.self := by
  cases he with
  | quiet _ hk => exact hk.self
  | moved _ hk => exact hk.self
  | burned _ hk => exact hk.self
  | minted ht hm => exact absurd (hreg.deployed _ _ ht).minter hm
  | released _ hself => exact hself
  | accepted _ hself => exact hself
  | registered _ _ hself => exact hself

namespace BridgeSetup

variable {Node T R Hash Sig : Type} [Erc20 T] [AccessControlEnumerable R] [LawfulErc20 T]
  [DecidableEq Node] {B : BridgeSetup Node Hash Sig}
  {condition : BridgeState Node T R Hash → BridgeAction Node Hash Sig → Prop}
  {tr : List (BridgeAction Node Hash Sig)} {s s' : BridgeState Node T R Hash}
  {a : BridgeAction Node Hash Sig}

omit [LawfulErc20 T] in
/-- The contracts' part of a run is a run of theirs. -/
lemma contractRun (h : B.RunWith condition tr s) :
    ContractRun B.crypto (BridgeAction.callsOf tr) s.world := by
  refine h.invariant (I := fun tr s => ContractRun B.crypto (BridgeAction.callsOf tr) s.world)
    (fun s hs => .init hs.world) ?_
  intro tr s a s' _ hrun hs
  cases hs.2 with
  | @call m call world _ hstep =>
      have hcalls : BridgeAction.callsOf (tr ++ [.call m call]) =
          BridgeAction.callsOf tr ++ [(m, call)] := by simp [BridgeAction.callsOf]
      rw [hcalls]
      exact hrun.step hstep
  | node => simpa [BridgeAction.callsOf] using hrun
  | signMint => simpa [BridgeAction.callsOf] using hrun
  | mine => simpa [BridgeAction.callsOf] using hrun

omit [LawfulErc20 T] in
/-- Blocks are in order. -/
lemma minedInOrder (h : B.RunWith condition tr s) : MinedInOrder s.mined := by
  refine h.stateInvariant (fun s hs => hs.mined) ?_
  intro s a s' hmined hs
  cases hs.2 with
  | mine hminable => exact hmined.concat hminable
  | call => exact hmined
  | node => exact hmined
  | signMint => exact hmined

/-- The mints signed by honest nodes, and those the contract accepted, stand on deposits. -/
structure MintsStand (B : BridgeSetup Node Hash Sig) (s : BridgeState Node T R Hash)
    (tr : List (BridgeAction Node Hash Sig)) : Prop where
  attested : ∀ node hash, (node, hash) ∈ s.attested →
    ∃ t, hash = getAcceptTransferFromBtcMessageHash B.crypto s.world.self t ∧ B.StandsOn s.mined t
  accepted : ∀ t ∈ acceptedTransfers (BridgeAction.callsOf tr), B.StandsOn s.mined t

/-- **One step.** -/
lemma MintsStand.step [LawfulAccessControlEnumerable R] (hB : B.Lawful)
    (hreg : s.world.WellRegistered) (hmined : MinedInOrder s.mined) (hstand : B.MintsStand s tr)
    (hcondition : B.MintsDeposits s a) (h : B.Step s a s') : B.MintsStand s' (tr ++ [a]) := by
  have hcalls : BridgeAction.callsOf (tr ++ [a]) =
      BridgeAction.callsOf tr ++ BridgeAction.callsOf [a] := by simp [BridgeAction.callsOf]
  cases h with
  | @call m call world hunforged hstep =>
      have hself := World.self_of_effect hreg (World.step_effect hstep)
      refine ⟨fun node hash hmem => ?_, fun t ht => ?_⟩
      · obtain ⟨t, rfl, hstands⟩ := hstand.attested node hash hmem
        exact ⟨t, by rw [hself], hstands⟩
      · rw [hcalls, acceptedTransfers, List.filterMap_append] at ht
        rcases List.mem_append.1 ht with hold | hnew
        · exact hstand.accepted t hold
        · -- the transfer that is accepted now
          obtain ⟨a, ha, haccepted⟩ := List.mem_filterMap.1 hnew
          obtain rfl : a = (m, call) := List.mem_singleton.1 ha
          obtain ⟨signatures, rfl⟩ := eq_of_acceptedTransfer haccepted
          have haccept : s.world.acceptTransferFromBtc B.crypto m t signatures = .ok world := by
            simp only [World.Step, World.step, bind_eq_ok, exists_unit] at hstep
            exact hstep.2.2
          obtain ⟨node, hattested⟩ := attested_of_accept hB (hunforged t signatures rfl) haccept
          obtain ⟨t', hhash, hstands⟩ := hstand.attested node _ hattested
          obtain ⟨-, rfl⟩ :=
            acceptTransferFromBtcMessage_inj (hB.ideal.keccak256_injective hhash)
          exact hstands
  | node => exact ⟨hstand.attested, by simpa [hcalls, BridgeAction.callsOf] using hstand.accepted⟩
  | @signMint node views question answer honest hreports hreads hanswer =>
      refine ⟨fun node' hash hmem => ?_,
        by simpa [hcalls, BridgeAction.callsOf] using hstand.accepted⟩
      rcases List.mem_append.1 hmem with hold | hnew
      · exact hstand.attested node' hash hold
      · obtain ⟨-, rfl⟩ := Prod.mk.inj (List.mem_singleton.1 hnew)
        exact standsOn_of_answer hB hmined hreports hreads hcondition hanswer
  | @mine m hminable hsigned =>
      refine ⟨fun node hash hmem => ?_, fun t ht => ?_⟩
      · obtain ⟨t, hhash, hstands⟩ := hstand.attested node hash hmem
        exact ⟨t, hhash, hstands.concat m⟩
      · have hold : t ∈ acceptedTransfers (BridgeAction.callsOf tr) := by
          simpa [hcalls, BridgeAction.callsOf] using ht
        exact (hstand.accepted t hold).concat m

lemma mintsStand [LawfulAccessControlEnumerable R] (hB : B.Lawful)
    (hcondition : ∀ s a, condition s a → B.MintsDeposits s a) (h : B.RunWith condition tr s) :
    B.MintsStand s tr := by
  refine h.invariant (I := fun tr s => B.MintsStand s tr) (fun s hs => ⟨?_, ?_⟩) ?_
  · intro node hash hmem
    rw [hs.attested] at hmem
    cases hmem
  · intro t ht
    cases ht
  · intro tr s a s' hrun hstand hs
    exact hstand.step hB (World.wellRegistered_of_run (contractRun hrun)) (minedInOrder hrun)
      (hcondition s a hs.1) hs.2

/-- Each accepted transfer of a rune has an output of its own. -/
lemma accepted_le_deposited [LawfulAccessControlEnumerable R] (hB : B.Lawful)
    (hcondition : ∀ s a, condition s a → B.MintsDeposits s a) (h : B.RunWith condition tr s)
    {r : Rune} {rune : Uint256} (hr : r.n = rune.toNat) :
    acceptedRuneAmount rune (BridgeAction.callsOf tr) ≤
      total B.isDeposit (made (paymentsOf s.mined)) (B.idOf r) := by
  have hstand := mintsStand hB hcondition h
  have hkeys := (World.processed_of_run (contractRun h)).1
  rw [acceptedKeys_eq] at hkeys
  rw [acceptedRuneAmount_eq, total]
  refine sum_le_sum_of_vouchers (R := fun t coin => t.rune = rune ∧
    B.abi.bytes32 coin.id.txid = some t.btcTxId ∧ coin.id.vout = t.btcTxVout.toNat)
    hkeys.of_map ?_ ?_
  · intro t ht hne
    have hrune : t.rune = rune := by
      by_contra hother
      exact hne (if_neg hother)
    obtain ⟨coin, hcoin, hdeposit, htxid, hvout, r', hr', hle⟩ := (hstand.accepted t ht).deposit
    obtain rfl : r' = r := Rune.eq_of_n (hr'.trans (by rw [hrune, hr]))
    refine ⟨coin, hcoin, ⟨hrune, htxid, hvout⟩, ?_⟩
    rw [if_pos hrune, if_pos hdeposit]
    exact hle
  · rintro t ht t' ht' coin ⟨hrune, htxid, hvout⟩ ⟨hrune', htxid', hvout'⟩
    refine List.inj_on_of_nodup_map hkeys ht ht' ?_
    rw [Prod.mk.injEq, Prod.mk.injEq]
    exact ⟨Option.some.inj (htxid.symm.trans htxid'),
      BitVec.eq_of_toNat_eq (hvout.symm.trans hvout'), hrune.trans hrune'.symm⟩

end BridgeSetup

end NbteBridge
