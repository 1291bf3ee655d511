import NbteBridge.Foundations.Peg
import NbteBridge.Contracts.Reference
import NbteBridge.Contracts.Registry

/-!
# Solvency

Each deployed token is a pegged asset: its supply, the runes accepted for it, the runes released
from it and the tokens its holders burned themselves.  Every call is one move of every peg, so
the accounting identity of the abstract peg holds in every reachable state.
-/

namespace NbteBridge

variable {T R Hash Sig : Type}
  {C : Crypto Hash Sig} {w w' : World T R}

/-! ## Tokens after a move -/

namespace TokenMoved

variable {address b : Address} {token token' t : RuneToken T}

lemma after_cases (hm : TokenMoved w w' address token token') (hb : w'.tokens b = some t) :
    (b = address ∧ t = token') ∨ (b ≠ address ∧ w.tokens b = some t) := by
  rw [hm.after] at hb
  by_cases h : b = address
  · rw [h, Function.update_self] at hb
    exact .inl ⟨h, (Option.some.inj hb).symm⟩
  · rw [Function.update_of_ne h] at hb
    exact .inr ⟨h, hb⟩

lemma after_none (hm : TokenMoved w w' address token token') (hb : w'.tokens b = none) :
    b ≠ address ∧ w.tokens b = none := by
  rw [hm.after] at hb
  by_cases h : b = address
  · rw [h, Function.update_self] at hb
    exact absurd hb (by simp)
  · rw [Function.update_of_ne h] at hb
    exact ⟨h, hb⟩

end TokenMoved

variable [Erc20 T]

namespace World

/-- The peg of the token at `address` after the calls `tr`. -/
def pegOf (w : World T R) (tr : List (Msg × Call Sig)) (address : Address)
    (token : RuneToken T) : Peg where
  divisor := token.runeAmountDivisor.toNat
  supply := token.totalSupply
  accepted := acceptedRuneAmount token.rune tr
  released := releasedRuneAmount address w.logs
  burned := burnedDirectly w.self address tr

/-- The books are balanced: every peg is solvent, and nothing was accepted, released or burned
for runes and addresses without a token. -/
structure Balanced (w : World T R) (tr : List (Msg × Call Sig)) : Prop where
  solvent : ∀ address token, w.tokens address = some token →
    (w.pegOf tr address token).Solvent
  unreleased : ∀ address, w.tokens address = none → releasedRuneAmount address w.logs = 0
  unburned : ∀ address, w.tokens address = none → burnedDirectly w.self address tr = 0
  unaccepted : ∀ rune, w.bridge.tokensByRune rune = 0 → acceptedRuneAmount rune tr = 0

variable {tr : List (Msg × Call Sig)} {a : Msg × Call Sig}

lemma acceptedRuneAmount_concat (rune : Uint256) :
    acceptedRuneAmount rune (tr ++ [a]) = acceptedRuneAmount rune tr + acceptedBy rune a := by
  simp [acceptedRuneAmount]

lemma burnedDirectly_concat (self token : Address) :
    burnedDirectly self token (tr ++ [a]) =
      burnedDirectly self token tr + burnedBy self token a := by
  simp [burnedDirectly]

/-! ## One call is one move of each peg -/

/-- A peg none of whose totals changed. -/
lemma pegOf_idle {address : Address} {token token' : RuneToken T}
    (hterms : RuneToken.SameTerms token token') (hs : token'.totalSupply = token.totalSupply)
    (hacc : acceptedBy token.rune a = 0)
    (hrel : releasedRuneAmount address w'.logs = releasedRuneAmount address w.logs)
    (hself : w'.self = w.self) (hburn : burnedBy w.self address a = 0) :
    Peg.Move (w.pegOf tr address token) (w'.pegOf (tr ++ [a]) address token') := by
  have heq : w'.pegOf (tr ++ [a]) address token' = w.pegOf tr address token := by
    simp only [pegOf, hterms.runeAmountDivisor, hterms.rune, hs, hrel, hself,
      acceptedRuneAmount_concat, burnedDirectly_concat, hacc, hburn, add_zero]
  rw [heq]
  exact .idle

lemma pegOf_burn {address : Address} {token token' : RuneToken T} {amount : Uint256}
    (hc : a.2 = .tokenBurn address amount) (hk : Kept w w')
    (ht : TokenMoved w w' address token token')
    (hs : token'.totalSupply + amount.toNat = token.totalSupply) (hsender : a.1.sender ≠ w.self) :
    Peg.Move (w.pegOf tr address token) (w'.pegOf (tr ++ [a]) address token') := by
  have hacc : acceptedBy token.rune a = 0 := by rw [acceptedBy, hc]
  have hburn : burnedBy w.self address a = amount.toNat := by
    rw [burnedBy, hc]
    exact if_pos ⟨rfl, hsender⟩
  have hmove := Peg.Move.burn (p := w.pegOf tr address token) amount.toNat _ hs
  convert hmove using 1
  simp only [pegOf, ht.terms.runeAmountDivisor, ht.terms.rune, hk.released, hk.self,
    acceptedRuneAmount_concat, burnedDirectly_concat, hacc, hburn, add_zero]

lemma pegOf_release {address : Address} {token token' : RuneToken T} {net : ℕ}
    (hq : a.2.IsQuiet) (hself : w'.self = w.self) (ht : TokenMoved w w' address token token')
    (hs : token'.totalSupply + net * token.runeAmountDivisor.toNat = token.totalSupply)
    (hl : releasedRuneAmount address w'.logs = releasedRuneAmount address w.logs + net) :
    Peg.Move (w.pegOf tr address token) (w'.pegOf (tr ++ [a]) address token') := by
  have hmove := Peg.Move.release (p := w.pegOf tr address token) net _ hs
  convert hmove using 1
  simp only [pegOf, ht.terms.runeAmountDivisor, ht.terms.rune, hl, hself,
    acceptedRuneAmount_concat, burnedDirectly_concat, acceptedBy_of_isQuiet hq,
    burnedBy_of_isQuiet hq, add_zero]

lemma pegOf_accept {m : Msg} {t : TransferFromBtc} {signatures : List Sig} {address : Address}
    {token token' : RuneToken T} (ha : a = (m, .acceptTransferFromBtc t signatures))
    (hself : w'.self = w.self) (hrune : token.rune = t.rune)
    (ht : TokenMoved w w' address token token')
    (hs : token'.totalSupply =
      token.totalSupply + t.runeAmount.toNat * token.runeAmountDivisor.toNat)
    (hl : releasedRuneAmount address w'.logs = releasedRuneAmount address w.logs) :
    Peg.Move (w.pegOf tr address token) (w'.pegOf (tr ++ [a]) address token') := by
  have hacc : acceptedBy token.rune a = t.runeAmount.toNat := by
    rw [ha, acceptedBy]
    exact if_pos hrune.symm
  have hburn : burnedBy w.self address a = 0 := by rw [ha, burnedBy]
  have hmove := Peg.Move.accept (p := w.pegOf tr address token) t.runeAmount.toNat
  convert hmove using 1
  simp only [pegOf, ht.terms.runeAmountDivisor, ht.terms.rune, hl, hself, hs,
    acceptedRuneAmount_concat, burnedDirectly_concat, hacc, hburn, add_zero]

/-- The peg of a token just constructed, at an address with nothing on the books. -/
lemma pegOf_construct (hb : w.Balanced tr) {address : Address} {r : RuneRegistration}
    (hq : a.2.IsQuiet) (hself : w'.self = w.self) (hnone : w.tokens address = none)
    (hfree : w.bridge.tokensByRune r.rune = 0)
    (hl : releasedRuneAmount address w'.logs = releasedRuneAmount address w.logs) {owner : Address}
    {token : RuneToken T}
    (htoken : token = .construct owner r.name r.symbol r.rune r.runeDivisibility)
    (hsupply : token.totalSupply = 0) :
    w'.pegOf (tr ++ [a]) address token = Peg.empty token.runeAmountDivisor.toNat := by
  have hrune : token.rune = r.rune := by rw [htoken]; rfl
  simp only [pegOf, Peg.empty, hsupply, hrune, hl, hself, acceptedRuneAmount_concat,
    burnedDirectly_concat, acceptedBy_of_isQuiet hq, burnedBy_of_isQuiet hq, add_zero,
    hb.unreleased _ hnone, hb.unburned _ hnone, hb.unaccepted _ hfree]

/-- **One call is one move of each peg**, and a new token's peg is empty. -/
theorem peg_move [LawfulErc20 T] (hb : w.Balanced tr) (hreg : w.WellRegistered)
    (he : Effect C w a w') (hsender : a.1.sender ≠ w.self) {address : Address}
    {token' : RuneToken T} (ht' : w'.tokens address = some token') :
    (∃ token, w.tokens address = some token ∧
      Peg.Move (w.pegOf tr address token) (w'.pegOf (tr ++ [a]) address token')) ∨
    w'.pegOf (tr ++ [a]) address token' = Peg.empty token'.runeAmountDivisor.toNat := by
  have hrefl (t : RuneToken T) : RuneToken.SameTerms t t := ⟨rfl, rfl, rfl, rfl, rfl⟩
  cases he with
  | quiet hq hk ht =>
      rw [ht] at ht'
      exact .inl ⟨token', ht', pegOf_idle (hrefl _) rfl (acceptedBy_of_isQuiet hq)
        (hk.released _) hk.self (burnedBy_of_isQuiet hq)⟩
  | moved hq hk ht hs =>
      obtain ⟨rfl, rfl⟩ | ⟨-, hold⟩ := ht.after_cases ht'
      · exact .inl ⟨_, ht.before, pegOf_idle ht.terms hs (acceptedBy_of_isQuiet hq)
          (hk.released _) hk.self (burnedBy_of_isQuiet hq)⟩
      · exact .inl ⟨token', hold, pegOf_idle (hrefl _) rfl (acceptedBy_of_isQuiet hq)
          (hk.released _) hk.self (burnedBy_of_isQuiet hq)⟩
  | burned hc hk ht hs =>
      obtain ⟨rfl, rfl⟩ | ⟨hne, hold⟩ := ht.after_cases ht'
      · exact .inl ⟨_, ht.before, pegOf_burn hc hk ht hs hsender⟩
      · have hacc : acceptedBy token'.rune a = 0 := by rw [acceptedBy, hc]
        have hburn : burnedBy w.self address a = 0 := by
          rw [burnedBy, hc]
          exact if_neg fun h => hne h.1.symm
        exact .inl ⟨token', hold, pegOf_idle (hrefl _) rfl hacc (hk.released _) hk.self hburn⟩
  | minted ht hm => exact absurd (hreg.deployed _ _ ht).minter hm
  | released hq hself _ ht hs hl =>
      obtain ⟨rfl, rfl⟩ | ⟨hne, hold⟩ := ht.after_cases ht'
      · have hl' := hl address
        rw [if_pos rfl] at hl'
        exact .inl ⟨_, ht.before, pegOf_release hq hself ht hs hl'⟩
      · have hl' := hl address
        rw [if_neg hne, add_zero] at hl'
        exact .inl ⟨token', hold, pegOf_idle (hrefl _) rfl (acceptedBy_of_isQuiet hq) hl'
          hself (burnedBy_of_isQuiet hq)⟩
  | accepted ha hself _ _ _ hrune haddr hnz ht hs _ _ hl =>
      obtain ⟨rfl, rfl⟩ | ⟨hne, hold⟩ := ht.after_cases ht'
      · obtain ⟨t, ht₀, htrune⟩ := hreg.byRune _ (haddr ▸ hnz)
        rw [haddr, ht.before] at ht₀
        obtain rfl := Option.some.inj ht₀
        exact .inl ⟨_, ht.before, pegOf_accept ha hself htrune ht hs (hl _)⟩
      · -- the rune accepted is registered elsewhere, so it is not this token's
        have hacc : acceptedBy token'.rune a = 0 := by
          rw [ha, acceptedBy]
          refine if_neg fun h => hne ?_
          rw [← (hreg.deployed _ _ hold).tokensByRune, ← h, haddr]
        have hburn : burnedBy w.self address a = 0 := by rw [ha, burnedBy]
        exact .inl ⟨token', hold, pegOf_idle (hrefl _) rfl hacc (hl _) hself hburn⟩
  | @registered newToken r hq _ hself hnew hrune hfresh htokens _ _ _ _ hl =>
      rw [htokens] at ht'
      by_cases haddr : address = newToken
      · subst haddr
        rw [Function.update_self] at ht'
        have hnone : w.tokens address = none := Option.isNone_iff_eq_none.1 hfresh.2.2.1
        have htoken := (Option.some.inj ht').symm
        have hsupply : token'.totalSupply = 0 := by
          rw [htoken]
          exact RuneToken.totalSupply_construct _ _ _ _ _
        exact .inr (pegOf_construct hb hq hself hnone (RuneBridge.free_of_not_registered hnew
          hrune.2) (hl _) htoken hsupply)
      · rw [Function.update_of_ne haddr] at ht'
        exact .inl ⟨token', ht', pegOf_idle (hrefl _) rfl (acceptedBy_of_isQuiet hq) (hl _)
          hself (burnedBy_of_isQuiet hq)⟩

/-- An address without a token had none before, and nothing was released or burned there. -/
lemma untouched_of_none (hreg : w.WellRegistered) (he : Effect C w a w') {address : Address}
    (hnone : w'.tokens address = none) :
    w.tokens address = none ∧ w'.self = w.self ∧ burnedBy w.self address a = 0 ∧
      releasedRuneAmount address w'.logs = releasedRuneAmount address w.logs := by
  cases he with
  | quiet hq hk ht => exact ⟨ht ▸ hnone, hk.self, burnedBy_of_isQuiet hq, hk.released _⟩
  | moved hq hk ht _ =>
      exact ⟨(ht.after_none hnone).2, hk.self, burnedBy_of_isQuiet hq, hk.released _⟩
  | burned hc hk ht _ =>
      obtain ⟨hne, hold⟩ := ht.after_none hnone
      have hburn : burnedBy w.self address a = 0 := by
        rw [burnedBy, hc]
        exact if_neg fun h => hne h.1.symm
      exact ⟨hold, hk.self, hburn, hk.released _⟩
  | minted ht hm => exact absurd (hreg.deployed _ _ ht).minter hm
  | released hq hself _ ht _ hl =>
      obtain ⟨hne, hold⟩ := ht.after_none hnone
      have hl' := hl address
      rw [if_neg hne, add_zero] at hl'
      exact ⟨hold, hself, burnedBy_of_isQuiet hq, hl'⟩
  | accepted ha hself _ _ _ _ _ _ ht _ _ _ hl =>
      have hburn : burnedBy w.self address a = 0 := by rw [ha, burnedBy]
      exact ⟨(ht.after_none hnone).2, hself, hburn, hl _⟩
  | @registered newToken r hq _ hself _ _ _ htokens _ _ _ _ hl =>
      rw [htokens] at hnone
      by_cases haddr : address = newToken
      · rw [haddr, Function.update_self] at hnone
        exact absurd hnone (by simp)
      · rw [Function.update_of_ne haddr] at hnone
        exact ⟨hnone, hself, burnedBy_of_isQuiet hq, hl _⟩

/-- A rune without a token had none before, and none of it was accepted. -/
lemma unaccepted_of_free (hreg : w.WellRegistered) (he : Effect C w a w') {rune : Uint256}
    (hfree : w'.bridge.tokensByRune rune = 0) :
    w.bridge.tokensByRune rune = 0 ∧ acceptedBy rune a = 0 := by
  cases he with
  | quiet hq hk _ => exact ⟨hk.tokensByRune ▸ hfree, acceptedBy_of_isQuiet hq⟩
  | moved hq hk _ _ => exact ⟨hk.tokensByRune ▸ hfree, acceptedBy_of_isQuiet hq⟩
  | burned hc hk _ _ => exact ⟨hk.tokensByRune ▸ hfree, by rw [acceptedBy, hc]⟩
  | minted ht hm => exact absurd (hreg.deployed _ _ ht).minter hm
  | released hq _ hkept _ _ _ => exact ⟨hkept.1 ▸ hfree, acceptedBy_of_isQuiet hq⟩
  | accepted ha _ hkept _ _ _ haddr hnz _ _ _ _ _ =>
      rw [hkept.1] at hfree
      have hacc : acceptedBy rune a = 0 := by
        rw [ha, acceptedBy]
        refine if_neg fun h => hnz ?_
        rw [← haddr, h, hfree]
      exact ⟨hfree, hacc⟩
  | @registered newToken r hq _ _ _ _ hfresh _ hbyRune _ _ _ _ =>
      rw [hbyRune] at hfree
      by_cases hr : rune = r.rune
      · rw [hr, Function.update_self] at hfree
        exact absurd hfree hfresh.1
      · rw [Function.update_of_ne hr] at hfree
        exact ⟨hfree, acceptedBy_of_isQuiet hq⟩

/-- **The books stay balanced.** -/
theorem Balanced.effect [LawfulErc20 T] (hb : w.Balanced tr) (hreg : w.WellRegistered)
    (he : Effect C w a w') (hsender : a.1.sender ≠ w.self) : w'.Balanced (tr ++ [a]) where
  solvent address token' ht' := by
    obtain ⟨token, ht, hmove⟩ | hempty := peg_move hb hreg he hsender ht'
    · exact (hb.solvent address token ht).move hmove
    · rw [hempty]
      exact Peg.solvent_empty _
  unreleased address hnone := by
    obtain ⟨hold, -, -, hrel⟩ := untouched_of_none hreg he hnone
    rw [hrel, hb.unreleased address hold]
  unburned address hnone := by
    obtain ⟨hold, hself, hburn, -⟩ := untouched_of_none hreg he hnone
    rw [hself, burnedDirectly_concat, hburn, hb.unburned address hold]
  unaccepted rune hfree := by
    obtain ⟨hold, hacc⟩ := unaccepted_of_free hreg he hfree
    rw [acceptedRuneAmount_concat, hacc, hb.unaccepted rune hold]

/-! ## Every run -/

lemma balanced_of_initialized (h : w.Initialized) :
    w.Balanced ([] : List (Msg × Call Sig)) where
  solvent address token ht := by
    rw [h.blank.tokens address] at ht
    exact absurd ht (by simp)
  unreleased address _ := h.blank.released address
  unburned _ _ := rfl
  unaccepted _ _ := rfl

variable [AccessControlEnumerable R]

lemma Step.sender_ne_self (h : Step C w a w') : a.1.sender ≠ w.self := by
  simp only [Step, step, Checked.bind_eq_ok, Checked.exists_unit] at h
  exact Checked.require_eq_ok.1 h.1

theorem balanced_of_run [LawfulErc20 T] (h : ContractRun C tr w) : w.Balanced tr := by
  refine h.invariant (I := fun tr w => w.Balanced tr) (fun _ hw => balanced_of_initialized hw) ?_
  intro tr w a w' hrun hb hs
  have hreg : w.WellRegistered := wellRegistered_of_run hrun
  exact hb.effect hreg (step_effect hs) hs.sender_ne_self

end World

/-- **Solvency of the bridge.**  In every reachable state the supply of a registered token, the
value of all runes released from it and the tokens its holders burned themselves make up the
value of all runes accepted for it; so no more is released than was accepted. -/
theorem rune_bridge_solvent [AccessControlEnumerable R] [LawfulErc20 T] {tr : List (Msg × Call Sig)}
    (h : ContractRun C tr w) {address : Address}
    (hreg : w.bridge.isTokenRegistered address = true) :
    ∃ token, w.tokens address = some token ∧
      token.totalSupply +
          token.runeAmountDivisor.toNat * releasedRuneAmount address w.logs +
          burnedDirectly w.self address tr =
        token.runeAmountDivisor.toNat * acceptedRuneAmount token.rune tr ∧
      releasedRuneAmount address w.logs ≤ acceptedRuneAmount token.rune tr := by
  have hwell := World.wellRegistered_of_run h
  have hrune : w.bridge.runesByToken address ≠ 0 := by
    unfold RuneBridge.isTokenRegistered at hreg
    split at hreg
    · exact absurd hreg (by simp)
    · simpa using hreg
  obtain ⟨token, htoken⟩ := hwell.byToken address hrune
  have hsolvent := (World.balanced_of_run h).solvent address token htoken
  exact ⟨token, htoken, hsolvent, hsolvent.released_le (hwell.deployed _ _ htoken).divisor_pos⟩

/-- After the calls of `Deployment`, 1000 runes came in and 597 went out. -/
theorem rune_bridge_solvent_deployment :
    ∃ w : World Balances RoleLists, ContractRun symbolicCrypto Deployment.calls w ∧
      acceptedRuneAmount 7 Deployment.calls = 1000 ∧ releasedRuneAmount 10 w.logs = 597 ∧
      ∃ token, w.tokens 10 = some token ∧
        token.totalSupply + token.runeAmountDivisor.toNat * releasedRuneAmount 10 w.logs +
            burnedDirectly w.self 10 Deployment.calls =
          token.runeAmountDivisor.toNat * acceptedRuneAmount token.rune Deployment.calls ∧
        releasedRuneAmount 10 w.logs ≤ acceptedRuneAmount token.rune Deployment.calls := by
  obtain ⟨w, hrun, hw⟩ := Deployment.run_of_eval Deployment.calls
    (fun w => (w.bridge.isTokenRegistered 10, releasedRuneAmount 10 w.logs)) (true, 597)
    (by decide +kernel)
  obtain ⟨hreg, hreleased⟩ := Prod.mk.inj hw
  exact ⟨w, hrun, by decide +kernel, hreleased, rune_bridge_solvent hrun hreg⟩

end NbteBridge
