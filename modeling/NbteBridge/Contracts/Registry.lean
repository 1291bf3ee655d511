import NbteBridge.Contracts.Effects

/-!
# The registry

In every reachable state the three registry stores agree with the deployed tokens: a token sits
at the address its rune is registered under, carries that rune, has a positive divisor and is
minted by the bridge alone.
-/

namespace NbteBridge

variable {T R : Type}

/-- A token the bridge deployed, at `address`, and what the registry says about it. -/
structure Deployed (w : World T R) (address : Address) (token : RuneToken T) : Prop where
  minter : token.minter = w.self
  divisor_pos : 0 < token.runeAmountDivisor.toNat
  rune_ne_zero : token.rune ≠ 0
  rune_le : token.rune.toNat ≤ 2 ^ 128 - 1
  address_ne_zero : address ≠ 0
  tokensByRune : w.bridge.tokensByRune token.rune = address
  runesByToken : w.bridge.runesByToken address = token.rune

/-- The registry stores agree with the tokens. -/
structure World.WellRegistered (w : World T R) : Prop where
  deployed : ∀ address token, w.tokens address = some token → Deployed w address token
  byRune : ∀ rune, w.bridge.tokensByRune rune ≠ 0 →
    ∃ token, w.tokens (w.bridge.tokensByRune rune) = some token ∧ token.rune = rune
  byToken : ∀ address, w.bridge.runesByToken address ≠ 0 →
    ∃ token, w.tokens address = some token

lemma RuneBridge.free_of_not_registered {b : RuneBridge} {rune : Uint256}
    (h : b.isRuneRegistered rune = false) (hrune : rune ≠ 0) : b.tokensByRune rune = 0 := by
  unfold RuneBridge.isRuneRegistered at h
  rw [if_neg hrune] at h
  simpa using h

namespace World

variable {w w' : World T R}

/-- Moving a token keeps the registry, as long as the registry stores are kept. -/
lemma WellRegistered.of_tokenMoved (h : w.WellRegistered) {address : Address}
    {token token' : RuneToken T} (hself : w'.self = w.self)
    (hrunes : w'.bridge.tokensByRune = w.bridge.tokensByRune)
    (htokens : w'.bridge.runesByToken = w.bridge.runesByToken)
    (hm : TokenMoved w w' address token token') : w'.WellRegistered := by
  have hd := h.deployed _ _ hm.before
  have hterms := hm.terms
  refine ⟨fun a t ht => ?_, fun rune hr => ?_, fun a ha => ?_⟩
  · rw [hm.after] at ht
    by_cases haddr : a = address
    · subst haddr
      rw [Function.update_self] at ht
      obtain rfl := Option.some.inj ht
      exact ⟨hterms.minter.trans (hd.minter.trans hself.symm),
        hterms.runeAmountDivisor ▸ hd.divisor_pos, hterms.rune ▸ hd.rune_ne_zero,
        hterms.rune ▸ hd.rune_le, hd.address_ne_zero,
        by rw [hrunes, hterms.rune, hd.tokensByRune],
        by rw [htokens, hterms.rune, hd.runesByToken]⟩
    · rw [Function.update_of_ne haddr] at ht
      have hold := h.deployed a t ht
      exact ⟨hold.minter.trans hself.symm, hold.divisor_pos, hold.rune_ne_zero, hold.rune_le,
        hold.address_ne_zero, by rw [hrunes, hold.tokensByRune],
        by rw [htokens, hold.runesByToken]⟩
  · rw [hrunes] at hr ⊢
    obtain ⟨t, ht, htr⟩ := h.byRune rune hr
    by_cases haddr : w.bridge.tokensByRune rune = address
    · refine ⟨token', by rw [hm.after, haddr, Function.update_self], ?_⟩
      rw [haddr, hm.before] at ht
      obtain rfl := Option.some.inj ht
      rw [hterms.rune, htr]
    · exact ⟨t, by rw [hm.after, Function.update_of_ne haddr, ht], htr⟩
  · rw [htokens] at ha
    by_cases haddr : a = address
    · exact ⟨token', by rw [hm.after, haddr, Function.update_self]⟩
    · obtain ⟨t, ht⟩ := h.byToken a ha
      exact ⟨t, by rw [hm.after, Function.update_of_ne haddr, ht]⟩

/-- Nothing of the registry or the tokens changed. -/
lemma WellRegistered.of_eq (h : w.WellRegistered) (hself : w'.self = w.self)
    (hrunes : w'.bridge.tokensByRune = w.bridge.tokensByRune)
    (hbyToken : w'.bridge.runesByToken = w.bridge.runesByToken)
    (htokens : w'.tokens = w.tokens) : w'.WellRegistered := by
  refine ⟨fun a t ht => ?_, fun rune hr => ?_, fun a ha => ?_⟩
  · have hold := h.deployed a t (htokens ▸ ht)
    exact ⟨hold.minter.trans hself.symm, hold.divisor_pos, hold.rune_ne_zero, hold.rune_le,
      hold.address_ne_zero, by rw [hrunes, hold.tokensByRune],
      by rw [hbyToken, hold.runesByToken]⟩
  · rw [hrunes] at hr ⊢
    rw [htokens]
    exact h.byRune rune hr
  · rw [hbyToken] at ha
    rw [htokens]
    exact h.byToken a ha

variable {Hash Sig : Type} {C : Crypto Hash Sig}

/-- Nothing is deployed, registered, processed or released at the start of a run. -/
structure Blank (w : World T R) : Prop where
  tokens : ∀ address, w.tokens address = none
  tokensByRune : ∀ rune, w.bridge.tokensByRune rune = 0
  runesByToken : ∀ address, w.bridge.runesByToken address = 0
  processed : ∀ txHash vout rune,
    w.bridge.processedTransfersFromBtc txHash vout rune = false
  released : ∀ token, releasedRuneAmount token w.logs = 0

lemma Initialized.blank (h : w.Initialized) : w.Blank := by
  obtain ⟨w₀, hw₀, ac, validator, hinit⟩ := h
  simp only [initializeBridge, doSetEvmToBtcTransferPolicy, hw₀.bridge, Checked.bind_eq_ok,
    Checked.exists_unit, Checked.pure_eq_ok] at hinit
  obtain ⟨-, -, -, -, rfl⟩ := hinit
  refine ⟨hw₀.tokens, fun _ => rfl, fun _ => rfl, fun _ _ _ => rfl, fun token => ?_⟩
  show releasedRuneAmount token (w₀.logs ++ _) = 0
  rw [hw₀.logs]
  rfl

lemma wellRegistered_of_initialized (h : w.Initialized) : w.WellRegistered := by
  have hblank := h.blank
  refine ⟨fun a t ht => ?_, fun rune hr => ?_, fun a ha => ?_⟩
  · rw [hblank.tokens a] at ht
    exact absurd ht (by simp)
  · exact absurd (hblank.tokensByRune rune) hr
  · exact absurd (hblank.runesByToken a) ha

variable [Erc20 T]

/-- Registering keeps the registry: the rune was free and the address fresh. -/
lemma WellRegistered.registered (h : w.WellRegistered) {newToken : Address}
    {r : RuneRegistration} (hself : w'.self = w.self)
    (hnew : w.bridge.isRuneRegistered r.rune = false)
    (hrune : r.rune.toNat ≤ 2 ^ 128 - 1 ∧ r.rune ≠ 0) (hfresh : w.isFresh newToken)
    (htokens : w'.tokens = Function.update w.tokens newToken
      (some (RuneToken.construct w.self r.name r.symbol r.rune r.runeDivisibility)))
    (hbyRune : w'.bridge.tokensByRune = Function.update w.bridge.tokensByRune r.rune newToken)
    (hbyToken : w'.bridge.runesByToken =
      Function.update w.bridge.runesByToken newToken r.rune) : w'.WellRegistered := by
  obtain ⟨hne, -, hnone, -⟩ := hfresh
  have hnone : w.tokens newToken = none := Option.isNone_iff_eq_none.1 hnone
  have hfree := RuneBridge.free_of_not_registered hnew hrune.2
  refine ⟨fun a t ht => ?_, fun rune hr => ?_, fun a ha => ?_⟩
  · rw [htokens] at ht
    by_cases haddr : a = newToken
    · subst haddr
      rw [Function.update_self] at ht
      obtain rfl := Option.some.inj ht
      exact ⟨hself.symm, RuneToken.runeAmountDivisor_construct_pos _ _ _ _ _, hrune.2, hrune.1,
        hne, by rw [hbyRune]; exact Function.update_self .., by
          rw [hbyToken]; exact Function.update_self ..⟩
    · rw [Function.update_of_ne haddr] at ht
      have hold := h.deployed a t ht
      have hrune' : t.rune ≠ r.rune := by
        intro heq
        have := hold.tokensByRune
        rw [heq, hfree] at this
        exact hold.address_ne_zero this.symm
      exact ⟨hold.minter.trans hself.symm, hold.divisor_pos, hold.rune_ne_zero, hold.rune_le,
        hold.address_ne_zero, by rw [hbyRune, Function.update_of_ne hrune', hold.tokensByRune],
        by rw [hbyToken, Function.update_of_ne haddr, hold.runesByToken]⟩
  · rw [hbyRune] at hr ⊢
    by_cases hr' : rune = r.rune
    · subst hr'
      rw [Function.update_self, htokens, Function.update_self]
      exact ⟨_, rfl, rfl⟩
    · rw [Function.update_of_ne hr'] at hr ⊢
      obtain ⟨t, ht, htr⟩ := h.byRune rune hr
      have haddr : w.bridge.tokensByRune rune ≠ newToken := by
        intro heq
        rw [heq, hnone] at ht
        exact absurd ht (by simp)
      exact ⟨t, by rw [htokens, Function.update_of_ne haddr, ht], htr⟩
  · rw [htokens]
    by_cases haddr : a = newToken
    · exact ⟨_, by rw [haddr, Function.update_self]⟩
    · rw [hbyToken, Function.update_of_ne haddr] at ha
      obtain ⟨t, ht⟩ := h.byToken a ha
      exact ⟨t, by rw [Function.update_of_ne haddr, ht]⟩

/-- **The registry is kept by every call.** -/
theorem WellRegistered.effect (h : w.WellRegistered) {a : Msg × Call Sig}
    (he : Effect C w a w') : w'.WellRegistered := by
  cases he with
  | quiet hq hk ht => exact h.of_eq hk.self hk.tokensByRune hk.runesByToken ht
  | moved hq hk ht hs => exact h.of_tokenMoved hk.self hk.tokensByRune hk.runesByToken ht
  | burned hc hk ht hs => exact h.of_tokenMoved hk.self hk.tokensByRune hk.runesByToken ht
  | minted ht hm => exact absurd (h.deployed _ _ ht).minter hm
  | released hq hself hreg ht hs hl => exact h.of_tokenMoved hself hreg.1 hreg.2.1 ht
  | accepted ha hself hreg hfresh hproc hrune haddr hnz ht hs hb ho hl =>
      exact h.of_tokenMoved hself hreg.1 hreg.2.1 ht
  | registered hq hcall hself hnew hrune hfresh htokens hbyRune hbyToken hlist hproc hlog =>
      exact h.registered hself hnew hrune hfresh htokens hbyRune hbyToken

variable [AccessControlEnumerable R]

/-- The registry is well formed in every reachable state. -/
theorem wellRegistered_of_run [LawfulErc20 T] {tr : List (Msg × Call Sig)}
    (h : ContractRun C tr w) : w.WellRegistered :=
  h.stateInvariant (fun _ => wellRegistered_of_initialized)
    fun _ _ _ hi hs => hi.effect (step_effect hs)

end World

end NbteBridge
