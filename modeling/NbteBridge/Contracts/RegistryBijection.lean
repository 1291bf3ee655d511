import NbteBridge.Contracts.Reference
import NbteBridge.Contracts.Registry

/-!
# The registry is a bijection

Over whole runs, the maps between runes and tokens are inverse to each other, the list of tokens is
the history of the registrations, and what was registered stays.  Zero, the missing marker of both
maps, is neither a rune nor a token.
-/

namespace NbteBridge

open Checked Runs

/-- The tokens registered by calls, oldest first. -/
def registeredTokens {Sig : Type} (tr : List (Msg × Call Sig)) : List Address :=
  tr.filterMap fun a => a.2.registration.map Prod.fst

namespace World

variable {T R Hash Sig : Type}
  {C : Crypto Hash Sig} {w w' : World T R} {a : Msg × Call Sig}

/-- The two maps and the list, against each other and the deployed tokens. -/
structure RegistryConsistent (w : World T R) (tr : List (Msg × Call Sig)) : Prop where
  /-- The maps are inverse to each other, away from zero. -/
  inverse : ∀ rune token, rune ≠ 0 → token ≠ 0 →
    (w.bridge.tokensByRune rune = token ↔ w.bridge.runesByToken token = rune)
  zero : w.bridge.tokensByRune 0 = 0 ∧ w.bridge.runesByToken 0 = 0
  range : ∀ rune, w.bridge.tokensByRune rune ≠ 0 → 1 ≤ rune.toNat ∧ rune.toNat ≤ 2 ^ 128 - 1
  /-- The registered tokens are those deployed, each with its own rune. -/
  deployed : ∀ address, w.bridge.runesByToken address ≠ 0 ↔ ∃ token, w.tokens address = some token
  own : ∀ address token, w.tokens address = some token →
    token.rune = w.bridge.runesByToken address
  /-- The list has them in the order of their registrations. -/
  order : w.bridge.runeTokens = registeredTokens tr
  nodup : w.bridge.runeTokens.Nodup
  listed : ∀ address, address ∈ w.bridge.runeTokens ↔ w.bridge.runesByToken address ≠ 0
  views : ∀ rune address,
    w.bridge.getTokenByRune rune = .ok address ↔ w.bridge.getRuneByToken address = .ok rune

/-- What is registered stays as it is. -/
structure RegistryKept (w w' : World T R) : Prop where
  tokensByRune : ∀ rune, w.bridge.tokensByRune rune ≠ 0 →
    w'.bridge.tokensByRune rune = w.bridge.tokensByRune rune
  runesByToken : ∀ address, w.bridge.runesByToken address ≠ 0 →
    w'.bridge.runesByToken address = w.bridge.runesByToken address
  runeTokens : ∃ new, w'.bridge.runeTokens = w.bridge.runeTokens ++ new

/-! ## The maps -/

lemma RegistryKept.refl (w : World T R) : w.RegistryKept w :=
  ⟨fun _ _ => rfl, fun _ _ => rfl, [], (List.append_nil _).symm⟩

lemma RegistryKept.trans {w'' : World T R} (h : w.RegistryKept w') (h' : w'.RegistryKept w'') :
    w.RegistryKept w'' := by
  obtain ⟨new, hnew⟩ := h.runeTokens
  obtain ⟨new', hnew'⟩ := h'.runeTokens
  refine ⟨fun rune hrune => ?_, fun address haddress => ?_, new ++ new', ?_⟩
  · have hfirst := h.tokensByRune rune hrune
    rw [h'.tokensByRune rune (by rw [hfirst]; exact hrune), hfirst]
  · have hfirst := h.runesByToken address haddress
    rw [h'.runesByToken address (by rw [hfirst]; exact haddress), hfirst]
  · rw [hnew', hnew, List.append_assoc]

lemma WellRegistered.inverse (h : w.WellRegistered) {rune : Uint256} {token : Address}
    (hrune : rune ≠ 0) (htoken : token ≠ 0) :
    w.bridge.tokensByRune rune = token ↔ w.bridge.runesByToken token = rune := by
  constructor
  · rintro rfl
    obtain ⟨t, ht, rfl⟩ := h.byRune rune htoken
    exact (h.deployed _ t ht).runesByToken
  · rintro rfl
    obtain ⟨t, ht⟩ := h.byToken token hrune
    have hd := h.deployed token t ht
    rw [hd.runesByToken]
    exact hd.tokensByRune

lemma WellRegistered.tokensByRune_zero (h : w.WellRegistered) : w.bridge.tokensByRune 0 = 0 := by
  by_contra hne
  obtain ⟨token, htoken, hrune⟩ := h.byRune 0 hne
  exact (h.deployed _ token htoken).rune_ne_zero hrune

lemma WellRegistered.runesByToken_zero (h : w.WellRegistered) : w.bridge.runesByToken 0 = 0 := by
  by_contra hne
  obtain ⟨token, htoken⟩ := h.byToken 0 hne
  exact (h.deployed 0 token htoken).address_ne_zero rfl

lemma WellRegistered.views (h : w.WellRegistered) (rune : Uint256) (address : Address) :
    w.bridge.getTokenByRune rune = .ok address ↔ w.bridge.getRuneByToken address = .ok rune := by
  simp only [RuneBridge.getTokenByRune, RuneBridge.getRuneByToken, bind_eq_ok, exists_unit,
    require_eq_ok, pure_eq_ok]
  constructor
  · rintro ⟨hrune, haddress, rfl⟩
    have hback := (h.inverse hrune haddress).1 rfl
    exact ⟨haddress, by rw [hback]; exact hrune, hback⟩
  · rintro ⟨haddress, hrune, rfl⟩
    have hback := (h.inverse hrune haddress).2 rfl
    exact ⟨hrune, by rw [hback]; exact haddress, hback⟩

/-! ## The list -/

/-- The list is without repetition and has what the map has. -/
structure Listed (w : World T R) (tr : List (Msg × Call Sig)) : Prop where
  order : w.bridge.runeTokens = registeredTokens tr
  nodup : w.bridge.runeTokens.Nodup
  listed : ∀ address, address ∈ w.bridge.runeTokens ↔ w.bridge.runesByToken address ≠ 0

lemma registeredTokens_append (tr : List (Msg × Call Sig)) (a : Msg × Call Sig) :
    registeredTokens (tr ++ [a]) =
      registeredTokens tr ++ (a.2.registration.map Prod.fst).toList := by
  rw [registeredTokens, List.filterMap_append]
  cases h : a.2.registration with
  | none => simp [registeredTokens, h]
  | some registration => simp [registeredTokens, h]

lemma listed_of_initialized (h : w.Initialized) : w.Listed ([] : List (Msg × Call Sig)) := by
  obtain ⟨w₀, hw₀, ac, validator, hinit⟩ := h
  simp only [initializeBridge, doSetEvmToBtcTransferPolicy, hw₀.bridge, bind_eq_ok, exists_unit,
    pure_eq_ok] at hinit
  obtain ⟨-, -, -, -, rfl⟩ := hinit
  refine ⟨rfl, List.nodup_nil, fun address => ?_⟩
  exact ⟨fun hmem => absurd hmem (List.not_mem_nil), fun hne => absurd rfl hne⟩

variable [Erc20 T] [AccessControlEnumerable R]

/-- A call that registers does so with a new rune. -/
lemma doRegisterRune_of_registration {newToken : Address} {r : RuneRegistration}
    (h : Step C w a w') (hcall : a.2.registration = some (newToken, r)) :
    w.doRegisterRune newToken r = .ok w' := by
  obtain ⟨m, call⟩ := a
  simp only [Step, step, bind_eq_ok, exists_unit, require_eq_ok] at h
  obtain ⟨-, -, h⟩ := h
  cases call
  case acceptRuneRegistrationRequest newToken' r' signatures =>
    obtain ⟨rfl, rfl⟩ := Prod.mk.inj (Option.some.inj hcall)
    simp only [acceptRuneRegistrationRequest, bind_eq_ok, exists_unit] at h
    obtain ⟨-, -, -, ac, -, -, h⟩ := h
    exact h
  case registerRune newToken' r' =>
    obtain ⟨rfl, rfl⟩ := Prod.mk.inj (Option.some.inj hcall)
    simp only [registerRune, bind_eq_ok, exists_unit] at h
    exact h.2
  all_goals exact absurd hcall (by simp [Call.registration])

/-- **One step of the registry.**  A call registers a new rune at a fresh address, or leaves maps
and list as they are. -/
lemma registry_step [LawfulErc20 T] (hw : w.WellRegistered) (h : Step C w a w') :
    (∃ newToken r, a.2.registration = some (newToken, r) ∧ w.bridge.tokensByRune r.rune = 0 ∧
      r.rune ≠ 0 ∧ w.isFresh newToken ∧
      w'.bridge.tokensByRune = Function.update w.bridge.tokensByRune r.rune newToken ∧
      w'.bridge.runesByToken = Function.update w.bridge.runesByToken newToken r.rune ∧
      w'.bridge.runeTokens = w.bridge.runeTokens ++ [newToken]) ∨
    (a.2.registration = none ∧ w'.bridge.tokensByRune = w.bridge.tokensByRune ∧
      w'.bridge.runesByToken = w.bridge.runesByToken ∧
      w'.bridge.runeTokens = w.bridge.runeTokens) := by
  cases hcall : a.2.registration with
  | some registration =>
      obtain ⟨newToken, r⟩ := registration
      have hregister := doRegisterRune_of_registration h hcall
      simp only [doRegisterRune, RuneBridge.validateRune, bind_eq_ok, exists_unit, require_eq_ok,
        pure_eq_ok] at hregister
      obtain ⟨hnew, ⟨-, hne⟩, hfresh, rfl⟩ := hregister
      exact .inl ⟨newToken, r, rfl, RuneBridge.free_of_not_registered hnew hne, hne, hfresh, rfl,
        rfl, rfl⟩
  | none =>
      refine .inr ⟨rfl, ?_⟩
      cases step_effect h with
      | quiet hq hk ht => exact ⟨hk.tokensByRune, hk.runesByToken, hk.runeTokens⟩
      | moved hq hk ht hs => exact ⟨hk.tokensByRune, hk.runesByToken, hk.runeTokens⟩
      | burned hc hk ht hs => exact ⟨hk.tokensByRune, hk.runesByToken, hk.runeTokens⟩
      | minted ht hm => exact absurd (hw.deployed _ _ ht).minter hm
      | released hq hself hreg ht hs hl => exact ⟨hreg.1, hreg.2.1, hreg.2.2.1⟩
      | accepted ha hself hreg hfresh hproc hrune haddr hnz ht hs hb ho hl => exact hreg
      | registered hq hregistered =>
          rw [hcall] at hregistered
          exact absurd hregistered (by simp)

lemma Listed.step [LawfulErc20 T] {tr : List (Msg × Call Sig)} (hw : w.WellRegistered)
    (hl : w.Listed tr) (h : Step C w a w') : w'.Listed (tr ++ [a]) := by
  rcases registry_step hw h with
    ⟨newToken, r, hcall, -, hrune, hfresh, -, hbyToken, hlist⟩ | ⟨hcall, -, hbyToken, hlist⟩
  · have hunlisted : newToken ∉ w.bridge.runeTokens := by
      intro hmem
      obtain ⟨token, htoken⟩ := hw.byToken newToken ((hl.listed newToken).1 hmem)
      obtain ⟨-, -, hnone, -⟩ := hfresh
      rw [htoken] at hnone
      exact absurd hnone (by simp)
    refine ⟨?_, ?_, fun address => ?_⟩
    · rw [hlist, registeredTokens_append, hcall, hl.order]
      rfl
    · rw [hlist]
      exact List.Nodup.append hl.nodup (List.nodup_singleton newToken) (by simpa using hunlisted)
    · rw [hlist, hbyToken, List.mem_append, List.mem_singleton, hl.listed]
      by_cases haddress : address = newToken
      · rw [haddress, Function.update_self]
        exact ⟨fun _ => hrune, fun _ => .inr rfl⟩
      · rw [Function.update_of_ne haddress]
        simp [haddress]
  · refine ⟨?_, ?_, fun address => ?_⟩
    · rw [hlist, registeredTokens_append, hcall, hl.order]
      simp
    · rw [hlist]
      exact hl.nodup
    · rw [hlist, hbyToken]
      exact hl.listed address

lemma listed_of_run [LawfulErc20 T] {tr : List (Msg × Call Sig)} (h : ContractRun C tr w) :
    w.Listed tr := by
  refine h.invariant (I := fun tr w => w.Listed tr)
    (fun _ hinit => listed_of_initialized hinit) ?_
  intro tr w a w' hrun hl hs
  exact hl.step (wellRegistered_of_run hrun) hs

/-! ## Nothing is taken back -/

lemma registryKept_of_step [LawfulErc20 T] (hw : w.WellRegistered) (h : Step C w a w') :
    w.RegistryKept w' := by
  rcases registry_step hw h with
    ⟨newToken, r, -, hfree, -, hfresh, hbyRune, hbyToken, hlist⟩ |
      ⟨-, hbyRune, hbyToken, hlist⟩
  · refine ⟨fun rune hrune => ?_, fun address haddress => ?_, [newToken], hlist⟩
    · have hne : rune ≠ r.rune := by
        rintro rfl
        exact hrune hfree
      rw [hbyRune, Function.update_of_ne hne]
    · have hne : address ≠ newToken := by
        rintro rfl
        obtain ⟨token, htoken⟩ := hw.byToken _ haddress
        obtain ⟨-, -, hnone, -⟩ := hfresh
        rw [htoken] at hnone
        exact absurd hnone (by simp)
      rw [hbyToken, Function.update_of_ne hne]
  · exact ⟨fun _ _ => by rw [hbyRune], fun _ _ => by rw [hbyToken], [], by simp [hlist]⟩

end World

/-- **The registry is a bijection.**  In every reachable state the registry is consistent; whatever
is called next, its entries stay; and no call registers a rune again. -/
theorem registry_bijection {T R Hash Sig : Type} [Erc20 T] [LawfulErc20 T]
    [AccessControlEnumerable R] {C : Crypto Hash Sig} {tr : List (Msg × Call Sig)}
    {w : World T R} (hrun : ContractRun C tr w) :
    w.RegistryConsistent tr ∧
    (∀ rest w', Run (fun w₀ => w₀ = w) (World.Step C) rest w' → w.RegistryKept w') ∧
    ∀ a w', World.Step C w a w' → ∀ newToken r, a.2.registration = some (newToken, r) →
      w.bridge.tokensByRune r.rune = 0 ∧ w'.bridge.tokensByRune r.rune = newToken := by
  have hw := World.wellRegistered_of_run hrun
  have hl := World.listed_of_run hrun
  refine ⟨?_, fun rest w' hrest => ?_, fun a w' hs newToken r hcall => ?_⟩
  · refine ⟨fun rune token hrune htoken => hw.inverse hrune htoken,
      ⟨hw.tokensByRune_zero, hw.runesByToken_zero⟩, fun rune hrune => ?_, fun address => ?_,
      fun address token htoken => (hw.deployed _ _ htoken).runesByToken.symm, hl.order, hl.nodup,
      hl.listed, hw.views⟩
    · obtain ⟨token, htoken, rfl⟩ := hw.byRune rune hrune
      have hd := hw.deployed _ _ htoken
      refine ⟨Nat.one_le_iff_ne_zero.2 fun hzero => hd.rune_ne_zero ?_, hd.rune_le⟩
      exact BitVec.eq_of_toNat_eq (by simpa using hzero)
    · refine ⟨hw.byToken address, ?_⟩
      rintro ⟨token, htoken⟩
      rw [(hw.deployed _ _ htoken).runesByToken]
      exact (hw.deployed _ _ htoken).rune_ne_zero
  · -- a continuation of the run keeps both
    have hboth : w'.WellRegistered ∧ w.RegistryKept w' := by
      refine hrest.stateInvariant (I := fun w' => w'.WellRegistered ∧ w.RegistryKept w') ?_ ?_
      · rintro _ rfl
        exact ⟨hw, .refl _⟩
      · rintro w₁ a w₂ ⟨hw₁, hkept⟩ hs
        exact ⟨hw₁.effect (World.step_effect hs), hkept.trans (World.registryKept_of_step hw₁ hs)⟩
    exact hboth.2
  · rcases World.registry_step hw hs with
      ⟨newToken', r', hcall', hfree, -, -, hbyRune, -⟩ | ⟨hnone, -⟩
    · obtain ⟨rfl, rfl⟩ := Prod.mk.inj (Option.some.inj (hcall'.symm.trans hcall))
      exact ⟨hfree, by rw [hbyRune, Function.update_self]⟩
    · rw [hnone] at hcall
      exact absurd hcall (by simp)

theorem registry_bijection_deployment :
    ∃ w : World Balances RoleLists, w.bridge.runeTokens = [10] ∧
      w.bridge.runesByToken 10 = 7 ∧ w.RegistryConsistent Deployment.calls := by
  obtain ⟨w, hrun, hw⟩ := Deployment.run_of_eval Deployment.calls
    (fun w => (w.bridge.runeTokens, w.bridge.runesByToken 10)) ([10], 7) (by decide +kernel)
  obtain ⟨htokens, hrune⟩ := Prod.mk.inj hw
  exact ⟨w, htokens, hrune, (registry_bijection hrun).1⟩

end NbteBridge
