import NbteBridge.Foundations.Lists

/-!
# Certificates

A certificate is a list of signers without repetition and, side by side with it, one signature of
each.  It grows by signers it does not have yet, any first part of it is one, and it survives being
read in another encoding when the encoding tells signers apart.
-/

namespace Certificates

variable {A S A' S' : Type*}

/-- Distinct signers and their signatures. -/
structure Certificate (Signs : A → S → Prop) (signers : List A) (signatures : List S) : Prop where
  nodup : signers.Nodup
  signed : List.Forall₂ Signs signers signatures

namespace Certificate

variable {Signs : A → S → Prop} {signers : List A} {signatures : List S}

lemma nil : Certificate Signs ([] : List A) ([] : List S) := ⟨List.nodup_nil, .nil⟩

lemma length_eq (h : Certificate Signs signers signatures) :
    signers.length = signatures.length :=
  h.signed.length_eq

/-- A new signer. -/
lemma concat (h : Certificate Signs signers signatures) {a : A} {s : S} (ha : a ∉ signers)
    (hs : Signs a s) : Certificate Signs (signers ++ [a]) (signatures ++ [s]) where
  nodup := by
    rw [List.nodup_append]
    refine ⟨h.nodup, List.nodup_singleton a, ?_⟩
    intro b hb c hc hbc
    rw [List.mem_singleton] at hc
    exact ha (hc ▸ hbc ▸ hb)
  signed := List.rel_append h.signed (.cons hs .nil)

/-- The first signers. -/
lemma take (h : Certificate Signs signers signatures) (n : ℕ) :
    Certificate Signs (signers.take n) (signatures.take n) :=
  ⟨h.nodup.sublist (List.take_sublist n signers), List.forall₂_take n h.signed⟩

/-- The same certificate, read through `f` and `g`. -/
lemma decode {f : A → Option A'} {g : S → Option S'} {Signs' : A' → S' → Prop}
    (h : Certificate Signs signers signatures)
    (hf : ∀ a b a', f a = some a' → f b = some a' → a = b)
    (hsigns : ∀ a ∈ signers, ∀ s, Signs a s →
      ∃ a' s', f a = some a' ∧ g s = some s' ∧ Signs' a' s') :
    ∃ signers' signatures', signatures.mapM g = some signatures' ∧
      List.Forall₂ (fun a a' => f a = some a') signers signers' ∧
      Certificate Signs' signers' signatures' := by
  obtain ⟨hnodup, hsigned⟩ := h
  induction hsigned with
  | nil => exact ⟨[], [], rfl, .nil, nil⟩
  | @cons a s signers signatures hs hrest ih =>
      obtain ⟨ha, hnodup⟩ := List.nodup_cons.1 hnodup
      obtain ⟨a', s', hfa, hgs, hs'⟩ := hsigns a (by simp) s hs
      obtain ⟨signers', signatures', hmap, hread, hcert⟩ :=
        ih (fun b hb => hsigns b (by simp [hb])) hnodup
      refine ⟨a' :: signers', s' :: signatures', by simp [hgs, hmap], .cons hfa hread, ?_,
        .cons hs' hcert.signed⟩
      rw [List.nodup_cons]
      refine ⟨fun hmem => ?_, hcert.nodup⟩
      -- the same signer would have been there under the same name
      obtain ⟨b, hb, hfb⟩ := Lists.exists_left_of_forall₂ hread hmem
      exact ha (hf _ _ _ hfa hfb ▸ hb)

end Certificate

end Certificates
