import Mathlib

/-!
# Lists

Facts about lists related element by element, and a sum over a list without repetition.
-/

namespace Lists

variable {α β : Type*}

lemma exists_right_of_forall₂ {P : α → β → Prop} {as : List α} {bs : List β}
    (h : List.Forall₂ P as bs) {a : α} (ha : a ∈ as) : ∃ b ∈ bs, P a b := by
  induction h with
  | nil => exact absurd ha (by simp)
  | @cons a' b' as bs hab hrest ih =>
      rcases List.mem_cons.1 ha with rfl | ha
      · exact ⟨b', by simp, hab⟩
      · obtain ⟨b, hb, hp⟩ := ih ha
        exact ⟨b, by simp [hb], hp⟩

lemma exists_left_of_forall₂ {P : α → β → Prop} {as : List α} {bs : List β}
    (h : List.Forall₂ P as bs) {b : β} (hb : b ∈ bs) : ∃ a ∈ as, P a b :=
  exists_right_of_forall₂ h.flip hb

/-- Where at most one element counts, the sum is its value. -/
lemma sum_map_ite_eq_of_nodup [DecidableEq α] {as : List α} (h : as.Nodup) (a : α) (n : ℕ) :
    (as.map fun b => if a = b then n else 0).sum = if a ∈ as then n else 0 := by
  induction as with
  | nil => rfl
  | cons b as ih =>
      obtain ⟨hb, has⟩ := List.nodup_cons.1 h
      rw [List.map_cons, List.sum_cons, ih has]
      by_cases hab : a = b
      · subst hab
        simp [hb]
      · simp [hab]

/-- A sum over what is picked, as one over all, where what is not picked counts nothing. -/
lemma sum_map_filterMap (g : α → Option β) (f : β → ℕ) (as : List α) :
    ((as.filterMap g).map f).sum = (as.map fun a => ((g a).map f).getD 0).sum := by
  induction as with
  | nil => rfl
  | cons a as ih =>
      rw [List.map_cons, List.sum_cons, ← ih, List.filterMap_cons]
      cases g a with
      | none => exact (Nat.zero_add _).symm
      | some b => rfl

/-- A list is what its indices read. -/
lemma filterMap_range_getElem? (as : List α) :
    (List.range as.length).filterMap (fun i => as[i]?) = as := by
  induction as with
  | nil => rfl
  | cons a as ih =>
      rw [List.length_cons, List.range_succ_eq_map, List.filterMap_cons, List.filterMap_map]
      exact congrArg (a :: ·) ih

/-- What is picked comes first, where with an element all before it are picked. -/
lemma filter_append_filter_not {P : α → Bool} {as : List α}
    (h : as.Pairwise fun a b => P b = true → P a = true) :
    as.filter P ++ (as.filter fun a => !P a) = as := by
  induction as with
  | nil => rfl
  | cons a as ih =>
      obtain ⟨hfirst, hrest⟩ := List.pairwise_cons.1 h
      cases ha : P a with
      | true =>
          rw [List.filter_cons_of_pos ha, List.filter_cons_of_neg (by simp [ha]), List.cons_append,
            ih hrest]
      | false =>
          have hnone : as.filter P = [] := by
            refine List.filter_eq_nil_iff.2 fun b hb hpb => ?_
            rw [hfirst b hb hpb] at ha
            cases ha
          have hall := ih hrest
          rw [hnone, List.nil_append] at hall
          rw [List.filter_cons_of_neg (by simp [ha]), hnone, List.nil_append,
            List.filter_cons_of_pos (by simp [ha]), hall]

/-- The first part of a list without repetition that has all its elements is the list. -/
lemma eq_of_isPrefix_of_subset {as bs : List α} (h : as.IsPrefix bs) (hnodup : bs.Nodup)
    (hsub : ∀ b ∈ bs, b ∈ as) : as = bs := by
  obtain ⟨cs, rfl⟩ := h
  cases cs with
  | nil => exact (List.append_nil as).symm
  | cons c cs =>
      have hc := (List.nodup_append.1 hnodup).2.2 c (hsub c (by simp)) c (by simp)
      exact absurd rfl hc

/-- A list up to an element that was just written. -/
lemma take_succ_set {as : List α} {n : ℕ} (h : n < as.length) (a : α) :
    (as.set n a).take (n + 1) = as.take n ++ [a] := by
  rw [List.take_add_one, List.take_set_of_le (le_refl n), List.getElem?_set_self h]
  rfl

/-- What stands before the first separator, and what after it. -/
lemma append_cons_inj {c : α} {as as' bs bs' : List α} (ha : c ∉ as) (ha' : c ∉ as')
    (h : as ++ c :: bs = as' ++ c :: bs') : as = as' ∧ bs = bs' := by
  induction as generalizing as' with
  | nil =>
      cases as' with
      | nil => exact ⟨rfl, (List.cons.inj h).2⟩
      | cons a as' => exact absurd (List.cons.inj h).1 fun heq => ha' (by simp [heq])
  | cons a as ih =>
      cases as' with
      | nil => exact absurd (List.cons.inj h).1 fun heq => ha (by simp [heq])
      | cons a' as' =>
          obtain ⟨rfl, hrest⟩ := List.cons.inj h
          obtain ⟨rfl, rfl⟩ := ih (fun hmem => ha (List.mem_cons_of_mem _ hmem))
            (fun hmem => ha' (List.mem_cons_of_mem _ hmem)) hrest
          exact ⟨rfl, rfl⟩

end Lists
