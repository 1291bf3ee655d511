import Mathlib

/-!
# Feeds read by height

A feed has a list of items at every height.  A reader who has seen everything up to one height asks
for what lies above it, in ranges that follow one another, and sorts what it gets.  Done again and
again, this yields every item once, in order: ranges that tile an interval of heights give a
permutation of what lies in it (`Tiles.perm`), and sorted parts that follow one another are sorted
together (`InOrder.append`).
-/

namespace Feeds

variable {E : Type*} (feed : ℤ → List E) {a b c : ℤ}

/-- The items above one height, up to another. -/
def between (a b : ℤ) : List E :=
  (List.range (b - a).toNat).flatMap fun i : ℕ => feed (a + 1 + i)

variable {feed}

lemma between_of_le (h : b ≤ a) : between feed a b = [] := by
  have hlen : (b - a).toNat = 0 := by omega
  rw [between, hlen]
  rfl

lemma between_append (hab : a ≤ b) (hbc : b ≤ c) :
    between feed a c = between feed a b ++ between feed b c := by
  have hlen : (c - a).toNat = (b - a).toNat + (c - b).toNat := by omega
  rw [between, hlen, List.range_add, List.flatMap_append, List.flatMap_map]
  have hfeed : (fun i : ℕ => feed (a + 1 + ((b - a).toNat + i : ℕ))) =
      fun i : ℕ => feed (b + 1 + i) := by
    funext i
    congr 1
    omega
  rw [hfeed]
  rfl

lemma mem_between {e : E} : e ∈ between feed a b ↔ ∃ h, a < h ∧ h ≤ b ∧ e ∈ feed h := by
  rw [between, List.mem_flatMap]
  constructor
  · rintro ⟨i, hi, he⟩
    rw [List.mem_range] at hi
    exact ⟨a + 1 + i, by omega, by omega, he⟩
  · rintro ⟨h, hlt, hle, he⟩
    refine ⟨(h - a - 1).toNat, by rw [List.mem_range]; omega, ?_⟩
    have heq : a + 1 + ((h - a - 1).toNat : ℤ) = h := by omega
    rw [heq]
    exact he

lemma between_eq_nil (h : ∀ k, a < k → k ≤ b → feed k = []) : between feed a b = [] := by
  rw [List.eq_nil_iff_forall_not_mem]
  intro e he
  obtain ⟨k, hlt, hle, hmem⟩ := mem_between.1 he
  rw [h k hlt hle] at hmem
  exact absurd hmem (by simp)

/-- A list read as a feed, by the heights of its items. -/
def ofList (height : E → ℤ) (items : List E) (h : ℤ) : List E :=
  items.filter fun e => height e = h

lemma between_ofList (height : E → ℤ) (items : List E) (a b : ℤ) :
    (between (ofList height items) a b).Perm
      (items.filter fun e => a < height e ∧ height e ≤ b) := by
  by_cases hle : b ≤ a
  · rw [between_of_le hle, List.filter_eq_nil_iff.2]
    intro e _
    simp only [decide_eq_true_eq]
    omega
  · obtain ⟨n, rfl⟩ : ∃ n : ℕ, b = a + n := ⟨(b - a).toNat, by omega⟩
    clear hle
    induction n with
    | zero =>
        rw [between_of_le (by omega), List.filter_eq_nil_iff.2]
        intro e _
        simp only [decide_eq_true_eq]
        omega
    | succ n ih =>
        have hlast : between (ofList height items) (a + n) (a + (n + 1 : ℕ)) =
            ofList height items (a + (n + 1 : ℕ)) := by
          have hone : (a + (n + 1 : ℕ) - (a + n)).toNat = 1 := by omega
          rw [between, hone]
          simp [add_assoc]
        rw [between_append (by omega : a ≤ a + n) (by omega), hlast]
        -- the items up to `a + n + 1` are those up to `a + n` and those at the last height
        refine .trans ?_ (List.filter_append_perm (fun e => height e ≤ a + n) _)
        rw [List.filter_filter, List.filter_filter]
        refine List.Perm.append (ih.trans (.of_eq ?_)) (.of_eq ?_)
        · refine List.filter_congr fun e _ => ?_
          rw [← Bool.decide_and, decide_eq_decide]
          omega
        · refine List.filter_congr fun e _ => ?_
          rw [← decide_not, ← Bool.decide_and, decide_eq_decide]
          omega

/-! ## Ranges -/

/-- Ranges that are not empty, follow one another and fill the heights from `a` to `b`. -/
def Tiles : List (ℤ × ℤ) → ℤ → ℤ → Prop
  | [], a, b => a = b + 1
  | range :: ranges, a, b =>
      range.1 = a ∧ range.1 ≤ range.2 ∧ range.2 ≤ b ∧ Tiles ranges (range.2 + 1) b

namespace Tiles

variable {range : ℤ × ℤ} {ranges : List (ℤ × ℤ)}

lemma le_of_mem (h : Tiles ranges a b) (hmem : range ∈ ranges) :
    a ≤ range.1 ∧ range.1 ≤ range.2 ∧ range.2 ≤ b := by
  induction ranges generalizing a with
  | nil => exact absurd hmem (by simp)
  | cons first ranges ih =>
      obtain ⟨rfl, hle, hend, hrest⟩ := h
      rcases List.mem_cons.1 hmem with rfl | hmem
      · exact ⟨le_rfl, hle, hend⟩
      · obtain ⟨hstart, hrange⟩ := ih hrest hmem
        exact ⟨by omega, hrange⟩

/-- They do not overlap. -/
lemma pairwise (h : Tiles ranges a b) : ranges.Pairwise fun range range' => range.2 < range'.1 := by
  induction ranges generalizing a with
  | nil => exact List.Pairwise.nil
  | cons range ranges ih =>
      obtain ⟨rfl, hle, hend, hrest⟩ := h
      refine List.pairwise_cons.2 ⟨fun range' hrange' => ?_, ih hrest⟩
      have hstart := (hrest.le_of_mem hrange').1
      omega

/-- They leave no gap. -/
lemma cover (h : Tiles ranges a b) (height : ℤ) :
    (a ≤ height ∧ height ≤ b) ↔ ∃ range ∈ ranges, range.1 ≤ height ∧ height ≤ range.2 := by
  constructor
  · intro hheight
    induction ranges generalizing a with
    | nil =>
        obtain rfl : a = b + 1 := h
        omega
    | cons range ranges ih =>
        obtain ⟨rfl, hle, hend, hrest⟩ := h
        by_cases hin : height ≤ range.2
        · exact ⟨range, by simp, hheight.1, hin⟩
        · obtain ⟨range', hrange', hheight'⟩ := ih hrest ⟨by omega, hheight.2⟩
          exact ⟨range', by simp [hrange'], hheight'⟩
  · rintro ⟨range, hrange, hstart, hend⟩
    obtain ⟨hstart', -, hend'⟩ := h.le_of_mem hrange
    omega

/-- **What the ranges read is what lies between.** -/
lemma perm (h : Tiles ranges a b) {parts : List (List E)}
    (hparts : List.Forall₂ (fun range part => part.Perm (between feed (range.1 - 1) range.2))
      ranges parts) : parts.flatten.Perm (between feed (a - 1) b) := by
  induction hparts generalizing a with
  | nil =>
      obtain rfl : a = b + 1 := h
      rw [between_of_le (by omega)]
      rfl
  | @cons range part ranges parts hpart hrest ih =>
      obtain ⟨rfl, hle, hend, htiles⟩ := h
      have hsplit : between feed (range.1 - 1) b =
          between feed (range.1 - 1) range.2 ++ between feed range.2 b :=
        between_append (by omega) hend
      have hih := ih htiles
      rw [add_sub_cancel_right] at hih
      rw [List.flatten_cons, hsplit]
      exact hpart.append hih

end Tiles

/-! ## Order -/

variable (feed) in
/-- The items between two heights, each as often as the feed has it, in the order `le`. -/
structure InOrder (le : E → E → Prop) (a b : ℤ) (items : List E) : Prop where
  perm : items.Perm (between feed a b)
  sorted : items.Pairwise le

namespace InOrder

variable {le : E → E → Prop} {items items' : List E}

lemma nil (h : b ≤ a) : InOrder feed le a b [] :=
  ⟨by rw [between_of_le h], List.Pairwise.nil⟩

/-- One part after the other, where the order is by height first. -/
lemma append (height : E → ℤ) (hheight : ∀ h, ∀ e ∈ feed h, height e = h)
    (hle : ∀ e e', height e < height e' → le e e') (hab : a ≤ b) (hbc : b ≤ c)
    (h : InOrder feed le a b items) (h' : InOrder feed le b c items') :
    InOrder feed le a c (items ++ items') where
  perm := by
    rw [between_append hab hbc]
    exact h.perm.append h'.perm
  sorted := by
    refine List.pairwise_append.2 ⟨h.sorted, h'.sorted, fun e he e' he' => hle e e' ?_⟩
    obtain ⟨k, -, hk, hek⟩ := mem_between.1 (h.perm.mem_iff.1 he)
    obtain ⟨k', hk', -, hek'⟩ := mem_between.1 (h'.perm.mem_iff.1 he')
    rw [hheight k e hek, hheight k' e' hek']
    omega

end InOrder

end Feeds
