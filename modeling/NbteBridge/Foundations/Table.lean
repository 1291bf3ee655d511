import Mathlib

/-!
# Tables with a unique key

A database table as the list of its rows in the order they were added, each under a key that no
other row has.  Rows are added and changed, never removed; `get?_set` says all there is to know
about a change, and `keys_set` that it keeps the order.
-/

namespace Tables

/-- The rows of a table, under distinct keys. -/
structure Table (K V : Type*) where
  rows : List (K × V)
  nodup : (rows.map Prod.fst).Nodup

namespace Table

variable {K V : Type*} [DecidableEq K]

def empty : Table K V := ⟨[], List.nodup_nil⟩

/-- The keys, in the order their rows were added. -/
def keys (t : Table K V) : List K := t.rows.map Prod.fst

/-- The row under a key. -/
def get? (t : Table K V) (k : K) : Option V := t.rows.lookup k

/-- Replace the row under a key in a list of rows. -/
def replace (k : K) (v : V) (rows : List (K × V)) : List (K × V) :=
  rows.map fun p => if p.1 = k then (k, v) else p

lemma map_fst_replace (k : K) (v : V) (rows : List (K × V)) :
    (replace k v rows).map Prod.fst = rows.map Prod.fst := by
  rw [replace, List.map_map]
  refine List.map_congr_left fun p _ => ?_
  by_cases hp : p.1 = k
  · simp [hp]
  · simp [hp]

lemma lookup_eq_none {rows : List (K × V)} {k : K} :
    rows.lookup k = none ↔ k ∉ rows.map Prod.fst := by
  rw [List.lookup_eq_none_iff]
  constructor
  · intro h hk
    obtain ⟨p, hp, rfl⟩ := List.mem_map.1 hk
    exact absurd (h p hp) (by simp)
  · intro h p hp
    have hne : k ≠ p.1 := fun heq => h (heq ▸ List.mem_map_of_mem hp)
    simpa using hne

lemma lookup_replace {rows : List (K × V)} {k k' : K} {v : V} :
    (replace k v rows).lookup k' =
      if k' = k then (if k ∈ rows.map Prod.fst then some v else none) else rows.lookup k' := by
  induction rows with
  | nil => simp [replace]
  | cons p rows ih =>
      obtain ⟨key, value⟩ := p
      have hcons : replace k v ((key, value) :: rows) =
          (if key = k then (k, v) else (key, value)) :: replace k v rows := rfl
      rw [hcons]
      by_cases hkey : key = k
      · subst hkey
        by_cases hk' : k' = key
        · simp [hk']
        · have hbeq : (k' == key) = false := by simpa using hk'
          rw [if_pos rfl, List.lookup_cons, hbeq, List.lookup_cons, hbeq, ih]
          simp [hk']
      · rw [if_neg hkey, List.lookup_cons, List.lookup_cons]
        by_cases hk' : k' = key
        · have hne : ¬ k' = k := fun h => hkey (hk' ▸ h)
          simp [hk', hkey]
        · have hbeq : (k' == key) = false := by simpa using hk'
          have hmem : k ∈ ((key, value) :: rows).map Prod.fst ↔ k ∈ rows.map Prod.fst := by
            simp [Ne.symm hkey]
          rw [hbeq, ih]
          simp only [hmem]

/-- Change the row under a key, or add one at the end. -/
def set (t : Table K V) (k : K) (v : V) : Table K V :=
  if h : k ∈ t.keys then ⟨replace k v t.rows, (map_fst_replace k v t.rows).symm ▸ t.nodup⟩
  else ⟨t.rows ++ [(k, v)], by
    rw [List.map_append, List.nodup_append]
    refine ⟨t.nodup, by simp, fun a ha b hb hab => h ?_⟩
    obtain rfl : b = k := by simpa using hb
    exact hab ▸ ha⟩

/-- Change all rows. -/
def mapRows (t : Table K V) (f : K → V → V) : Table K V :=
  ⟨t.rows.map fun p => (p.1, f p.1 p.2), by rw [List.map_map]; exact t.nodup⟩

@[simp] lemma get?_empty (k : K) : (empty : Table K V).get? k = none := rfl

@[simp] lemma get?_set (t : Table K V) (k k' : K) (v : V) :
    (t.set k v).get? k' = if k' = k then some v else t.get? k' := by
  unfold set get?
  by_cases h : k ∈ t.keys
  · rw [dif_pos h, lookup_replace]
    show (if k' = k then (if k ∈ t.keys then some v else none) else _) = _
    rw [if_pos h]
  · rw [dif_neg h]
    show (t.rows ++ [(k, v)]).lookup k' = _
    rw [List.lookup_append]
    by_cases hk : k' = k
    · rw [hk, lookup_eq_none.2 h, if_pos rfl]
      simp
    · have hbeq : (k' == k) = false := by simpa using hk
      rw [if_neg hk, List.lookup_cons, hbeq]
      simp

/-- A new row changes no other. -/
lemma get?_set_of_none {t : Table K V} {k k' : K} {v v' : V} (h : t.get? k = none)
    (hv : t.get? k' = some v') : (t.set k v).get? k' = some v' := by
  have hne : k' ≠ k := by
    rintro rfl
    rw [h] at hv
    exact absurd hv (by simp)
  rw [get?_set, if_neg hne, hv]

/-- What holds of all rows, and of the one that is written. -/
lemma forall_get?_set {P : K → V → Prop} {t : Table K V} {k : K} {v : V}
    (h : ∀ k' v', t.get? k' = some v' → P k' v') (hv : P k v) :
    ∀ k' v', (t.set k v).get? k' = some v' → P k' v' := by
  intro k' v' hget
  rw [get?_set] at hget
  split at hget
  · rename_i hk
    rw [hk, ← Option.some.inj hget]
    exact hv
  · exact h k' v' hget

@[simp] lemma get?_mapRows (t : Table K V) (f : K → V → V) (k : K) :
    (t.mapRows f).get? k = (t.get? k).map (f k) := by
  have hlookup : ∀ rows : List (K × V),
      (rows.map fun p => (p.1, f p.1 p.2)).lookup k = (rows.lookup k).map (f k) := by
    intro rows
    induction rows with
    | nil => rfl
    | cons p rows ih =>
        rw [List.map_cons, List.lookup_cons, List.lookup_cons]
        by_cases hk : k = p.1
        · subst hk
          simp
        · have hbeq : (k == p.1) = false := by simpa using hk
          simp only [hbeq, ih]
  exact hlookup t.rows

omit [DecidableEq K] in
/-- Rows that a change of all rows leaves alone. -/
lemma filter_mapRows {t : Table K V} {f : K → V → V} {P : K × V → Bool}
    (hP : ∀ p ∈ t.rows, P (p.1, f p.1 p.2) = P p) (h : ∀ p ∈ t.rows, P p = true → f p.1 p.2 = p.2) :
    (t.mapRows f).rows.filter P = t.rows.filter P := by
  have hkept : (t.mapRows f).rows.filter P =
      (t.rows.filter P).map fun p => (p.1, f p.1 p.2) := by
    rw [mapRows, List.filter_map]
    exact congrArg _ (List.filter_congr hP)
  rw [hkept]
  refine (List.map_congr_left fun p hp => ?_).trans (List.map_id _)
  obtain ⟨hp, htrue⟩ := List.mem_filter.1 hp
  rw [h p hp htrue]
  rfl

/-- A change keeps the order of the rows, a new row comes last. -/
lemma keys_set (t : Table K V) (k : K) (v : V) :
    (t.set k v).keys = if k ∈ t.keys then t.keys else t.keys ++ [k] := by
  unfold set
  by_cases h : k ∈ t.keys
  · rw [dif_pos h, if_pos h]
    exact map_fst_replace k v t.rows
  · rw [dif_neg h, if_neg h]
    simp [keys]

lemma mem_keys_set {t : Table K V} {k k' : K} {v : V} (h : k' ∈ t.keys) : k' ∈ (t.set k v).keys := by
  rw [keys_set]
  by_cases hk : k ∈ t.keys
  · rwa [if_pos hk]
  · rw [if_neg hk]
    exact List.mem_append_left _ h

lemma mem_rows_set {t : Table K V} {k : K} {v : V} {p : K × V} (h : p ∈ (t.set k v).rows) :
    p = (k, v) ∨ p ∈ t.rows := by
  unfold set at h
  by_cases hk : k ∈ t.keys
  · rw [dif_pos hk] at h
    obtain ⟨q, hq, rfl⟩ := List.mem_map.1 h
    by_cases hqk : q.1 = k
    · exact .inl (if_pos hqk)
    · rw [if_neg hqk]
      exact .inr hq
  · rw [dif_neg hk] at h
    rcases List.mem_append.1 h with h | h
    · exact .inr h
    · exact .inl (List.mem_singleton.1 h)

lemma lookup_of_mem {rows : List (K × V)} {p : K × V} (hnodup : (rows.map Prod.fst).Nodup)
    (hp : p ∈ rows) : rows.lookup p.1 = some p.2 := by
  induction rows with
  | nil => exact absurd hp (by simp)
  | cons q rows ih =>
      obtain ⟨hq, hrows⟩ := List.nodup_cons.1 hnodup
      rcases List.mem_cons.1 hp with rfl | hp
      · rw [List.lookup_cons, beq_self_eq_true]
      · have hne : (p.1 == q.1) = false := by
          rw [beq_eq_false_iff_ne]
          intro heq
          exact hq (heq ▸ List.mem_map_of_mem hp)
        rw [List.lookup_cons, hne]
        exact ih hrows hp

lemma mem_of_get? {t : Table K V} {k : K} {v : V} (h : t.get? k = some v) : (k, v) ∈ t.rows := by
  obtain ⟨before, after, hrows, -⟩ := List.lookup_eq_some_iff.1 h
  rw [hrows]
  exact List.mem_append_right _ List.mem_cons_self

/-- A new row comes last. -/
lemma rows_set_of_get?_eq_none {t : Table K V} {k : K} (v : V) (h : t.get? k = none) :
    (t.set k v).rows = t.rows ++ [(k, v)] := by
  have hk : k ∉ t.keys := lookup_eq_none.1 h
  rw [set, dif_neg hk]

/-- What a change does not touch of a row stays as it is in all rows. -/
lemma map_rows_set {W : Type*} {f : K × V → W} {t : Table K V} {k : K} {v v' : V}
    (h : t.get? k = some v) (hf : f (k, v') = f (k, v)) :
    (t.set k v').rows.map f = t.rows.map f := by
  have hk : k ∈ t.keys := by
    by_contra hnot
    rw [get?, lookup_eq_none.2 hnot] at h
    exact absurd h (by simp)
  rw [set, dif_pos hk]
  show (t.rows.map fun p => if p.1 = k then (k, v') else p).map f = _
  rw [List.map_map]
  refine List.map_congr_left fun p hp => ?_
  show f (if p.1 = k then (k, v') else p) = f p
  by_cases hpk : p.1 = k
  · -- the only row under the key is the one found
    have hrow : t.rows.lookup p.1 = some p.2 := lookup_of_mem t.nodup hp
    rw [if_pos hpk, hf]
    rw [hpk] at hrow
    rw [get?, hrow] at h
    rw [← Option.some.inj h, ← hpk]
  · rw [if_neg hpk]

lemma mem_keys {t : Table K V} {k : K} : k ∈ t.keys ↔ ∃ v, t.get? k = some v := by
  rw [← Option.ne_none_iff_exists', get?, ne_eq, lookup_eq_none, not_not]
  rfl

end Table

end Tables
