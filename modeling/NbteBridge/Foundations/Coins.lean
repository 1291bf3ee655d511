import NbteBridge.Foundations.Lists
import NbteBridge.Foundations.Peg

/-!
# Coins

A ledger of payments.  A payment spends coins made by earlier ones and makes new coins; each coin
has an owner and holds amounts of any number of assets.  What the owners `p` hold is what is on
their unspent coins.

Nothing is assumed about the amounts a payment makes, so a payment may lose or create any asset.
What a custodian of deposits answers for is then one number for each payment, its *outflow*: the
amount on the custodian's coins that it spends beyond what it makes for the custodian as change.
Deposits are covered by what is held and what flowed out (`total_le_held_add_outflow`), and with the
books of a pegged asset this bounds the supply (`Peg.Solvent.backed`).
-/

namespace Coins

structure Coin (Id Owner Asset : Type*) where
  id : Id
  owner : Owner
  value : Asset → ℕ

structure Payment (Id Owner Asset : Type*) where
  inputs : List Id
  outputs : List (Coin Id Owner Asset)

section Ledger

variable {Id Owner Asset : Type*}

/-- The coins there ever were. -/
def made (h : List (Payment Id Owner Asset)) : List (Coin Id Owner Asset) :=
  h.flatMap Payment.outputs

def spent (h : List (Payment Id Owner Asset)) : List Id := h.flatMap Payment.inputs

/-- What lies on the coins of the owners `p`. -/
def total (p : Owner → Bool) (coins : List (Coin Id Owner Asset)) (a : Asset) : ℕ :=
  (coins.map fun c => if p c.owner then c.value a else 0).sum

variable {p d c : Owner → Bool} {h : List (Payment Id Owner Asset)} {x : Payment Id Owner Asset}
  {coins coins' : List (Coin Id Owner Asset)} {a : Asset}

@[simp] lemma made_concat : made (h ++ [x]) = made h ++ x.outputs := by simp [made]

@[simp] lemma spent_concat : spent (h ++ [x]) = spent h ++ x.inputs := by simp [spent]

@[simp] lemma total_nil : total p ([] : List (Coin Id Owner Asset)) a = 0 := rfl

@[simp] lemma total_cons (coin : Coin Id Owner Asset) :
    total p (coin :: coins) a = (if p coin.owner then coin.value a else 0) + total p coins a := by
  simp [total]

@[simp] lemma total_append : total p (coins ++ coins') a = total p coins a + total p coins' a := by
  simp [total]

lemma total_made (h : List (Payment Id Owner Asset)) :
    total p (made h) a = (h.map fun x => total p x.outputs a).sum := by
  induction h with
  | nil => rfl
  | cons x h ih =>
      rw [made, List.flatMap_cons, total_append, List.map_cons, List.sum_cons, ← ih]
      rfl

/-- Owners who are apart hold no more than all of them. -/
lemma total_add_total_le (hd : ∀ o, d o = true → p o = true) (hc : ∀ o, c o = true → p o = true)
    (hdc : ∀ o, d o = true → c o = false) :
    total d coins a + total c coins a ≤ total p coins a := by
  induction coins with
  | nil => rfl
  | cons coin coins ih =>
      simp only [total_cons]
      by_cases hdo : d coin.owner = true
      · rw [if_pos hdo, if_neg (by rw [hdc _ hdo]; simp), if_pos (hd _ hdo)]
        omega
      · rw [if_neg hdo]
        by_cases hco : c coin.owner = true
        · rw [if_pos hco, if_pos (hc _ hco)]
          omega
        · rw [if_neg hco]
          omega

lemma total_filter_add (q : Coin Id Owner Asset → Bool) :
    total p (coins.filter q) a + total p (coins.filter fun c => !q c) a = total p coins a := by
  induction coins with
  | nil => rfl
  | cons coin coins ih =>
      by_cases hq : q coin = true
      · rw [List.filter_cons_of_pos hq, List.filter_cons_of_neg (by simp [hq]), total_cons,
          total_cons]
        omega
      · rw [List.filter_cons_of_neg hq, List.filter_cons_of_pos (by simp [hq]), total_cons,
          total_cons]
        omega

variable [DecidableEq Id]

/-- The coins nobody has spent. -/
def unspent (h : List (Payment Id Owner Asset)) : List (Coin Id Owner Asset) :=
  (made h).filter fun c => c.id ∉ spent h

/-- What the owners `p` hold. -/
def held (p : Owner → Bool) (h : List (Payment Id Owner Asset)) (a : Asset) : ℕ :=
  total p (unspent h) a

/-- What lies on the coin `i`, if it is one of the owners `p`. -/
def valueAt (p : Owner → Bool) (h : List (Payment Id Owner Asset)) (i : Id) (a : Asset) : ℕ :=
  total p ((made h).filter fun c => c.id = i) a

/-- What a payment takes from the owners `p` beyond the change it makes for the owners `c`. -/
def outflow (p c : Owner → Bool) (h : List (Payment Id Owner Asset)) (x : Payment Id Owner Asset)
    (a : Asset) : ℕ :=
  (x.inputs.map fun i => valueAt p h i a).sum - total c x.outputs a

/-! ## What is spent -/

/-- Coins read off one by one. -/
lemma sum_total_filter {ids : List Id} (hids : ids.Nodup) (coins : List (Coin Id Owner Asset)) :
    (ids.map fun i => total p (coins.filter fun c => c.id = i) a).sum =
      total p (coins.filter fun c => c.id ∈ ids) a := by
  induction coins with
  | nil => simp
  | cons coin coins ih =>
      have hsplit (i : Id) : total p ((coin :: coins).filter fun c => c.id = i) a =
          (if coin.id = i then (if p coin.owner then coin.value a else 0) else 0) +
            total p (coins.filter fun c => c.id = i) a := by
        by_cases h : coin.id = i
        · rw [List.filter_cons_of_pos (by simpa using h), total_cons, if_pos h]
        · rw [List.filter_cons_of_neg (by simpa using h), if_neg h, zero_add]
      simp only [hsplit, List.sum_map_add, ih]
      rw [Lists.sum_map_ite_eq_of_nodup hids]
      by_cases h : coin.id ∈ ids
      · rw [if_pos h, List.filter_cons_of_pos (by simpa using h), total_cons]
      · rw [if_neg h, List.filter_cons_of_neg (by simpa using h), zero_add]

/-- What was ever made is held or was spent. -/
lemma held_add_spent (hspent : (spent h).Nodup) :
    held p h a + ((spent h).map fun i => valueAt p h i a).sum = total p (made h) a := by
  have hsum := sum_total_filter (p := p) (a := a) hspent (made h)
  have hparts : total p ((made h).filter fun c => decide (c.id ∈ spent h)) a + _ =
      total p (made h) a := total_filter_add fun c => decide (c.id ∈ spent h)
  have hunspent : unspent h = (made h).filter fun c => !decide (c.id ∈ spent h) := by
    simp [unspent]
  rw [held, hunspent]
  simp only [valueAt, hsum]
  omega

omit [DecidableEq Id] in
lemma sum_spent (f : Id → ℕ) (h : List (Payment Id Owner Asset)) :
    ((spent h).map f).sum = (h.map fun x => (x.inputs.map f).sum).sum := by
  induction h with
  | nil => rfl
  | cons x h ih =>
      rw [spent, List.flatMap_cons, List.map_append, List.sum_append, List.map_cons, List.sum_cons,
        ← ih]
      rfl

/-- A coin that nobody made holds nothing. -/
lemma valueAt_of_notMem {i : Id} (hi : i ∉ (made h).map Coin.id) : valueAt p h i a = 0 := by
  have hnone : (made h).filter (fun c => decide (c.id = i)) = [] := by
    refine List.filter_eq_nil_iff.2 fun coin hcoin heq => hi ?_
    exact List.mem_map.2 ⟨coin, hcoin, by simpa using heq⟩
  rw [valueAt, hnone]
  rfl

lemma valueAt_of_mem {coin : Coin Id Owner Asset} (hmade : ((made h).map Coin.id).Nodup)
    (hcoin : coin ∈ made h) :
    valueAt p h coin.id a = if p coin.owner then coin.value a else 0 := by
  unfold valueAt
  generalize made h = coins at hmade hcoin ⊢
  induction coins with
  | nil => cases hcoin
  | cons head coins ih =>
      rw [List.map_cons, List.nodup_cons] at hmade
      have hrest (hnot : coin.id ∉ coins.map Coin.id) :
          coins.filter (fun c => decide (c.id = coin.id)) = [] := by
        refine List.filter_eq_nil_iff.2 fun c hc heq => hnot ?_
        exact List.mem_map.2 ⟨c, hc, by simpa using heq⟩
      rcases List.mem_cons.1 hcoin with rfl | hcoin
      · rw [List.filter_cons_of_pos (by simp), hrest hmade.1, total_cons, total_nil, add_zero]
      · have hne : head.id ≠ coin.id := by
          intro heq
          exact hmade.1 (heq ▸ List.mem_map_of_mem hcoin)
        rw [List.filter_cons_of_neg (by simpa using hne)]
        exact ih hmade.2 hcoin

/-- A coin that is there keeps its value. -/
lemma valueAt_concat {i : Id} (hnew : i ∉ x.outputs.map Coin.id) :
    valueAt p (h ++ [x]) i a = valueAt p h i a := by
  have hnone : x.outputs.filter (fun c => decide (c.id = i)) = [] := by
    refine List.filter_eq_nil_iff.2 fun coin hcoin heq => hnew ?_
    exact List.mem_map.2 ⟨coin, hcoin, by simpa using heq⟩
  rw [valueAt, made_concat, List.filter_append, hnone, List.append_nil]
  rfl

/-- **Deposits are covered** by what the custodian holds and what flowed out: what it was paid at
`d`, and what it made for itself as change at `c`, is all that is ever spent of its coins. -/
theorem total_le_held_add_outflow (hspent : (spent h).Nodup)
    (hd : ∀ o, d o = true → p o = true) (hc : ∀ o, c o = true → p o = true)
    (hdc : ∀ o, d o = true → c o = false) (a : Asset) :
    total d (made h) a ≤ held p h a + (h.map fun x => outflow p c h x a).sum := by
  have hmade := held_add_spent (p := p) (a := a) hspent
  have happart : total d (made h) a + total c (made h) a ≤ total p (made h) a :=
    total_add_total_le hd hc hdc
  rw [sum_spent] at hmade
  have hchange : total c (made h) a = (h.map fun x => total c x.outputs a).sum := total_made h
  have hflow : (h.map fun x => (x.inputs.map fun i => valueAt p h i a).sum).sum ≤
      (h.map fun x => outflow p c h x a).sum + (h.map fun x => total c x.outputs a).sum := by
    rw [← List.sum_map_add]
    refine List.sum_le_sum fun x _ => ?_
    rw [outflow]
    omega
  omega

end Ledger

/-! ## Postings and vouchers -/

/-- Postings, each covered by a voucher of its own, come to no more than the vouchers. -/
theorem sum_le_sum_of_vouchers {α β : Type*} {posted : List α} {vouchers : List β} {g : α → ℕ}
    {f : β → ℕ} {R : α → β → Prop} (hposted : posted.Nodup)
    (hcovered : ∀ x ∈ posted, g x ≠ 0 → ∃ y ∈ vouchers, R x y ∧ g x ≤ f y)
    (hown : ∀ x ∈ posted, ∀ x' ∈ posted, ∀ y, R x y → R x' y → x = x') :
    (posted.map g).sum ≤ (vouchers.map f).sum := by
  classical
  induction posted generalizing vouchers with
  | nil => exact Nat.zero_le _
  | cons x posted ih =>
      obtain ⟨hx, hposted⟩ := List.nodup_cons.1 hposted
      have hown' : ∀ x ∈ posted, ∀ x' ∈ posted, ∀ y, R x y → R x' y → x = x' := fun x hx x' hx' =>
        hown x (List.mem_cons_of_mem _ hx) x' (List.mem_cons_of_mem _ hx')
      rw [List.map_cons, List.sum_cons]
      by_cases hzero : g x = 0
      · rw [hzero, zero_add]
        exact ih hposted (fun x hx => hcovered x (List.mem_cons_of_mem _ hx)) hown'
      · -- the others do without the voucher of this posting
        obtain ⟨y, hy, hxy, hle⟩ := hcovered x List.mem_cons_self hzero
        have hrest : (posted.map g).sum ≤ ((vouchers.erase y).map f).sum := by
          refine ih hposted (fun x' hx' hne => ?_) hown'
          obtain ⟨y', hy', hxy', hle'⟩ := hcovered x' (List.mem_cons_of_mem _ hx') hne
          have hyy : y' ≠ y := by
            rintro rfl
            exact hx (hown x List.mem_cons_self x' (List.mem_cons_of_mem _ hx') _ hxy hxy' ▸ hx')
          exact ⟨y', (List.mem_erase_of_ne hyy).2 hy', hxy', hle'⟩
        have herase := (List.perm_cons_erase hy).map f
        have hsum := herase.sum_eq
        rw [List.map_cons, List.sum_cons] at hsum
        omega

end Coins

/-! ## The supply of a pegged asset -/

/-- **A pegged asset in custody is backed**: what was accepted had been deposited, deposits are held
or flowed out, and nothing flowed out that was not released, so what is held covers the supply and
what was released but has not left. -/
theorem Peg.Solvent.backed {peg : Peg} (h : peg.Solvent) {deposited held outflow paid unpaid : ℕ}
    (haccepted : peg.accepted ≤ deposited) (hheld : deposited ≤ held + outflow)
    (hpaid : outflow ≤ paid) (hreleased : peg.released = paid + unpaid) :
    peg.supply + peg.divisor * unpaid ≤ peg.divisor * held := by
  have hle : peg.divisor * peg.accepted ≤ peg.divisor * (held + paid) :=
    Nat.mul_le_mul_left _ (by omega)
  unfold Peg.Solvent at h
  rw [hreleased, mul_add] at h
  rw [mul_add] at hle
  omega
