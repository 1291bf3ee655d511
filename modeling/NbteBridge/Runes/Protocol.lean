import Mathlib

/-!
# The Runes protocol

How a Bitcoin transaction moves runes.  The runes of the inputs, with what the transaction mints
and etches, are *unallocated*; the edicts of its runestone allocate them to outputs in order,
each as much as it asks for and as is left; what remains goes to the default output.  Runes on an
`OP_RETURN` output, and all runes of a malformed runestone (a *cenotaph*), are burned.

An output matters here only by its index and by being an `OP_RETURN` or not, so a transaction is
the list of these flags.  The main result, `settle_of_funded`, is for the well-behaved case:
plain edicts that ask for no more than there is.  It does not depend on the order of the edicts.
-/

namespace Runes

/-- The block a rune was etched in, and the index of its transaction there. -/
structure RuneId where
  block : ℕ
  tx : ℕ
  deriving DecidableEq

/-- In an edict: the rune etched by the same transaction. -/
def RuneId.etched : RuneId := ⟨0, 0⟩

structure Edict where
  id : RuneId
  amount : ℕ
  output : ℕ
  deriving DecidableEq

structure Etching where
  premine : ℕ
  deriving DecidableEq

structure Runestone where
  edicts : List Edict
  etching : Option Etching
  mint : Option RuneId
  pointer : Option ℕ
  deriving DecidableEq

/-- A runestone that can be told apart from a cenotaph in a transaction of `n` outputs. -/
structure Runestone.Encodable (r : Runestone) (n : ℕ) : Prop where
  id_valid : ∀ e ∈ r.edicts, 0 < e.id.block ∨ e.id.tx = 0
  amount_lt : ∀ e ∈ r.edicts, e.amount < 2 ^ 128
  output_le : ∀ e ∈ r.edicts, e.output ≤ n
  pointer_lt : ∀ p, r.pointer = some p → p < n

/-- What a transaction's runestone output deciphers to. -/
inductive Artifact
  | runestone (r : Runestone)
  | cenotaph (mint : Option RuneId)
  deriving DecidableEq

/-- An amount of each rune. -/
abbrev Balances := RuneId → ℕ

/-- What the ledger lets the transaction issue: the amount of one mint of each rune, none where
it is not open, and the id its etching gets, none where it is not valid. -/
structure Issuance where
  mintAmount : RuneId → ℕ
  etchedId : Option RuneId

/-- What a mint adds. -/
def minted (i : Issuance) (mint : Option RuneId) : Balances :=
  fun id => if mint = some id then i.mintAmount id else 0

/-- What an etching adds. -/
def premined (i : Issuance) (etching : Option Etching) : Balances :=
  fun id => if i.etchedId = some id then (etching.map Etching.premine).getD 0 else 0

/-! ## Edicts -/

/-- The runes not allocated yet, and those allocated to each output. -/
structure Allocation where
  unallocated : Balances
  allocated : ℕ → Balances

def Allocation.start (unallocated : Balances) : Allocation := ⟨unallocated, fun _ _ => 0⟩

/-- Move `amount` of a rune to an output. -/
def Allocation.allocate (s : Allocation) (id : RuneId) (amount output : ℕ) : Allocation where
  unallocated := Function.update s.unallocated id (s.unallocated id - amount)
  allocated := Function.update s.allocated output
    (Function.update (s.allocated output) id (s.allocated output id + amount))

/-- The outputs that are no `OP_RETURN`. -/
def destinations (outs : List Bool) : List ℕ :=
  (List.range outs.length).filter fun o => outs[o]? = some false

/-- Divide the balance evenly, the first outputs taking one more of the remainder. -/
def divide (s : Allocation) (id : RuneId) (dests : List ℕ) : Allocation :=
  let share := s.unallocated id / dests.length
  let remainder := s.unallocated id % dests.length
  (dests.zipIdx).foldl
    (fun s d => s.allocate id (if d.2 < remainder then share + 1 else share) d.1) s

/-- One edict.  An amount of zero asks for all that is left; the index one past the outputs stands
for every output that is no `OP_RETURN`. -/
def applyEdict (outs : List Bool) (i : Issuance) (s : Allocation) (e : Edict) : Allocation :=
  match if e.id = .etched then i.etchedId else some e.id with
  | none => s
  | some id =>
      if e.output = outs.length then
        let dests := destinations outs
        if dests = [] then s
        else if e.amount = 0 then divide s id dests
        else dests.foldl (fun s o => s.allocate id (min e.amount (s.unallocated id)) o) s
      else
        s.allocate id (if e.amount = 0 then s.unallocated id
          else min e.amount (s.unallocated id)) e.output

def applyEdicts (outs : List Bool) (i : Issuance) (s : Allocation) (edicts : List Edict) :
    Allocation :=
  edicts.foldl (applyEdict outs i) s

/-! ## Settlement -/

/-- Where the runes of a transaction end up. -/
structure Settlement where
  outputs : ℕ → Balances
  burned : Balances

/-- The output that gets what is left: the pointer's, or the first that is no `OP_RETURN`. -/
def defaultOutput (outs : List Bool) (pointer : Option ℕ) : Option ℕ :=
  match pointer with
  | some p => some p
  | none => (destinations outs).head?

/-- The allocation after the default output got what was left. -/
def withDefault (s : Allocation) (default : Option ℕ) : ℕ → Balances :=
  fun o id => s.allocated o id + if default = some o then s.unallocated id else 0

/-- Give the default output what is left and burn what lies on an `OP_RETURN`. -/
def finish (outs : List Bool) (pointer : Option ℕ) (s : Allocation) : Settlement :=
  let default := defaultOutput outs pointer
  { outputs := fun o id => if outs[o]? = some false then withDefault s default o id else 0
    burned := fun id =>
      (if default = none then s.unallocated id else 0) +
        ∑ o ∈ Finset.range outs.length,
          if outs[o]? = some true then withDefault s default o id else 0 }

/-- What a transaction with these outputs does with the runes of its inputs. -/
def settle (outs : List Bool) (i : Issuance) (artifact : Option Artifact) (inputs : Balances) :
    Settlement :=
  match artifact with
  | none => finish outs none (.start inputs)
  | some (.cenotaph mint) =>
      { outputs := fun _ _ => 0, burned := fun id => inputs id + minted i mint id }
  | some (.runestone r) =>
      finish outs r.pointer
        (applyEdicts outs i
          (.start fun id => inputs id + minted i r.mint id + premined i r.etching id) r.edicts)

/-! ## Plain edicts with enough runes -/

/-- An edict that names a rune, an amount and one output. -/
structure Edict.Plain (outs : List Bool) (e : Edict) : Prop where
  id_ne : e.id ≠ .etched
  amount_pos : 0 < e.amount
  output_lt : e.output < outs.length

/-- The amount of a rune the edicts ask for. -/
def requested (edicts : List Edict) : Balances :=
  fun id => (edicts.map fun e => if e.id = id then e.amount else 0).sum

/-- The amount of a rune the edicts ask for at one output. -/
def requestedAt (edicts : List Edict) (output : ℕ) : Balances :=
  fun id => (edicts.map fun e => if e.id = id ∧ e.output = output then e.amount else 0).sum

lemma requested_perm {edicts edicts' : List Edict} (h : edicts.Perm edicts') :
    requested edicts = requested edicts' := by
  funext id
  exact (h.map _).sum_eq

lemma requestedAt_perm {edicts edicts' : List Edict} (h : edicts.Perm edicts') :
    requestedAt edicts = requestedAt edicts' := by
  funext output id
  exact (h.map _).sum_eq

lemma requested_cons (e : Edict) (edicts : List Edict) (id : RuneId) :
    requested (e :: edicts) id = (if e.id = id then e.amount else 0) + requested edicts id := by
  simp [requested]

lemma requestedAt_cons (e : Edict) (edicts : List Edict) (o : ℕ) (id : RuneId) :
    requestedAt (e :: edicts) o id =
      (if e.id = id ∧ e.output = o then e.amount else 0) + requestedAt edicts o id := by
  simp [requestedAt]

variable {outs : List Bool} {i : Issuance}

/-- A plain edict gets what it asks for, as far as there is. -/
lemma applyEdict_of_plain {s : Allocation} {e : Edict} (h : e.Plain outs) :
    applyEdict outs i s e = s.allocate e.id (min e.amount (s.unallocated e.id)) e.output := by
  unfold applyEdict
  rw [if_neg h.id_ne]
  show (if e.output = outs.length then _ else _) = _
  rw [if_neg h.output_lt.ne, if_neg h.amount_pos.ne']

lemma unallocated_allocate (s : Allocation) (id id' : RuneId) (amount o : ℕ) :
    (s.allocate id amount o).unallocated id' =
      s.unallocated id' - if id = id' then amount else 0 := by
  by_cases h : id = id'
  · subst h
    simp [Allocation.allocate]
  · simp [Allocation.allocate, h, Function.update_of_ne (Ne.symm h)]

lemma allocated_allocate (s : Allocation) (id id' : RuneId) (amount o o' : ℕ) :
    (s.allocate id amount o).allocated o' id' =
      s.allocated o' id' + if id = id' ∧ o = o' then amount else 0 := by
  by_cases ho : o = o'
  · subst ho
    by_cases h : id = id'
    · subst h
      simp [Allocation.allocate]
    · simp [Allocation.allocate, h, Function.update_of_ne (Ne.symm h)]
  · simp [Allocation.allocate, ho, Function.update_of_ne (Ne.symm ho)]

/-- **Funded edicts are paid in full**, in whatever order they come. -/
theorem applyEdicts_of_funded {s : Allocation} {edicts : List Edict}
    (hplain : ∀ e ∈ edicts, e.Plain outs)
    (hfunded : ∀ id, requested edicts id ≤ s.unallocated id) :
    (∀ id, (applyEdicts outs i s edicts).unallocated id =
      s.unallocated id - requested edicts id) ∧
    ∀ o id, (applyEdicts outs i s edicts).allocated o id =
      s.allocated o id + requestedAt edicts o id := by
  induction edicts generalizing s with
  | nil => simp [applyEdicts, requested, requestedAt]
  | cons e edicts ih =>
      have he : e.Plain outs := hplain e (by simp)
      have hpaid : min e.amount (s.unallocated e.id) = e.amount := by
        have hle := hfunded e.id
        rw [requested_cons, if_pos rfl] at hle
        exact min_eq_left (by omega)
      have hstep : applyEdict outs i s e = s.allocate e.id e.amount e.output := by
        rw [applyEdict_of_plain he, hpaid]
      have hrest (id : RuneId) :
          requested edicts id ≤ (s.allocate e.id e.amount e.output).unallocated id := by
        have hle := hfunded id
        rw [requested_cons] at hle
        rw [unallocated_allocate]
        omega
      obtain ⟨hunallocated, hallocated⟩ := ih (fun e' h => hplain e' (by simp [h])) hrest
      have hfold : applyEdicts outs i s (e :: edicts) =
          applyEdicts outs i (s.allocate e.id e.amount e.output) edicts := by
        rw [← hstep]
        rfl
      rw [hfold]
      refine ⟨fun id => ?_, fun o id => ?_⟩
      · rw [hunallocated, unallocated_allocate, requested_cons]
        omega
      · rw [hallocated, allocated_allocate, requestedAt_cons]
        omega

/-- **Settlement of a funded runestone.**  Plain edicts to outputs that are no `OP_RETURN`, with
enough runes and a pointer to such an output: each output gets what was asked for it, the pointer's
output all the rest, and nothing is burned. -/
theorem settle_of_funded {r : Runestone} {inputs : Balances} {p : ℕ}
    (hmint : r.mint = none) (hetching : r.etching = none) (hpointer : r.pointer = some p)
    (hp : outs[p]? = some false) (hplain : ∀ e ∈ r.edicts, e.Plain outs)
    (hdest : ∀ e ∈ r.edicts, outs[e.output]? = some false)
    (hfunded : ∀ id, requested r.edicts id ≤ inputs id) :
    (∀ o id, (settle outs i (some (.runestone r)) inputs).outputs o id =
      requestedAt r.edicts o id + if o = p then inputs id - requested r.edicts id else 0) ∧
    ∀ id, (settle outs i (some (.runestone r)) inputs).burned id = 0 := by
  have hissued : (fun id => inputs id + minted i r.mint id + premined i r.etching id) = inputs := by
    funext id
    simp [hmint, hetching, minted, premined]
  have hsettle : settle outs i (some (.runestone r)) inputs =
      finish outs r.pointer (applyEdicts outs i (.start inputs) r.edicts) := by
    rw [settle, hissued]
  obtain ⟨hunallocated, hallocated⟩ :=
    applyEdicts_of_funded (i := i) (s := .start inputs) hplain hfunded
  have hdefault : defaultOutput outs r.pointer = some p := by rw [hpointer]; rfl
  have htotal (o : ℕ) (id : RuneId) :
      withDefault (applyEdicts outs i (.start inputs) r.edicts) (some p) o id =
        requestedAt r.edicts o id + if o = p then inputs id - requested r.edicts id else 0 := by
    rw [withDefault, hallocated, hunallocated]
    simp [Allocation.start, eq_comm]
  -- an output without an edict, and other than the pointer's, gets nothing
  have hnone (o : ℕ) (id : RuneId) (ho : outs[o]? ≠ some false) :
      requestedAt r.edicts o id + (if o = p then inputs id - requested r.edicts id else 0) = 0 := by
    have hne : o ≠ p := fun h => ho (h ▸ hp)
    rw [if_neg hne, add_zero]
    refine List.sum_eq_zero fun x hx => ?_
    obtain ⟨e, he, rfl⟩ := List.mem_map.1 hx
    have hnot : ¬ (e.id = id ∧ e.output = o) := by
      intro h
      rw [← h.2] at ho
      exact ho (hdest e he)
    exact if_neg hnot
  rw [hsettle]
  refine ⟨fun o id => ?_, fun id => ?_⟩
  · simp only [finish, hdefault, htotal]
    by_cases ho : outs[o]? = some false
    · rw [if_pos ho]
    · rw [if_neg ho, hnone o id ho]
  · simp only [finish, hdefault, htotal, reduceCtorEq, if_false, zero_add]
    refine Finset.sum_eq_zero fun o _ => ?_
    by_cases ho : outs[o]? = some true
    · rw [if_pos ho, hnone o id (by rw [ho]; decide)]
    · rw [if_neg ho]

/-! ## A single edict -/

/-- The runes of the inputs with what the runestone issues. -/
def Runestone.held (r : Runestone) (i : Issuance) (inputs : Balances) : Balances :=
  fun id => inputs id + minted i r.mint id + premined i r.etching id

/-- What a single edict moves, of what is held. -/
def Edict.paid (e : Edict) (held : Balances) : Balances :=
  fun id => if e.id = id then (if e.amount = 0 then held id else min e.amount (held id)) else 0

lemma Edict.paid_le (e : Edict) (held : Balances) (id : RuneId) : e.paid held id ≤ held id := by
  unfold paid
  split
  · split
    · exact le_rfl
    · exact min_le_right _ _
  · exact Nat.zero_le _

/-- Without an edict everything goes to the default output. -/
theorem outputs_settle_of_nil {r : Runestone} {inputs : Balances} (hedicts : r.edicts = [])
    (o : ℕ) (id : RuneId) :
    (settle outs i (some (.runestone r)) inputs).outputs o id =
      if outs[o]? = some false then
        if defaultOutput outs r.pointer = some o then r.held i inputs id else 0
      else 0 := by
  rw [settle, hedicts]
  simp [finish, withDefault, applyEdicts, Allocation.start, Runestone.held]

/-- A single edict to an output moves what it asks for, as far as there is, and all of it when it
asks for zero; what is left goes to the default output. -/
theorem outputs_settle_of_single {r : Runestone} {inputs : Balances} {e : Edict}
    (hedicts : r.edicts = [e]) (hid : e.id ≠ .etched) (houtput : e.output < outs.length)
    (o : ℕ) (id : RuneId) :
    (settle outs i (some (.runestone r)) inputs).outputs o id =
      if outs[o]? = some false then
        (if e.output = o then e.paid (r.held i inputs) id else 0) +
          if defaultOutput outs r.pointer = some o then
            r.held i inputs id - e.paid (r.held i inputs) id else 0
      else 0 := by
  have happly : applyEdicts outs i (.start (r.held i inputs)) r.edicts =
      (Allocation.start (r.held i inputs)).allocate e.id
        (e.paid (r.held i inputs) e.id) e.output := by
    rw [hedicts]
    show applyEdict outs i _ e = _
    unfold applyEdict
    rw [if_neg hid]
    show (if e.output = outs.length then _ else _) = _
    rw [if_neg houtput.ne]
    simp [Edict.paid, Allocation.start]
  show (finish outs r.pointer (applyEdicts outs i (.start (r.held i inputs)) r.edicts)).outputs
    o id = _
  rw [happly]
  have hpaid : (if e.id = id then e.paid (r.held i inputs) e.id else 0) =
      e.paid (r.held i inputs) id := by
    by_cases h : e.id = id
    · rw [if_pos h, h]
    · rw [if_neg h, Edict.paid, if_neg h]
  have hallocated : ((Allocation.start (r.held i inputs)).allocate e.id
      (e.paid (r.held i inputs) e.id) e.output).allocated o id =
        if e.output = o then e.paid (r.held i inputs) id else 0 := by
    rw [allocated_allocate, ← hpaid]
    by_cases h : e.output = o <;> by_cases h' : e.id = id <;> simp [h, h', Allocation.start]
  have hunallocated : ((Allocation.start (r.held i inputs)).allocate e.id
      (e.paid (r.held i inputs) e.id) e.output).unallocated id =
        r.held i inputs id - e.paid (r.held i inputs) id := by
    rw [unallocated_allocate, hpaid]
    rfl
  simp only [finish, withDefault, hallocated, hunallocated]

end Runes
