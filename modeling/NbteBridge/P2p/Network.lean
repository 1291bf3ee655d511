import NbteBridge.Btc.Types

/-!
# PyroNetwork

How a node asks its peers.  A peer is whatever is at the other end: it may return any value the
wire carries, raise an exception of the transport, or have any other exception raised.  A returned
value is deserialized, which makes an object with attributes of a dictionary that says it is a
dataclass.
-/

namespace NbteBridge

open Checked

/-! ## Values -/

mutual

/-- What the wire carries, as far as anything looks at it; `other` is any further value. -/
inductive PyValue
  | none
  | bool (b : Bool)
  | int (n : ℤ)
  | str (s : String)
  | dict (items : PyItems)
  | other (truthy : Bool)

/-- The items of a dictionary, in order. -/
inductive PyItems
  | nil
  | cons (key value : PyValue) (rest : PyItems)

end

/-- A deserialized value; `namespace` is a `SimpleNamespace` with its attributes. -/
inductive PyObject
  | value (v : PyValue)
  | decimal (q : ℚ)
  | namespaceOf (attributes : List (String × PyObject))

/-- `bool(value)`. -/
def PyValue.truthy : PyValue → Bool
  | none => false
  | bool b => b
  | int n => decide (n ≠ 0)
  | str s => decide (s ≠ "")
  | dict .nil => false
  | dict (.cons ..) => true
  | other truthy => truthy

/-- `items.get(name)`. -/
def PyItems.get? (name : String) : PyItems → Option PyValue
  | nil => .none
  | cons (.str key) value rest => if key = name then some value else rest.get? name
  | cons _ _ rest => rest.get? name

/-- Whether `items.get(name)` is true. -/
def PyItems.isTrue (name : String) (items : PyItems) : Bool :=
  match items.get? name with
  | some value => value.truthy
  | .none => false

/-- `SimpleNamespace(**items)`, of which the keys must be texts. -/
def keywords (items : List (PyValue × PyObject)) : PyResult PyObject := do
  let attributes ← items.mapM fun item =>
    match item with
    | (.str key, object) => pure (key, object)
    | _ => Except.error (PyError.other "TypeError")
  pure (.namespaceOf attributes)

/-- `getattr`. -/
def PyObject.attribute (name : String) : PyObject → PyResult PyObject
  | namespaceOf attributes => orError (attributes.lookup name) (.other "AttributeError")
  | _ => .error (.other "AttributeError")

/-! ## Asking -/

structure PyroNetwork where
  /-- `Decimal(value)`. -/
  decimal : PyValue → PyResult ℚ

/-- What calling a peer comes to. -/
inductive PeerBehaviour
  | returns (answer : PyValue)
  | communicationError
  | raises (e : PyError)

namespace PyroNetwork

variable (network : PyroNetwork)

mutual

def deserialize : PyValue → PyResult PyObject
  | .dict items =>
      if items.isTrue "_is_dataclass" then do
        let attributes ← deserializeItems items
        keywords attributes
      else if items.isTrue "_is_decimal" then do
        let value ← orError (items.get? "value") (.other "KeyError")
        let q ← network.decimal value
        pure (.decimal q)
      else
        pure (.value (.dict items))
  | value => pure (.value value)

/-- The items of an object with their values deserialized. -/
def deserializeItems : PyItems → PyResult (List (PyValue × PyObject))
  | .nil => pure []
  | .cons (.str "_is_dataclass") _ rest => deserializeItems rest
  | .cons key value rest => do
      let object ← deserialize value
      let attributes ← deserializeItems rest
      pure ((key, object) :: attributes)

end

/-- `ask`: the answers of the peers that have one. -/
def ask : List PeerBehaviour → PyResult (List PyObject)
  | [] => pure []
  | .communicationError :: peers => ask peers
  | .raises e :: _ => .error e
  | .returns .none :: peers => ask peers
  | .returns answer :: peers => do
      let deserializedAnswer ← network.deserialize answer
      let answers ← ask peers
      pure (deserializedAnswer :: answers)

/-- What came back from the peers. -/
def returned (peers : List PeerBehaviour) : List PyValue :=
  peers.filterMap fun peer =>
    match peer with
    | .returns .none => none
    | .returns answer => some answer
    | _ => none

/-- Asking succeeds when no peer has an exception raised and each answer can be deserialized. -/
lemma ask_eq_ok {peers : List PeerBehaviour} {answers : List PyObject} :
    network.ask peers = .ok answers ↔ (∀ e, PeerBehaviour.raises e ∉ peers) ∧
      List.Forall₂ (fun v answer => network.deserialize v = .ok answer) (returned peers)
        answers := by
  fun_induction ask network peers generalizing answers with
  | case1 =>
      rw [pure_eq_ok]
      simp [returned, eq_comm]
  | case2 peers ih => simpa [returned] using ih
  | case3 e peers =>
      constructor
      · intro h
        exact absurd h (by simp)
      · rintro ⟨hraises, -⟩
        exact absurd List.mem_cons_self (hraises e)
  | case4 peers ih => simpa [returned] using ih
  | case5 answer peers hanswer ih =>
      have hreturned : returned (.returns answer :: peers) = answer :: returned peers := by
        rw [returned, List.filterMap_cons]
        cases answer
        case none => exact absurd rfl hanswer
        all_goals rfl
      have hmem (e : PyError) : PeerBehaviour.raises e ∉ .returns answer :: peers ↔
          PeerBehaviour.raises e ∉ peers := by
        simp
      simp only [bind_eq_ok, pure_eq_ok, hreturned, hmem, List.forall₂_cons_left_iff]
      constructor
      · rintro ⟨object, hobject, objects, hobjects, rfl⟩
        obtain ⟨hraises, hall⟩ := ih.1 hobjects
        exact ⟨hraises, object, objects, hobject, hall, rfl⟩
      · rintro ⟨hraises, object, objects, hobject, hall, rfl⟩
        exact ⟨object, hobject, objects, ih.2 ⟨hraises, hall⟩, rfl⟩

end PyroNetwork

end NbteBridge
