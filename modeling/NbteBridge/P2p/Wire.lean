import NbteBridge.Btc.Types
import NbteBridge.Foundations.DecimalText

/-!
# Messages on the wire

What a node asks and answers is serialized, carried by a transport that knows nothing but plain
values, and deserialized at the other end.  A dataclass becomes a dictionary with a mark and comes
back as an object with the same attributes; a decimal becomes a marked text.  Neither direction
looks into a list, and a field can overwrite the mark.  A message survives exactly when its lists
are plain and none of its fields is called like the mark of a dataclass.
-/

namespace NbteBridge

open Checked

namespace Wire

/-- A value, as far as messages are built of it and a node makes of it.  The keys of a dictionary
are texts. -/
inductive Value
  | none
  | bool (b : Bool)
  | int (n : ℤ)
  | str (s : String)
  | decimal (d : Decimals.Number)
  | list (items : List Value)
  | dict (items : List (String × Value))
  | dataclass (fields : List (String × Value))
  | namespaceOf (attributes : List (String × Value))

/-! ## serialize -/

/-- `items[name] = value`. -/
def assign (name : String) (value : Value) : List (String × Value) → List (String × Value)
  | [] => [(name, value)]
  | (key, old) :: rest =>
      if key = name then (key, value) :: rest else (key, old) :: assign name value rest

mutual

def serialize : Value → Value
  | .dataclass fields => .dict (serializeFields fields [("_is_dataclass", .bool true)])
  | .decimal d => .dict [("_is_decimal", .bool true), ("value", .str (String.ofList d.text))]
  | value => value

/-- The loop over the fields, with the dictionary so far. -/
def serializeFields :
    List (String × Value) → List (String × Value) → List (String × Value)
  | [], ret => ret
  | (name, value) :: fields, ret => serializeFields fields (assign name (serialize value) ret)

end

/-! ## deserialize -/

/-- `bool(value)`. -/
def Value.truthy : Value → Bool
  | none => false
  | bool b => b
  | int n => decide (n ≠ 0)
  | str s => decide (s ≠ "")
  | decimal (.finite _ coefficient _) => decide (coefficient ≠ 0)
  | decimal _ => true
  | list items => !items.isEmpty
  | dict items => !items.isEmpty
  | dataclass _ => true
  | namespaceOf _ => true

/-- Whether `items.get(name)` is true. -/
def isTrue (name : String) (items : List (String × Value)) : Bool :=
  match items.lookup name with
  | some value => value.truthy
  | none => false

section Deserialize

variable (decimalOfList : List Value → PyResult Decimals.Number)

/-- `Decimal(value)`; a list would have to be of a sign, digits and an exponent. -/
def decimalOf : Value → PyResult Decimals.Number
  | .str s => orError (Decimals.Number.read s.toList) (.other "InvalidOperation")
  | .int n => pure (.finite (decide (n < 0)) n.natAbs 0)
  | .bool b => pure (.finite false b.toNat 0)
  | .decimal d => pure d
  | .list items => decimalOfList items
  | _ => .error (.other "TypeError")

mutual

def deserialize : Value → PyResult Value
  | .dict items =>
      if isTrue "_is_dataclass" items then do
        let attributes ← deserializeItems items
        pure (.namespaceOf attributes)
      else if isTrue "_is_decimal" items then do
        let value ← orError (items.lookup "value") (.other "KeyError")
        let d ← decimalOf decimalOfList value
        pure (.decimal d)
      else
        pure (.dict items)
  | value => pure value

/-- The items of a dataclass, but for its mark. -/
def deserializeItems : List (String × Value) → PyResult (List (String × Value))
  | [] => pure []
  | (name, value) :: rest =>
      if name = "_is_dataclass" then deserializeItems rest
      else do
        let object ← deserialize value
        let attributes ← deserializeItems rest
        pure ((name, object) :: attributes)

end

end Deserialize

/-! ## What a message is, and what becomes of it -/

mutual

/-- Plain dictionaries, lists and scalars, which the transport carries. -/
def Value.isPlain : Value → Bool
  | .list items => allPlain items
  | .dict items => allItemsPlain items
  | .none | .bool _ | .int _ | .str _ => true
  | .decimal _ | .dataclass _ | .namespaceOf _ => false

def allPlain : List Value → Bool
  | [] => true
  | item :: items => item.isPlain && allPlain items

def allItemsPlain : List (String × Value) → Bool
  | [] => true
  | (_, value) :: items => value.isPlain && allItemsPlain items

end

mutual

/-- A value that is built of scalars, decimals, lists and dataclasses, the fields of which have
different names. -/
def Value.isBuilt : Value → Bool
  | .list items => allBuilt items
  | .dataclass fields => decide (fields.map Prod.fst).Nodup && allFieldsBuilt fields
  | .none | .bool _ | .int _ | .str _ | .decimal _ => true
  | .dict _ | .namespaceOf _ => false

def allBuilt : List Value → Bool
  | [] => true
  | item :: items => item.isBuilt && allBuilt items

def allFieldsBuilt : List (String × Value) → Bool
  | [] => true
  | (_, value) :: fields => value.isBuilt && allFieldsBuilt fields

end

mutual

/-- The value with an object of the same attributes for each dataclass. -/
def Value.transported : Value → Value
  | .list items => .list (transportedList items)
  | .dataclass fields => .namespaceOf (transportedFields fields)
  | value => value

def transportedList : List Value → List Value
  | [] => []
  | item :: items => item.transported :: transportedList items

def transportedFields : List (String × Value) → List (String × Value)
  | [] => []
  | (name, value) :: fields => (name, value.transported) :: transportedFields fields

end

mutual

/-- Lists hold plain values only, and no field has the name of the mark. -/
def Value.isCarried : Value → Bool
  | .list items => allPlain items
  | .dataclass fields => allFieldsCarried fields
  | _ => true

def allFieldsCarried : List (String × Value) → Bool
  | [] => true
  | (name, value) :: fields =>
      decide (name ≠ "_is_dataclass") && value.isCarried && allFieldsCarried fields

end

/-- A value that a node asks or answers with. -/
structure Message where
  value : Value
  built : value.isBuilt = true

/-- What the transport is promised to do. -/
def DeliversPlain (transport : Value → Value) : Prop :=
  ∀ v, v.isPlain = true → transport v = v

/-! ## Values by their parts -/

lemma allItemsPlain_iff {items : List (String × Value)} :
    allItemsPlain items = true ↔ ∀ item ∈ items, item.2.isPlain = true := by
  induction items with
  | nil => simp [allItemsPlain]
  | cons item items ih => simp [allItemsPlain, ih]

lemma allFieldsCarried_iff {fields : List (String × Value)} :
    allFieldsCarried fields = true ↔
      ∀ field ∈ fields, field.1 ≠ "_is_dataclass" ∧ field.2.isCarried = true := by
  induction fields with
  | nil => simp [allFieldsCarried]
  | cons field fields ih => simp [allFieldsCarried, ih]

lemma transportedFields_eq (fields : List (String × Value)) :
    transportedFields fields = fields.map fun field => (field.1, field.2.transported) := by
  induction fields with
  | nil => rfl
  | cons field fields ih => rw [transportedFields, ih, List.map_cons]

/-- Values without parts, other than decimals. -/
def Value.isScalar : Value → Bool
  | none | bool _ | int _ | str _ => true
  | _ => false

mutual

/-- **Induction on a message.** -/
theorem Value.induct {P : Value → Prop} (scalar : ∀ v, v.isScalar = true → P v)
    (decimal : ∀ d, P (.decimal d)) (list : ∀ items, (∀ v ∈ items, P v) → P (.list items))
    (dataclass : ∀ fields, (fields.map Prod.fst).Nodup → (∀ field ∈ fields, P field.2) →
      P (.dataclass fields)) : ∀ v : Value, v.isBuilt = true → P v
  | .none, _ => scalar _ rfl
  | .bool _, _ => scalar _ rfl
  | .int _, _ => scalar _ rfl
  | .str _, _ => scalar _ rfl
  | .decimal d, _ => decimal d
  | .list items, h => list items (Value.inductList scalar decimal list dataclass items h)
  | .dataclass fields, h =>
      have hfields := Bool.and_eq_true_iff.1 h
      dataclass fields (of_decide_eq_true hfields.1)
        (Value.inductFields scalar decimal list dataclass fields hfields.2)

theorem Value.inductList {P : Value → Prop} (scalar : ∀ v, v.isScalar = true → P v)
    (decimal : ∀ d, P (.decimal d)) (list : ∀ items, (∀ v ∈ items, P v) → P (.list items))
    (dataclass : ∀ fields, (fields.map Prod.fst).Nodup → (∀ field ∈ fields, P field.2) →
      P (.dataclass fields)) : ∀ items, allBuilt items = true → ∀ v ∈ items, P v
  | [], _ => fun _ h => absurd h List.not_mem_nil
  | item :: items, h => List.forall_mem_cons.2
      ⟨Value.induct scalar decimal list dataclass item (Bool.and_eq_true_iff.1 h).1,
        Value.inductList scalar decimal list dataclass items (Bool.and_eq_true_iff.1 h).2⟩

theorem Value.inductFields {P : Value → Prop} (scalar : ∀ v, v.isScalar = true → P v)
    (decimal : ∀ d, P (.decimal d)) (list : ∀ items, (∀ v ∈ items, P v) → P (.list items))
    (dataclass : ∀ fields, (fields.map Prod.fst).Nodup → (∀ field ∈ fields, P field.2) →
      P (.dataclass fields)) :
    ∀ fields, allFieldsBuilt fields = true → ∀ field ∈ fields, P field.2
  | [], _ => fun _ h => absurd h List.not_mem_nil
  | (_, value) :: fields, h => List.forall_mem_cons.2
      ⟨Value.induct scalar decimal list dataclass value (Bool.and_eq_true_iff.1 h).1,
        Value.inductFields scalar decimal list dataclass fields (Bool.and_eq_true_iff.1 h).2⟩

end

mutual

/-- Transport changes nothing that is plain. -/
theorem Value.transported_of_isPlain : ∀ {v : Value}, v.isPlain = true → v.transported = v
  | .none, _ | .bool _, _ | .int _, _ | .str _, _ | .dict _, _ => rfl
  | .list items, h => by rw [Value.transported, transportedList_of_allPlain h]

theorem transportedList_of_allPlain :
    ∀ {items : List Value}, allPlain items = true → transportedList items = items
  | [], _ => rfl
  | item :: items, h => by
      obtain ⟨hitem, hitems⟩ := Bool.and_eq_true_iff.1 h
      rw [transportedList, Value.transported_of_isPlain hitem, transportedList_of_allPlain hitems]

end

/-! ## The dictionary of a dataclass -/

lemma assign_of_not_mem {name : String} {value : Value} {ret : List (String × Value)}
    (h : name ∉ ret.map Prod.fst) : assign name value ret = ret ++ [(name, value)] := by
  induction ret with
  | nil => rfl
  | cons item ret ih =>
      obtain ⟨hne, hrest⟩ := not_or.1 (mt List.mem_cons.2 h)
      rw [assign, if_neg (Ne.symm hne), ih hrest, List.cons_append]

/-- Fields with new names come after what the dictionary has. -/
lemma serializeFields_eq {fields ret : List (String × Value)} (hnodup : (fields.map Prod.fst).Nodup)
    (hnew : ∀ field ∈ fields, field.1 ∉ ret.map Prod.fst) :
    serializeFields fields ret = ret ++ fields.map fun field => (field.1, serialize field.2) := by
  induction fields generalizing ret with
  | nil => rw [serializeFields, List.map_nil, List.append_nil]
  | cons field fields ih =>
      obtain ⟨name, value⟩ := field
      obtain ⟨hname, hnodup⟩ := List.nodup_cons.1 hnodup
      have hnew' : ∀ field ∈ fields, field.1 ∉ (ret ++ [(name, serialize value)]).map Prod.fst := by
        intro field hfield hmem
        rw [List.map_append, List.mem_append] at hmem
        rcases hmem with hmem | hmem
        · exact hnew field (List.mem_cons_of_mem _ hfield) hmem
        · have heq : field.1 = name := List.mem_singleton.1 hmem
          exact hname (List.mem_map.2 ⟨field, hfield, heq⟩)
      rw [serializeFields, assign_of_not_mem (hnew _ List.mem_cons_self), ih hnodup hnew',
        List.append_assoc]
      rfl

section Deserialize

variable {decimalOfList : List Value → PyResult Decimals.Number}

/-- The mark of a dataclass is no attribute. -/
lemma mark_not_mem {items attributes : List (String × Value)}
    (h : deserializeItems decimalOfList items = .ok attributes) :
    "_is_dataclass" ∉ attributes.map Prod.fst := by
  induction items generalizing attributes with
  | nil =>
      obtain rfl := pure_eq_ok.1 h
      exact List.not_mem_nil
  | cons item items ih =>
      obtain ⟨name, value⟩ := item
      rw [deserializeItems] at h
      split_ifs at h with hname
      · exact ih h
      · simp only [bind_eq_ok, pure_eq_ok] at h
        obtain ⟨object, -, attributes', hattributes, rfl⟩ := h
        rw [List.map_cons, List.mem_cons, not_or]
        exact ⟨fun heq => hname heq.symm, ih hattributes⟩

/-- Items without the mark are deserialized one by one. -/
lemma deserializeItems_eq_ok {items attributes : List (String × Value)}
    (hmark : ∀ item ∈ items, item.1 ≠ "_is_dataclass") :
    deserializeItems decimalOfList items = .ok attributes ↔
      List.Forall₂ (fun item object => item.1 = object.1 ∧
        deserialize decimalOfList item.2 = .ok object.2) items attributes := by
  induction items generalizing attributes with
  | nil =>
      rw [deserializeItems, pure_eq_ok, List.forall₂_nil_left_iff, eq_comm]
  | cons item items ih =>
      obtain ⟨name, value⟩ := item
      have hname : name ≠ "_is_dataclass" := hmark _ List.mem_cons_self
      have hitems : ∀ item ∈ items, item.1 ≠ "_is_dataclass" :=
        fun item hitem => hmark item (List.mem_cons_of_mem _ hitem)
      rw [deserializeItems, if_neg hname, List.forall₂_cons_left_iff]
      simp only [bind_eq_ok, pure_eq_ok, ih hitems]
      constructor
      · rintro ⟨object, hobject, attributes', hattributes, rfl⟩
        exact ⟨(name, object), attributes', ⟨rfl, hobject⟩, hattributes, rfl⟩
      · rintro ⟨⟨name', object⟩, attributes', ⟨rfl, hobject⟩, hattributes, rfl⟩
        exact ⟨object, hobject, attributes', hattributes, rfl⟩

/-- **A dataclass and its fields.**  One without a field of the mark's name comes back when its
fields do. -/
lemma deserialize_dataclass {fields : List (String × Value)}
    (hnodup : (fields.map Prod.fst).Nodup) (hmark : ∀ field ∈ fields, field.1 ≠ "_is_dataclass") :
    deserialize decimalOfList (serialize (.dataclass fields)) =
        .ok (Value.transported (.dataclass fields)) ↔
      ∀ field ∈ fields,
        deserialize decimalOfList (serialize field.2) = .ok field.2.transported := by
  have hnew : ∀ field ∈ fields, field.1 ∉
      [("_is_dataclass", Value.bool true)].map Prod.fst := by
    intro field hfield hmem
    exact hmark field hfield (List.mem_singleton.1 hmem)
  have hmark' : ∀ item ∈ fields.map fun field => (field.1, serialize field.2),
      item.1 ≠ "_is_dataclass" := by
    intro item hitem
    obtain ⟨field, hfield, rfl⟩ := List.mem_map.1 hitem
    exact hmark field hfield
  have hitems : deserialize decimalOfList (serialize (.dataclass fields)) =
      deserializeItems decimalOfList (fields.map fun field => (field.1, serialize field.2)) >>=
        fun attributes => pure (.namespaceOf attributes) := by
    rw [serialize, serializeFields_eq hnodup hnew]
    rfl
  rw [hitems, Value.transported, transportedFields_eq]
  simp only [bind_eq_ok, pure_eq_ok, deserializeItems_eq_ok hmark', Value.namespaceOf.injEq]
  constructor
  · rintro ⟨attributes, hattributes, rfl⟩ field hfield
    rw [List.forall₂_map_left_iff, List.forall₂_map_right_iff, List.forall₂_same] at hattributes
    exact (hattributes field hfield).2
  · intro h
    refine ⟨_, ?_, rfl⟩
    rw [List.forall₂_map_left_iff, List.forall₂_map_right_iff, List.forall₂_same]
    exact fun field hfield => ⟨rfl, h field hfield⟩

/-- A field of the mark's name is lost. -/
lemma deserialize_of_mark {fields : List (String × Value)}
    (h : ∃ field ∈ fields, field.1 = "_is_dataclass") :
    deserialize decimalOfList (serialize (.dataclass fields)) ≠
      .ok (Value.transported (.dataclass fields)) := by
  obtain ⟨field, hfield, hname⟩ := h
  rw [serialize, Value.transported, transportedFields_eq, deserialize]
  split_ifs
  · simp only [ne_eq, bind_eq_ok, pure_eq_ok, Value.namespaceOf.injEq, not_exists, not_and]
    rintro attributes hattributes rfl
    refine mark_not_mem hattributes ?_
    rw [List.map_map, ← hname]
    exact List.mem_map_of_mem (f := fun field : String × Value => field.1) hfield
  · simp only [ne_eq, bind_eq_ok, pure_eq_ok, not_exists, not_and]
    rintro value - d - heq
    exact Value.noConfusion heq
  · exact fun heq => Value.noConfusion (pure_eq_ok.1 heq)

lemma serialize_isPlain_dataclass {fields : List (String × Value)}
    (hnodup : (fields.map Prod.fst).Nodup) (hmark : ∀ field ∈ fields, field.1 ≠ "_is_dataclass") :
    (serialize (.dataclass fields)).isPlain = true ↔
      ∀ field ∈ fields, (serialize field.2).isPlain = true := by
  have hnew : ∀ field ∈ fields, field.1 ∉
      [("_is_dataclass", Value.bool true)].map Prod.fst := by
    intro field hfield hmem
    exact hmark field hfield (List.mem_singleton.1 hmem)
  rw [serialize, serializeFields_eq hnodup hnew, Value.isPlain, allItemsPlain_iff,
    List.forall_mem_append, List.forall_mem_map]
  exact and_iff_right fun item hitem => by
    rw [List.mem_singleton.1 hitem, Value.isPlain]

lemma serialize_of_isScalar : ∀ {v : Value}, v.isScalar = true → v.isCarried = true ∧
    (serialize v).isPlain = true ∧ deserialize decimalOfList (serialize v) = .ok v.transported
  | .none, _ | .bool _, _ | .int _, _ | .str _, _ => ⟨rfl, rfl, rfl⟩

/-- The text of a decimal is read back. -/
lemma deserialize_text {s : String} {d : Decimals.Number}
    (h : Decimals.Number.read s.toList = some d) :
    deserialize decimalOfList (.dict [("_is_decimal", .bool true), ("value", .str s)]) =
      .ok (.decimal d) := by
  show (decimalOf decimalOfList (.str s) >>= fun d => pure (Value.decimal d)) = _
  rw [decimalOf, h]
  rfl

/-- **What is carried.**  Serializing leaves plain values that come back as they should, or not. -/
lemma isCarried_iff {v : Value} (h : v.isBuilt = true) :
    v.isCarried = true ↔ (serialize v).isPlain = true ∧
      deserialize decimalOfList (serialize v) = .ok v.transported := by
  refine Value.induct (P := fun v => v.isCarried = true ↔ (serialize v).isPlain = true ∧
    deserialize decimalOfList (serialize v) = .ok v.transported) ?_ ?_ ?_ ?_ v h
  · intro v hv
    obtain ⟨hcarried, hback⟩ := serialize_of_isScalar hv
    exact iff_of_true hcarried hback
  · intro d
    have hread : Decimals.Number.read (String.ofList d.text).toList = some d := by
      rw [String.toList_ofList, Decimals.Number.read_text]
    refine iff_of_true rfl ⟨?_, ?_⟩
    · rw [serialize, Value.isPlain, allItemsPlain_iff]
      simp [Value.isPlain]
    · rw [serialize]
      exact deserialize_text hread
  · intro items _
    constructor
    · intro hplain
      refine ⟨hplain, ?_⟩
      rw [Value.transported_of_isPlain (v := .list items) hplain]
      rfl
    · exact fun hcarried => hcarried.1
  · intro fields hnodup ih
    rw [Value.isCarried, allFieldsCarried_iff]
    by_cases hmark : ∀ field ∈ fields, field.1 ≠ "_is_dataclass"
    · rw [serialize_isPlain_dataclass hnodup hmark, deserialize_dataclass hnodup hmark]
      constructor
      · intro hcarried
        exact ⟨fun field hfield => ((ih field hfield).1 (hcarried field hfield).2).1,
          fun field hfield => ((ih field hfield).1 (hcarried field hfield).2).2⟩
      · rintro ⟨hplain, hback⟩ field hfield
        exact ⟨hmark field hfield, (ih field hfield).2 ⟨hplain field hfield, hback field hfield⟩⟩
    · refine iff_of_false (fun hcarried => hmark fun field hfield => (hcarried field hfield).1) ?_
      push Not at hmark
      exact fun hback => deserialize_of_mark hmark hback.2

end Deserialize

/-- **Messages survive the wire when their lists are plain and no field overwrites the mark.** -/
theorem survives_iff (decimalOfList : List Value → PyResult Decimals.Number) (message : Message) :
    (∀ transport, DeliversPlain transport →
      deserialize decimalOfList (transport (serialize message.value)) =
        .ok message.value.transported) ↔ message.value.isCarried = true := by
  rw [@isCarried_iff decimalOfList _ message.built]
  constructor
  · intro h
    refine ⟨?_, h id fun _ _ => rfl⟩
    by_contra hplain
    -- a transport may lose what is not plain
    have hnone := h (fun v => if v.isPlain = true then v else .none) fun v hv => if_pos hv
    rw [if_neg hplain] at hnone
    have hvalue : message.value.transported = .none := (Except.ok.inj hnone).symm
    refine hplain ?_
    cases hmessage : message.value <;> rw [hmessage] at hvalue <;>
      first | rfl | exact Value.noConfusion hvalue
  · rintro ⟨hplain, hback⟩ transport htransport
    rw [htransport _ hplain]
    exact hback

/-- A question about several transfers, each a dataclass. -/
def questionAboutTransfers : Message where
  value := .dataclass [("transfers", .list [.dataclass [("net_rune_amount", .int 456)]])]
  built := by decide +kernel

/-- **Dataclasses in a list.**  Not even a transport that changes nothing makes objects of them. -/
theorem list_not_transported :
    DeliversPlain id ∧ deserialize (fun _ => .error (.valueError "length"))
      (id (serialize questionAboutTransfers.value)) ≠
        .ok questionAboutTransfers.value.transported := by
  refine ⟨fun _ _ => rfl, fun h => ?_⟩
  have hsame : deserialize (fun _ => .error (.valueError "length"))
      (serialize questionAboutTransfers.value) =
        .ok (.namespaceOf [("transfers", .list [.dataclass [("net_rune_amount", .int 456)]])]) :=
    rfl
  have heq := Except.ok.inj (hsame.symm.trans h)
  simp [questionAboutTransfers, Value.transported, transportedFields, transportedList] at heq

end Wire

end NbteBridge
