import ServiceBroker.Proofs.Json.Canonical
import ServiceBroker.Wire.Encode

/-!
# Values of messages

The value of a message can be put together without its document: every part has its value, and the
members of an object are entered into one sorted map, each over the ones that have its name already.
What comes out is what the document of the message denotes, in which the members stand in the order
of the fields and a name may repeat.
-/
namespace ServiceBroker
open Json Wire

/-! ## Putting values together -/

namespace Value

def str (s : String) : Value := ⟨.str s, trivial⟩

def bool (b : Bool) : Value := ⟨.bool b, trivial⟩

theorem canonicalItems_jsons : (vs : List Value) → CanonicalItems (vs.map json)
  | [] => trivial
  | v :: vs => ⟨v.canonical, canonicalItems_jsons vs⟩

def arr (vs : List Value) : Value := ⟨.arr (vs.map json), canonicalItems_jsons vs⟩

theorem canonicalMembers_jsons : (members : List (String × Value)) →
    CanonicalMembers (mapMembers json members)
  | [] => trivial
  | (_, v) :: members => ⟨v.canonical, canonicalMembers_jsons members⟩

def obj (o : Object) : Value :=
  ⟨o.toJson, List.pairwise_map.2 o.sorted, canonicalMembers_jsons o.members⟩

theorem ofJson_arr (js : List Json) : ofJson (.arr js) = arr (js.map ofJson) := by
  refine ext ?_
  calc (Json.arr js).canonical
    _ = .arr (js.map Json.canonical) := by rw [Json.canonical, canonicalItems_eq_map]
    _ = .arr ((js.map ofJson).map json) := by rw [List.map_map]; rfl

theorem ofJson_obj (members : List (String × Json)) :
    ofJson (.obj members) = obj (Object.ofMembers members) := by
  have hcanonical : mapMembers Json.canonical members =
      mapMembers json (mapMembers ofJson members) := by
    simp [mapMembers, ofJson]
  refine ext ?_
  calc (Json.obj members).canonical
    _ = .obj (collect (mapMembers json (mapMembers ofJson members))) := by
      rw [canonical_obj, hcanonical]
    _ = .obj (mapMembers json (collect (mapMembers ofJson members))) := by rw [collect_mapMembers]

end Value

namespace Object

variable {o : Object}

/-- Enters the members of another map. -/
def merge (o p : Object) : Object := p.members.foldl (fun o m => o.insert m.1 m.2) o

/-- Enters members in their order. -/
def enter (o : Object) (members : List (String × Json)) : Object :=
  members.foldl (fun o m => o.insert m.1 (.ofJson m.2)) o

theorem enter_append (o : Object) (members more : List (String × Json)) :
    o.enter (members ++ more) = (o.enter members).enter more :=
  List.foldl_append

theorem members_enter (o : Object) (members : List (String × Json)) :
    (o.enter members).members =
      (mapMembers Value.ofJson members).foldl (fun sorted m => Json.insert m.1 m.2 sorted)
        o.members := by
  induction members generalizing o with
  | nil => rfl
  | cons m members ih => exact ih (o.insert m.1 (.ofJson m.2))

/-- A map is made by entering its members into the empty one. -/
theorem empty_enter (members : List (String × Json)) : empty.enter members = ofMembers members :=
  ext (members_enter empty members)

theorem merge_eq_enter (o p : Object) : o.merge p = o.enter (membersOf p.toJson) := by
  simp only [merge, enter, membersOf, toJson, List.foldl_map, Value.ofJson_json]

/-- The members of an object that is a value are the ones it is made of. -/
theorem merge_ofMembers (o : Object) {v : Value} {members : List (String × Json)}
    (h : v.json = .obj members) : o.merge (ofMembers members) = o.enter members := by
  have hvalue : Value.obj (ofMembers members) = v := by
    rw [← Value.ofJson_obj, ← h, Value.ofJson_json]
  have hjson : (ofMembers members).toJson = .obj members := (congrArg Value.json hvalue).trans h
  rw [merge_eq_enter, hjson]
  rfl

end Object

/-! ## The value of a message -/

namespace Wire

mutual
/-- The value of a message, put together from the values of its parts. -/
def Schema.value {α : Type} : Schema α → α → Value
  | .text, s => .str s
  | .flag, b => .bool b
  | .any, v => v
  | .dict, o => .obj o
  | .choice v, a => .str (v.word a)
  | .list item, as => .arr (as.map item.value)
  | .record _ fields, a => .obj (fields.enter a .empty)
  | .shared _ fields rest, (a, b) => .obj (rest.enter b (fields.enter a .empty))
  | .either _ first _, .inl a => first.value a
  | .either _ _ second, .inr b => second.value b
  | .via write _ schema, a => schema.value (write a)

/-- Enters the members of what is written as an object. -/
def Schema.enter {α : Type} : Schema α → α → Object → Object
  | .any, v, o => o.merge (.ofMembers (membersOf v.json))
  | .dict, p, o => o.merge p
  | .record _ fields, a, o => fields.enter a o
  | .shared _ fields rest, (a, b), o => rest.enter b (fields.enter a o)
  | .either _ first _, .inl a, o => first.enter a o
  | .either _ _ second, .inr b, o => second.enter b o
  | .via write _ schema, a, o => schema.enter (write a) o
  | .text, _, o | .flag, _, o | .choice _, _, o | .list _, _, o => o

/-- Enters the fields that are written, in their order. -/
def Fields.enter {α : Type} : Fields α → α → Object → Object
  | .done, _, o => o
  | .required name schema rest, (a, b), o => rest.enter b (o.insert name (schema.value a))
  | .optional _ _ rest, (none, b), o => rest.enter b o
  | .optional name schema rest, (some a, b), o => rest.enter b (o.insert name (schema.value a))
  | .defaulted name schema default rest, (a, b), o =>
    if default.silent a then rest.enter b o else rest.enter b (o.insert name (schema.value a))
end

mutual
/-- The value of a message is what its document denotes. -/
theorem Schema.value_eq {α : Type} : (schema : Schema α) → (a : α) →
    schema.value a = .ofJson (schema.encode a)
  | .text, _ | .flag, _ | .choice _, _ => rfl
  | .any, v => v.ofJson_json.symm
  | .dict, o => (Value.obj o).ofJson_json.symm
  | .list item, as => by
    have hitems : as.map item.value = (as.map item.encode).map Value.ofJson := by
      rw [List.map_map]
      exact List.map_congr_left fun a _ => item.value_eq a
    rw [Schema.value, Schema.encode, Value.ofJson_arr, hitems]
  | .record _ fields, a => by
    rw [Schema.value, Schema.encode, Value.ofJson_obj, fields.enter_eq, Object.empty_enter]
  | .shared _ fields rest, (a, b) => by
    rw [Schema.value, Schema.encode, Value.ofJson_obj, rest.enter_eq, fields.enter_eq,
      ← Object.enter_append, Object.empty_enter]
  | .either _ first _, .inl a => first.value_eq a
  | .either _ _ second, .inr b => second.value_eq b
  | .via write _ schema, a => schema.value_eq (write a)

theorem Schema.enter_eq {α : Type} : (schema : Schema α) → (a : α) → (o : Object) →
    schema.enter a o = o.enter (membersOf (schema.encode a))
  | .text, _, _ | .flag, _, _ | .choice _, _, _ | .list _, _, _ => rfl
  | .any, v, o => by
    rw [Schema.enter, Schema.encode]
    cases hv : v.json with
    | obj members => exact o.merge_ofMembers hv
    | _ => rfl
  | .dict, p, o => o.merge_eq_enter p
  | .record _ fields, a, o => fields.enter_eq a o
  | .shared _ fields rest, (a, b), o => by
    rw [Schema.enter, rest.enter_eq, fields.enter_eq, ← Object.enter_append]
    rfl
  | .either _ first _, .inl a, o => first.enter_eq a o
  | .either _ _ second, .inr b, o => second.enter_eq b o
  | .via write _ schema, a, o => schema.enter_eq (write a) o

theorem Fields.enter_eq {α : Type} : (fields : Fields α) → (a : α) → (o : Object) →
    fields.enter a o = o.enter (fields.encode a)
  | .done, _, _ => rfl
  | .required _ schema rest, (a, b), o => by
    rw [Fields.enter, rest.enter_eq, schema.value_eq]
    rfl
  | .optional _ _ rest, (none, b), o => rest.enter_eq b o
  | .optional _ schema rest, (some a, b), o => by
    rw [Fields.enter, rest.enter_eq, schema.value_eq]
    rfl
  | .defaulted _ schema default rest, (a, b), o => by
    rw [Fields.enter, Fields.encode]
    split
    · exact rest.enter_eq b o
    · rw [rest.enter_eq, schema.value_eq]
      rfl
end

/-- A member of a free-form map wins over a field beside it. -/
theorem Schema.member?_shared_dict {α : Type} {name : String} {fields : Fields α} (a : α)
    (o : Object) (n : String) :
    ((shared name fields .dict).encode (a, o)).canonical.member? n =
      ((o.get? n).map Value.json).or ((Json.obj (fields.encode a)).canonical.member? n) := by
  have hnodup : ((mapMembers Value.json o.members).map Prod.fst).Nodup := by
    rw [names_mapMembers]
    exact o.sorted.nodup
  have hcanonical : canonical ∘ Value.json = Value.json :=
    funext fun v => canonical_eq_self v.canonical
  have hfree : (mapMembers canonical (mapMembers Value.json o.members)).reverse.lookup n =
      (o.get? n).map Value.json := by
    rw [← lookup_collect, lookup_sorted hnodup, lookup_mapMembers, Option.map_map, hcanonical]
    rfl
  rw [← hfree]
  simp only [encode, membersOf, Object.toJson, canonical_obj, member?, lookup_collect, mapMembers,
    List.map_append, List.reverse_append, List.lookup_append]

end Wire
end ServiceBroker
