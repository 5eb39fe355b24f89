import ServiceBroker.Proofs.Messages
import ServiceBroker.Proofs.Wire.Positions

/-!
# Messages as arrays

A message whose fields have an object of their own may be given as an array of them. It is then read
as the object would be that names them, from a text and from a value alike. A message that shares
its object is never read from an array.
-/
namespace ServiceBroker
open Wire Json

namespace MessageType

/-- The fields of a message with an object of its own, in their order. What is never written has no
place among them. -/
def fieldNames? : MessageType → Option (List String)
  | response .provision | response .update =>
    some ["async", "operation", "dashboard_url", "metadata"]
  | response .deprovision | response .unbind => some ["async", "operation"]
  | response .fetchInstance =>
    some ["service_id", "plan_id", "dashboard_url", "parameters", "maintenance_info", "metadata"]
  | response .pollInstance =>
    some ["state", "description", "delete_operation", "instance_usable", "update_repeatable"]
  | response .pollBinding => some ["state", "description", "delete_operation"]
  | catalog => some ["services"]
  | serviceDefinition =>
    some ["id", "name", "description", "bindable", "plan_updateable", "instances_retrievable",
      "bindings_retrievable", "plans", "metadata"]
  | plan =>
    some ["id", "name", "description", "free", "bindable", "maintenance_info", "metadata"]
  | platformMetadata =>
    some ["platform_instance_id", "api_info_location", "originating_identity", "request_identity"]
  | maintenanceInfo => some ["version", "description"]
  | previousValues =>
    some ["service_id", "plan_id", "organization_id", "space_id", "maintenance_info"]
  | instanceMetadata => some ["labels", "attributes"]
  | bindingMetadata => some ["expires_at", "renew_before"]
  | volumeMount => some ["driver", "container_dir", "mode", "device_type", "device"]
  | endpoint => some ["host", "ports", "protocol"]
  | appGrant => some ["credentials", "syslog_drain_url", "volume_mounts", "endpoints"]
  | routeGrant => some ["route_service_url"]
  | errorBody => some ["error", "description", "instance_usable", "update_repeatable"]
  | asyncOperation => some ["token", "kind", "state", "description"]
  | request _ | response .bind | response .fetchBinding | context | bindResource | grant
  | bindingStatus | asyncKind | operationState => none

/-- Whether the fields of a message share their object with another part of it. -/
def sharesObject : MessageType → Bool
  | request _ | response .bind | response .fetchBinding | context | bindResource => true
  | _ => false

theorem positions?_schema (t : MessageType) : t.schema.positions? = t.fieldNames? := by
  cases t with
  | request op => cases op <;> rfl
  | response op => cases op <;> rfl
  | _ => rfl

theorem isShared_schema (t : MessageType) : t.schema.isShared = t.sharesObject := by
  cases t with
  | request op => cases op <;> rfl
  | response op => cases op <;> rfl
  | _ => rfl

end MessageType

namespace Message

variable {α : Type} [Message α] {a : α} {text : String} {d : Document}

theorem ofText_eq_ok_iff (h : Document.ofText text = (d, true)) :
    ofText text = .ok a ↔ schema.decode (.text 127) d = .ok a := by
  rw [ofText, h]
  exact iff_of_eq (congrArg (· = Except.ok a) (bind_pure _))

/-- What is read of a text is read of the document that it begins with. -/
theorem decode_of_ofText {complete : Bool} (h : Document.ofText text = (d, complete))
    (hread : ofText text = .ok a) : schema.decode (.text 127) d = .ok a := by
  rw [ofText, h, eq_ok_iff] at hread
  obtain ⟨b, hdecode, hread⟩ := Option.bind_eq_some_iff.1 ((toOption_bind ..).symm.trans hread)
  cases complete with
  | true => exact eq_ok_iff.2 (hdecode.trans hread)
  | false => simp at hread

end Message

namespace MessageType

variable (t : MessageType) {names : List String} {x : t.Carrier} {items : List Json}

/-- A value is read from its fields by position as it is by name. -/
theorem ofJson_arr_iff (hnames : t.fieldNames? = some names)
    (hlength : items.length ≤ names.length) :
    Message.ofJson (.arr items) = .ok x ↔ Message.ofJson (.obj (names.zip items)) = .ok x := by
  have hpositions := t.positions?_schema.trans hnames
  have hnodup : ((names.zip items).map Prod.fst).Nodup :=
    (names_zip names items).nodup (t.schema.nodup_positions t.wellFormed_schema hpositions)
  obtain ⟨sorted, hobject, hperm⟩ := Document.exists_ofJson_canonical_obj hnodup
  have hzip : mapMembers (fun j => Document.ofJson j.canonical) (names.zip items) =
      names.zip (items.map fun j => Document.ofJson j.canonical) := by
    rw [List.zip_map_right]
    rfl
  rw [Message.ofJson, Message.ofJson, Document.ofJson_canonical_arr, hobject, eq_ok_iff, eq_ok_iff,
    t.schema.toOption_decode_arr hpositions t.wellFormed_schema (by rwa [List.length_map])
      (hzip ▸ hperm)]

variable {text other : String} {ds : List Document} {members : List (String × Document)}
  {ending : ArrayEnd} {complete : Bool}

/-- And so is a text, whatever its items are and in whatever order the members stand. -/
theorem ofText_arr_iff (hnames : t.fieldNames? = some names) (hlength : ds.length ≤ names.length)
    (hperm : members.Perm (names.zip ds)) (htext : Document.ofText text = (.arr ds .closed, true))
    (hother : Document.ofText other = (.obj (named members) .closed, true)) :
    Message.ofText text = .ok x ↔ Message.ofText other = .ok x := by
  have hpositions := t.positions?_schema.trans hnames
  rw [Message.ofText_eq_ok_iff htext, Message.ofText_eq_ok_iff hother, eq_ok_iff, eq_ok_iff,
    t.schema.toOption_decode_arr hpositions t.wellFormed_schema hlength hperm]

theorem length_le_of_ofJson_arr (hnames : t.fieldNames? = some names)
    (h : Message.ofJson (.arr items) = .ok x) : items.length ≤ names.length := by
  rw [Message.ofJson, Document.ofJson_canonical_arr] at h
  simpa only [List.length_map] using
    t.schema.length_le_of_decode_arr (t.positions?_schema.trans hnames) h

theorem length_le_of_ofText_arr (hnames : t.fieldNames? = some names)
    (htext : Document.ofText text = (.arr ds ending, complete)) (h : Message.ofText text = .ok x) :
    ds.length ≤ names.length :=
  t.schema.length_le_of_decode_arr (t.positions?_schema.trans hnames)
    (Message.decode_of_ofText htext h)

/-- A plain message is read from an array of all its fields, if that does not nest too deep. -/
theorem exists_arr (hnames : t.fieldNames? = some names) (hplain : t.Plain x) :
    ∃ items : List Json, items.length = names.length ∧
      Message.ofJson (.arr items) = .ok (t.erase x) ∧
      ((Json.arr items).depth ≤ 127 →
        Message.ofText (Json.arr items).text = .ok (t.erase x)) := by
  obtain ⟨items, hlength, hintegral, hread, hcanonical⟩ :=
    t.schema.exists_read?_arr t.exact_schema t.wellFormed_schema
      (t.positions?_schema.trans hnames) x hplain
  refine ⟨items, hlength, ?_, fun hdepth => ?_⟩
  · rw [Message.ofJson, Json.canonical, canonicalItems_eq_map, eq_ok_iff,
      t.schema.toOption_decode (m := .value) (Room.holds_unlimited _), hcanonical]
  · have htext : Document.ofText (Json.arr items).text = (Document.ofJson (.arr items), true) :=
      Document.ofText_text hintegral
    have hroom : (Medium.text 127).room.Holds (Json.arr items).depth := Room.holds_ofText hdepth
    rw [Message.ofText_eq_ok_iff htext, eq_ok_iff, t.schema.toOption_decode hroom, hread]

/-- For every message whose fields have an object of their own, and as many items as it has fields
or fewer: the array of the items is read exactly if the object is that gives them the names of the
fields, and both are read as the same. Every plain message is read from such an array. One with more
items is refused, and so is every array for a message that shares its object. -/
theorem read_by_position_iff_by_name :
    (∀ names, t.fieldNames? = some names →
      (∀ items : List Json, items.length ≤ names.length → ∀ x : t.Carrier,
        Message.ofJson (.arr items) = .ok x ↔ Message.ofJson (.obj (names.zip items)) = .ok x) ∧
      (∀ (ds : List Document) (members : List (String × Document)), ds.length ≤ names.length →
        members.Perm (names.zip ds) → ∀ text other : String,
          Document.ofText text = (.arr ds .closed, true) →
          Document.ofText other = (.obj (named members) .closed, true) →
            ∀ x : t.Carrier, Message.ofText text = .ok x ↔ Message.ofText other = .ok x) ∧
      (∀ x : t.Carrier, t.Plain x → ∃ items : List Json, items.length = names.length ∧
        Message.ofJson (.arr items) = .ok (t.erase x) ∧
        ((Json.arr items).depth ≤ 127 →
          Message.ofText (Json.arr items).text = .ok (t.erase x))) ∧
      (∀ items : List Json, names.length < items.length → ∀ x : t.Carrier,
        Message.ofJson (.arr items) ≠ .ok x) ∧
      ∀ (ds : List Document) (text : String) (ending : ArrayEnd) (complete : Bool),
        names.length < ds.length → Document.ofText text = (.arr ds ending, complete) →
          ∀ x : t.Carrier, Message.ofText text ≠ .ok x) ∧
    (t.sharesObject = true →
      (∀ (items : List Json) (x : t.Carrier), Message.ofJson (.arr items) ≠ .ok x) ∧
      ∀ (ds : List Document) (text : String) (ending : ArrayEnd) (complete : Bool),
        Document.ofText text = (.arr ds ending, complete) →
          ∀ x : t.Carrier, Message.ofText text ≠ .ok x) := by
  constructor
  · intro names hnames
    refine ⟨?_, ?_, fun x hplain => t.exists_arr hnames hplain, ?_, ?_⟩
    · exact fun items hlength x => t.ofJson_arr_iff hnames hlength
    · exact fun ds members hlength hperm text other htext hother x =>
        t.ofText_arr_iff hnames hlength hperm htext hother
    · exact fun items hlength x h => Nat.not_lt.2 (t.length_le_of_ofJson_arr hnames h) hlength
    · exact fun ds text ending complete hlength htext x h =>
        Nat.not_lt.2 (t.length_le_of_ofText_arr hnames htext h) hlength
  · intro hshares
    have hshared : t.schema.isShared = true := t.isShared_schema.trans hshares
    constructor
    · intro items x h
      rw [Message.ofJson, Document.ofJson_canonical_arr] at h
      exact t.schema.decode_arr_ne_ok hshared h
    · exact fun ds text ending complete htext x h =>
        t.schema.decode_arr_ne_ok hshared (Message.decode_of_ofText htext h)

/-- The metadata of a new instance are the fourth item, as the note that it existed has no place. A
plan may end behind its description, but not before it. -/
theorem read_by_position_iff_by_name_provision :
    let names := ["async", "operation", "dashboard_url", "metadata"]
    let items : List Json := [.bool true, .str "op", .null, .obj [("labels", .obj [])]]
    let answer : ProvisionResponse := ⟨true, some "op", none, false, some ⟨.empty, .empty⟩⟩
    Message.ofJson (.arr items) = .ok answer ∧
      Message.ofJson (.obj (names.zip items)) = .ok answer ∧
      Message.ofText (Json.arr items).text = .ok answer ∧
      Message.ofText (Json.obj (names.zip items).reverse).text = .ok answer ∧
      (∀ x : ProvisionResponse, Message.ofJson (.arr (items ++ [.null])) ≠ .ok x) ∧
      (∀ p : Plan, Message.ofJson (.arr [.str "id", .str "name"]) ≠ .ok p) ∧
      (∃ p : Plan, Message.ofJson (.arr [.str "id", .str "name", .str "text"]) = .ok p) ∧
      ∀ c : Context, Message.ofText (Json.arr [.str "cf"]).text ≠ .ok c := by
  intro names items answer
  obtain ⟨hprovision, -⟩ := read_by_position_iff_by_name (response .provision)
  obtain ⟨hvalue, htext, -, hlong, -⟩ := hprovision names rfl
  obtain ⟨-, hcontext⟩ := read_by_position_iff_by_name context
  have harr : Document.ofText (Json.arr items).text =
      (.arr (Document.ofItems items) .closed, true) :=
    Document.ofText_text ⟨trivial, trivial, trivial, ⟨trivial, trivial⟩, trivial⟩
  have hobj : Document.ofText (Json.obj (names.zip items).reverse).text =
      (.obj (named (names.zip (Document.ofItems items)).reverse) .closed, true) :=
    Document.ofText_text ⟨⟨trivial, trivial⟩, trivial, trivial, trivial, trivial⟩
  have hcf : Document.ofText (Json.arr [.str "cf"]).text =
      (.arr (Document.ofItems [.str "cf"]) .closed, true) := Document.ofText_text ⟨trivial, trivial⟩
  have hitems : Message.ofJson (.arr items) = .ok answer := rfl
  have hread : Message.ofText (Json.arr items).text = .ok answer :=
    (Message.ofText_eq_ok_iff harr).2 rfl
  refine ⟨hitems, (hvalue items (by decide) answer).1 hitems, hread, ?_, ?_, nofun, ⟨_, rfl⟩, ?_⟩
  · exact (htext _ _ (by decide) (List.reverse_perm _) _ _ harr hobj answer).1 hread
  · exact hlong (items ++ [.null]) (by decide)
  · exact (hcontext rfl).2 _ _ _ _ hcf

end MessageType
end ServiceBroker
