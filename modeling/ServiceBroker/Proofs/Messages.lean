import ServiceBroker.Operation
import ServiceBroker.Proofs.Wire.Encoding

/-!
# Messages are read back

Every message is read back from its tree and from its text as it was written, but for the members
that are never written.
-/
namespace ServiceBroker
open Wire Json

/-- The types of messages and of their parts. -/
inductive MessageType where
  | request (op : Operation)
  | response (op : Operation)
  | catalog
  | serviceDefinition
  | plan
  | context
  | platformMetadata
  | maintenanceInfo
  | previousValues
  | instanceMetadata
  | bindingMetadata
  | bindResource
  | volumeMount
  | endpoint
  | appGrant
  | routeGrant
  | grant
  | bindingStatus
  | errorBody
  | asyncOperation
  | asyncKind
  | operationState

namespace MessageType

abbrev Carrier : MessageType → Type
  | request op => op.Request
  | response op => op.Response
  | catalog => Catalog
  | serviceDefinition => ServiceDefinition
  | plan => Plan
  | context => Context
  | platformMetadata => PlatformMetadata
  | maintenanceInfo => MaintenanceInfo
  | previousValues => PreviousValues
  | instanceMetadata => InstanceMetadata
  | bindingMetadata => BindingMetadata
  | bindResource => BindResource
  | volumeMount => VolumeMount
  | endpoint => Endpoint
  | appGrant => AppGrant
  | routeGrant => RouteGrant
  | grant => Grant
  | bindingStatus => BindingStatus
  | errorBody => ErrorBody
  | asyncOperation => AsyncOperation
  | asyncKind => AsyncKind
  | operationState => OperationState

instance : (t : MessageType) → Message t.Carrier
  | request op => inferInstanceAs (Message op.Request)
  | response op => inferInstanceAs (Message op.Response)
  | catalog => inferInstanceAs (Message Catalog)
  | serviceDefinition => inferInstanceAs (Message ServiceDefinition)
  | plan => inferInstanceAs (Message Plan)
  | context => inferInstanceAs (Message Context)
  | platformMetadata => inferInstanceAs (Message PlatformMetadata)
  | maintenanceInfo => inferInstanceAs (Message MaintenanceInfo)
  | previousValues => inferInstanceAs (Message PreviousValues)
  | instanceMetadata => inferInstanceAs (Message InstanceMetadata)
  | bindingMetadata => inferInstanceAs (Message BindingMetadata)
  | bindResource => inferInstanceAs (Message BindResource)
  | volumeMount => inferInstanceAs (Message VolumeMount)
  | endpoint => inferInstanceAs (Message Endpoint)
  | appGrant => inferInstanceAs (Message AppGrant)
  | routeGrant => inferInstanceAs (Message RouteGrant)
  | grant => inferInstanceAs (Message Grant)
  | bindingStatus => inferInstanceAs (Message BindingStatus)
  | errorBody => inferInstanceAs (Message ErrorBody)
  | asyncOperation => inferInstanceAs (Message AsyncOperation)
  | asyncKind => inferInstanceAs (Message AsyncKind)
  | operationState => inferInstanceAs (Message OperationState)

abbrev schema (t : MessageType) : Schema t.Carrier := Message.schema

/-- What is left of a message when the members that are never written are reset. -/
def erase : (t : MessageType) → t.Carrier → t.Carrier
  | request op, r => op.withEntries r ⟨none, none⟩
  | response .provision, r => { (r : ProvisionResponse) with existed := false }
  | response .bind, r => { (r : BindResponse) with status := .new }
  | _, x => x

theorem wellFormed_schema (t : MessageType) : t.schema.wellFormed = true := by
  cases t with
  | request op => cases op <;> decide +kernel
  | response op => cases op <;> decide +kernel
  | _ => decide +kernel

end MessageType

/-! ## Messages of well-formed schemas -/

namespace Message

variable {α : Type} [Message α] {erase : α → α} {a : α}

/-- A value is its own tree. -/
theorem ofJson_value (v : Value) :
    (ofJson v.json : Except DecodeError α) = schema.decode .value (Document.ofJson v.json) := by
  rw [ofJson, canonical_eq_self v.canonical]

/-- A value is read as its tree is read by name. -/
theorem ofJson_eq_ok_iff {v : Value} :
    ofJson v.json = .ok a ↔ (schema : Schema α).read? v.json = some a := by
  have hread := (schema : Schema α).toOption_decode (m := .value)
    (Room.holds_unlimited v.json.depth)
  rw [ofJson_value, eq_ok_iff, hread]

/-- A message in which no free-form member is named like a field is read back from its tree. -/
theorem ofJson_toJson_of_apart (hform : (schema : Schema α).wellFormed)
    (hexact : (schema : Schema α).ExactUpTo erase) (hapart : schema.Apart a) :
    ofJson (toJson a) = .ok (erase a) := by
  have hwrites := schema.writes_canonical (schema.encode_writes hform a hapart)
  rw [ofJson, toJson, canonical_idem]
  exact schema.decode_of_exactUpTo hexact hwrites (Room.holds_unlimited _)

/-- The text of a message whose numbers are integers of 64 bits is read as the document that it was
written from. -/
theorem ofText_toText_eq_decode (hintegral : Integral (schema.encode a)) :
    (ofText (toText a) : Except DecodeError α) =
      schema.decode (.text 127) (Document.ofJson (schema.encode a)) := by
  have htext := Document.ofText_text hintegral
  simp only [ofText, toText, htext, if_true]
  exact bind_pure _

theorem ofText_toText_of_apart (hform : (schema : Schema α).wellFormed)
    (hexact : (schema : Schema α).ExactUpTo erase) (hapart : schema.Apart a)
    (hintegral : Integral (schema.encode a)) (hdepth : (schema.encode a).depth ≤ 127) :
    ofText (toText a) = .ok (erase a) := by
  have hroom : (Medium.text 127).room.Holds (schema.encode a).depth := Room.holds_ofText hdepth
  rw [ofText_toText_eq_decode hintegral]
  exact schema.decode_of_exactUpTo hexact (schema.encode_writes hform a hapart) hroom

theorem ofJson_toJson (hform : (schema : Schema α).wellFormed)
    (hexact : (schema : Schema α).ExactUpTo erase) (hplain : schema.Plain a) :
    ofJson (toJson a) = .ok (erase a) :=
  ofJson_toJson_of_apart hform hexact (schema.apart_of_plain a hplain)

theorem ofText_toText (hform : (schema : Schema α).wellFormed)
    (hexact : (schema : Schema α).ExactUpTo erase) (hplain : schema.Plain a)
    (hdepth : (schema.encode a).depth ≤ 127) : ofText (toText a) = .ok (erase a) :=
  ofText_toText_of_apart hform hexact (schema.apart_of_plain a hplain)
    (schema.integral_encode a hplain) hdepth

end Message

/-! ## The schemas of messages -/

@[simp]
theorem MaintenanceInfo.exact_schema : MaintenanceInfo.schema.Exact := by simp [schema]

@[simp]
theorem PreviousValues.exact_schema : PreviousValues.schema.Exact := by simp [schema]

@[simp]
theorem InstanceMetadata.exact_schema : InstanceMetadata.schema.Exact := by simp [schema]

@[simp]
theorem BindingMetadata.exact_schema : BindingMetadata.schema.Exact := by simp [schema]

@[simp]
theorem Plan.exact_schema : Plan.schema.Exact := by simp [schema]

@[simp]
theorem ServiceDefinition.exact_schema : ServiceDefinition.schema.Exact := by simp [schema]

@[simp]
theorem Context.exact_schema : Context.schema.Exact := by simp [schema]

@[simp]
theorem PlatformMetadata.exact_schema : PlatformMetadata.schema.Exact := by simp [schema]

@[simp]
theorem BindResource.exact_schema : BindResource.schema.Exact := by simp [schema]

@[simp]
theorem VolumeMount.exact_schema : VolumeMount.schema.Exact := by simp [schema]

@[simp]
theorem Endpoint.exact_schema : Endpoint.schema.Exact := by simp [schema]

@[simp]
theorem AppGrant.exact_schema : AppGrant.schema.Exact := by simp [schema]

@[simp]
theorem RouteGrant.exact_schema : RouteGrant.schema.Exact := by simp [schema]

theorem Grant.ofSum_toSum (g : Grant) : ofSum g.toSum = g := by cases g <;> rfl

@[simp]
theorem Grant.exact_schema : Grant.schema.Exact := by simp [schema, ofSum_toSum]

@[simp]
theorem AsyncKind.exact_schema : AsyncKind.schema.Exact := trivial

@[simp]
theorem OperationState.exact_schema : OperationState.schema.Exact := trivial

/-- Every message is read back as it was, but for the members that are never written. -/
theorem MessageType.exact_schema (t : MessageType) : t.schema.ExactUpTo t.erase := by
  cases t with
  | request op => cases op <;> exact ⟨fun _ => rfl, by simp⟩
  | response op => cases op <;> exact ⟨fun _ => rfl, by simp⟩
  | grant => exact ⟨Grant.ofSum_toSum, by simp⟩
  | bindingStatus | asyncKind | operationState => exact ⟨fun _ => rfl, trivial⟩
  | _ => exact ⟨fun _ => rfl, by simp⟩

/-! ## Plain messages -/

theorem Object.forall_names (o : Object) {p : String → Prop} :
    (∀ m ∈ membersOf o.toJson, p m.1) ↔ ∀ m ∈ o.members, p m.1 := by
  simp only [toJson, membersOf, List.forall_mem_map]

/-- A context is plain unless a property is named like the platform, or holds a number that is no
integer of 64 bits. -/
theorem Context.plain_iff (c : Context) : schema.Plain c ↔
    (∀ m ∈ c.properties.members, m.1 ≠ "platform") ∧ Integral c.properties.toJson := by
  simp only [schema, Schema.Plain, Fields.Plain, Schema.names?, Schema.encode, Fields.names,
    true_and, forall_const, Object.forall_names (p := (· ∉ ["platform"]))]
  simp [and_comm]

theorem BindResource.plain_iff (r : BindResource) : schema.Plain r ↔
    (∀ m ∈ r.properties.members, m.1 ≠ "app_guid" ∧ m.1 ≠ "route") ∧
      Integral r.properties.toJson := by
  simp only [schema, Schema.Plain, Fields.Plain, Schema.names?, Schema.encode, Fields.names,
    implies_true, true_and, forall_const, Object.forall_names (p := (· ∉ ["app_guid", "route"]))]
  simp [and_comm]

namespace MessageType

/-- A message in which no free-form member takes the name of a field, and every free-form number is
an integer of 64 bits. -/
def Plain (t : MessageType) (x : t.Carrier) : Prop := t.schema.Plain x

/-- How many containers are around each other in the text of a message. -/
def nesting (t : MessageType) (x : t.Carrier) : Nat := (t.schema.encode x).depth

/-- A plain message is read back from its tree, and from its text unless that nests too deep. -/
theorem read_written (t : MessageType) (x : t.Carrier) (h : t.Plain x) :
    Message.ofJson (Message.toJson x) = .ok (t.erase x) ∧
      (t.nesting x ≤ 127 → Message.ofText (Message.toText x) = .ok (t.erase x)) :=
  ⟨Message.ofJson_toJson t.wellFormed_schema t.exact_schema h,
    Message.ofText_toText t.wellFormed_schema t.exact_schema h⟩

/-- An application grant stays one, even with a credential that is named like the member of a
route; the status is not written. -/
theorem read_written_bind :
    let credentials := Object.empty
      |>.insert "port" (.ofJson (.num (.int 18446744073709551615)))
      |>.insert "route_service_url" (.ofJson (.str "https://route\n"))
    let answer : BindResponse :=
      ⟨true, some "op-1", .identical, none, .app ⟨credentials, none, [], []⟩⟩
    (response .bind).Plain answer ∧ (response .bind).nesting answer ≤ 127 ∧
      Message.ofJson (Message.toJson answer) = .ok { answer with status := .new } ∧
      Message.ofText (Message.toText answer) = .ok { answer with status := .new } := by
  intro credentials answer
  have hcredentials : Integral credentials.toJson :=
    ⟨⟨by decide, by decide⟩, trivial, trivial⟩
  have hplain : (response .bind).Plain answer :=
    ⟨⟨trivial, fun _ _ => trivial, nofun, trivial⟩, ⟨hcredentials, nofun, nofun, nofun, trivial⟩,
      nofun⟩
  have hnesting : (response .bind).nesting answer ≤ 127 := by decide +kernel
  have hread := read_written (response .bind) answer hplain
  exact ⟨hplain, hnesting, hread.1, hread.2 hnesting⟩

end MessageType
end ServiceBroker
