import ServiceBroker.Proofs.Messages
import ServiceBroker.Proofs.Wire.Layouts

/-!
# What is read as a request

The members that each request looks for are listed in a table. A request is read from an object as
its table and the one of the platform metadata say; what else the object holds makes no difference.
-/
namespace ServiceBroker
open Wire Json

/-- A message is read as such where it stands for a member, unless null is one. -/
theorem Message.reads {α : Type} [Message α]
    (hnull : ∀ a : α, (ofJson .null : Except DecodeError α) ≠ .ok a) :
    (schema : Schema α).Reads (.message α) where
  fault _ := rfl
  shape j a := by
    have hread := (schema : Schema α).toOption_decode (m := .value)
      (Room.holds_unlimited j.canonical.depth)
    rw [← hread, ← eq_ok_iff]
    rfl
  not_null := hnull

theorem Context.reads_schema : schema.Reads (.message Context) := Message.reads nofun

theorem MaintenanceInfo.reads_schema : schema.Reads (.message MaintenanceInfo) :=
  Message.reads nofun

theorem PreviousValues.reads_schema : schema.Reads (.message PreviousValues) := Message.reads nofun

theorem BindResource.reads_schema : schema.Reads (.message BindResource) := Message.reads nofun

namespace PlatformMetadata

def columns : List (Column PlatformMetadata) :=
  [.optional "platform_instance_id" .text (·.instanceId),
   .optional "api_info_location" .text (·.apiInfoLocation),
   .optional "originating_identity" (.message Context) (·.originatingIdentity),
   .optional "request_identity" .text (·.requestIdentity)]

theorem lists_schema : schema.Lists columns :=
  .record
    (.optional Schema.reads_text <|
     .optional Schema.reads_text <|
     .optional Context.reads_schema <|
     .optional Schema.reads_text .done)
    (fun _ => rfl) (fun _ => rfl)

end PlatformMetadata

namespace Operation

def requestName : Operation → String
  | .provision => "CreateServiceInstanceRequest"
  | .update => "UpdateServiceInstanceRequest"
  | .deprovision => "DeleteServiceInstanceRequest"
  | .fetchInstance => "GetServiceInstanceRequest"
  | .pollInstance => "GetLastServiceOperationRequest"
  | .bind => "CreateServiceInstanceBindingRequest"
  | .unbind => "DeleteServiceInstanceBindingRequest"
  | .fetchBinding => "GetServiceInstanceBindingRequest"
  | .pollBinding => "GetLastServiceBindingOperationRequest"

/-- The own members of a request, as they are declared. -/
def columns : (op : Operation) → List (Column op.Request)
  | .provision =>
    [.defaulted "service_instance_id" .text "" ProvisionRequest.instanceId,
     .required "service_id" .text ProvisionRequest.serviceId,
     .required "plan_id" .text ProvisionRequest.planId,
     .optional "organization_guid" .text ProvisionRequest.organizationGuid,
     .optional "space_guid" .text ProvisionRequest.spaceGuid,
     .optional "context" (.message Context) ProvisionRequest.context,
     .defaulted "parameters" .map .empty ProvisionRequest.parameters,
     .optional "maintenance_info" (.message MaintenanceInfo) ProvisionRequest.maintenanceInfo,
     .defaulted "async_accepted" .flag false ProvisionRequest.asyncAccepted]
  | .update =>
    [.defaulted "service_instance_id" .text "" UpdateRequest.instanceId,
     .required "service_id" .text UpdateRequest.serviceId,
     .optional "plan_id" .text UpdateRequest.planId,
     .optional "previous_values" (.message PreviousValues) UpdateRequest.previousValues,
     .optional "context" (.message Context) UpdateRequest.context,
     .defaulted "parameters" .map .empty UpdateRequest.parameters,
     .optional "maintenance_info" (.message MaintenanceInfo) UpdateRequest.maintenanceInfo,
     .defaulted "async_accepted" .flag false UpdateRequest.asyncAccepted]
  | .deprovision =>
    [.defaulted "service_instance_id" .text "" DeprovisionRequest.instanceId,
     .required "service_id" .text DeprovisionRequest.serviceId,
     .required "plan_id" .text DeprovisionRequest.planId,
     .defaulted "async_accepted" .flag false DeprovisionRequest.asyncAccepted]
  | .fetchInstance =>
    [.defaulted "service_instance_id" .text "" FetchInstanceRequest.instanceId]
  | .pollInstance =>
    [.defaulted "service_instance_id" .text "" PollInstanceRequest.instanceId,
     .optional "service_id" .text PollInstanceRequest.serviceId,
     .optional "plan_id" .text PollInstanceRequest.planId,
     .optional "operation" .text PollInstanceRequest.operation]
  | .bind =>
    [.defaulted "service_instance_id" .text "" BindRequest.instanceId,
     .defaulted "binding_id" .text "" BindRequest.bindingId,
     .required "service_id" .text BindRequest.serviceId,
     .required "plan_id" .text BindRequest.planId,
     .optional "app_guid" .text BindRequest.ownAppGuid,
     .optional "bind_resource" (.message BindResource) BindRequest.resource,
     .optional "context" (.message Context) BindRequest.context,
     .defaulted "parameters" .map .empty BindRequest.parameters,
     .defaulted "async_accepted" .flag false BindRequest.asyncAccepted]
  | .unbind =>
    [.defaulted "service_instance_id" .text "" UnbindRequest.instanceId,
     .defaulted "binding_id" .text "" UnbindRequest.bindingId,
     .required "service_id" .text UnbindRequest.serviceId,
     .required "plan_id" .text UnbindRequest.planId,
     .defaulted "async_accepted" .flag false UnbindRequest.asyncAccepted]
  | .fetchBinding =>
    [.defaulted "service_instance_id" .text "" FetchBindingRequest.instanceId,
     .defaulted "binding_id" .text "" FetchBindingRequest.bindingId]
  | .pollBinding =>
    [.defaulted "service_instance_id" .text "" PollBindingRequest.instanceId,
     .defaulted "binding_id" .text "" PollBindingRequest.bindingId,
     .optional "service_id" .text PollBindingRequest.serviceId,
     .optional "plan_id" .text PollBindingRequest.planId,
     .optional "operation" .text PollBindingRequest.operation]

def platform : (op : Operation) → op.Request → PlatformMetadata
  | .provision, r => r.platform
  | .update, r => r.platform
  | .deprovision, r => r.platform
  | .fetchInstance, r => r.platform
  | .pollInstance, r => r.platform
  | .bind, r => r.platform
  | .unbind, r => r.platform
  | .fetchBinding, r => r.platform
  | .pollBinding, r => r.platform

/-- A request shares its object with the metadata of its platform. Catalog entries are never
read. -/
def layout (op : Operation) : Layout op.Request PlatformMetadata where
  name := op.requestName
  own := op.columns
  later := PlatformMetadata.columns
  part := op.platform
  erase r := op.withEntries r ⟨none, none⟩

theorem fits_schema (op : Operation) : op.layout.Fits (Message.schema : Schema op.Request) := by
  have htext := Schema.reads_text
  have hflag := Schema.reads_flag
  have hdict := Schema.reads_dict
  have hcontext := Context.reads_schema
  have hinfo := MaintenanceInfo.reads_schema
  have hprevious := PreviousValues.reads_schema
  have hresource := BindResource.reads_schema
  cases op <;>
    refine .shared ?_ PlatformMetadata.lists_schema (fun _ => rfl) (fun _ => rfl) (fun _ => rfl)
  case provision =>
    exact .defaulted htext <| .required htext <| .required htext <| .optional htext <|
      .optional htext <| .optional hcontext <| .defaulted hdict <| .optional hinfo <|
      .defaulted hflag .done
  case update =>
    exact .defaulted htext <| .required htext <| .optional htext <| .optional hprevious <|
      .optional hcontext <| .defaulted hdict <| .optional hinfo <| .defaulted hflag .done
  case deprovision =>
    exact .defaulted htext <| .required htext <| .required htext <| .defaulted hflag .done
  case fetchInstance => exact .defaulted htext .done
  case pollInstance =>
    exact .defaulted htext <| .optional htext <| .optional htext <| .optional htext .done
  case bind =>
    exact .defaulted htext <| .defaulted htext <| .required htext <| .required htext <|
      .optional htext <| .optional hresource <| .optional hcontext <| .defaulted hdict <|
      .defaulted hflag .done
  case unbind =>
    exact .defaulted htext <| .defaulted htext <| .required htext <| .required htext <|
      .defaulted hflag .done
  case fetchBinding => exact .defaulted htext <| .defaulted htext .done
  case pollBinding =>
    exact .defaulted htext <| .defaulted htext <| .optional htext <| .optional htext <|
      .optional htext .done

/-- A value is read as the layout of the request says. -/
theorem ofJson_eq_iff (op : Operation) (v : Value) (x : Except DecodeError op.Request) :
    Message.ofJson v.json = x ↔ op.layout.Outcome v.json x := by
  rw [Message.ofJson_value]
  exact op.fits_schema.decode_eq_iff (MessageType.request op).wellFormed_schema v.canonical

end Operation

/-- A request is read from a value as its layout says: only an object is accepted, and of it only
the members of the layout matter; where each of them is of its shape the request holds what they
stand for, and else one problem is reported. Catalog entries are no members of the layout. -/
theorem request_read_as_laid_out (op : Operation) :
    (∀ (v : Value) (x : Except DecodeError op.Request),
      Message.ofJson v.json = x ↔ op.layout.Outcome v.json x) ∧
    (∀ v w : Value, (∃ ms, v.json = .obj ms) → (∃ ms, w.json = .obj ms) →
      (∀ n ∈ op.layout.names, v.json.member? n = w.json.member? n) →
      (Message.ofJson v.json : Except DecodeError op.Request) = Message.ofJson w.json) ∧
    ∀ n ∈ ["service_definition", "plan"], n ∉ op.layout.names := by
  refine ⟨op.ofJson_eq_iff, ?_, ?_⟩
  · rintro v w ⟨ms, hv⟩ ⟨ns, hw⟩ hnames
    have houtcome := (op.ofJson_eq_iff w _).1 rfl
    rw [hv, hw] at hnames
    rw [hw] at houtcome
    refine (op.ofJson_eq_iff v _).2 ?_
    rw [hv, hw]
    exact houtcome.congr fun n hn => (hnames n hn).symm
  · cases op <;> decide

/-- Of several problems the one with the least name is reported, whether or not the body holds a
plan. -/
theorem request_read_as_laid_out_provision :
    let given : List (String × Json) := [("parameters", .null), ("plan_id", .num (.int 3)),
      ("request_identity", .bool true)]
    let more : List (String × Json) := given ++ [("plan", .str "small")]
    let v : Value := .ofJson (.obj given)
    let w : Value := .ofJson (.obj more)
    let layout := Operation.provision.layout
    let e : DecodeError := .shape (.type .null .map)
    (∀ n ∈ layout.names, v.json.member? n = w.json.member? n) ∧ layout.Reports v.json e ∧
      (Message.ofJson v.json : Except DecodeError ProvisionRequest) = .error e ∧
      (Message.ofJson w.json : Except DecodeError ProvisionRequest) = .error e := by
  intro given more v w layout e
  obtain ⟨hread, halike, -⟩ := request_read_as_laid_out .provision
  have hnames : ∀ n ∈ layout.names, v.json.member? n = w.json.member? n := by
    intro n hn
    have hne : n ≠ "plan" := by
      rintro rfl
      exact absurd hn (by decide)
    have hv : v.json.member? n = (given.lookup n).map Json.canonical :=
      member?_canonical (by decide) n
    have hw : w.json.member? n = (more.lookup n).map Json.canonical :=
      member?_canonical (by decide) n
    have hplan : [("plan", Json.str "small")].lookup n = none := (lookup_cons ..).trans (if_neg hne)
    rw [hv, hw, List.lookup_append, hplan, Option.or_none]
  have herror : (Message.ofJson v.json : Except DecodeError ProvisionRequest) = .error e := rfl
  have houtcome : layout.Outcome (.obj given) (.error e) := (hread v (.error e)).1 herror
  exact ⟨hnames, houtcome.reported, herror,
    (halike v w ⟨_, rfl⟩ ⟨_, rfl⟩ hnames).symm.trans herror⟩

end ServiceBroker
