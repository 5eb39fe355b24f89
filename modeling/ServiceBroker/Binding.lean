import ServiceBroker.Binding.Grant
import ServiceBroker.Instance

/-!
# Requests and answers on bindings

The answers to a bind and to a fetch share their object with what the binding grants.
-/
namespace ServiceBroker
open Wire

/-- Whether a binding is new or existed already. -/
inductive BindingStatus where
  | new
  | identical
  | different
  deriving DecidableEq, Repr, Inhabited

namespace BindingStatus

def word : BindingStatus → String
  | .new => "NEW"
  | .identical => "EXISTS_WITH_IDENTICAL_PARAMETERS"
  | .different => "EXISTS_WITH_DIFFERENT_PARAMETERS"

def existed : BindingStatus → Bool
  | .new => false
  | _ => true

def schema : Schema BindingStatus :=
  .choice ⟨[.new, .identical, .different], word, by rintro (_ | _ | _) <;> rfl⟩

instance : Message BindingStatus := ⟨schema⟩

end BindingStatus

/-! ## Bind -/

structure BindRequest where
  instanceId : String
  bindingId : String
  serviceId : String
  planId : String
  /-- The application, as platforms used to name it. -/
  ownAppGuid : Option String
  resource : Option BindResource
  context : Option Context
  parameters : Object
  asyncAccepted : Bool
  platform : PlatformMetadata
  entries : CatalogEntries
  deriving Inhabited

namespace BindRequest

def ofIds (instanceId bindingId serviceId planId : String) : BindRequest :=
  { (default : BindRequest) with instanceId, bindingId, serviceId, planId }

/-- The application that is bound; the one of the resource comes first. -/
def appGuid? (r : BindRequest) : Option String := (r.resource.bind (·.appGuid)) <|> r.ownAppGuid

/-- The route that is bound. -/
def route? (r : BindRequest) : Option String := r.resource.bind (·.route)

def schema : Schema BindRequest :=
  .via
    (fun x => ((x.instanceId, x.bindingId, x.serviceId, x.planId, x.ownAppGuid, x.resource,
      x.context, x.parameters, x.asyncAccepted, ()), x.platform))
    (fun ((instanceId, bindingId, serviceId, planId, ownAppGuid, resource, context, parameters,
        asyncAccepted, ()), platform) =>
      ⟨instanceId, bindingId, serviceId, planId, ownAppGuid, resource, context, parameters,
        asyncAccepted, platform, default⟩)
    (.shared "CreateServiceInstanceBindingRequest"
      (.label "service_instance_id" <|
       .label "binding_id" <|
       .required "service_id" .text <|
       .required "plan_id" .text <|
       .optional "app_guid" .text <|
       .optional "bind_resource" BindResource.schema <|
       .optional "context" Context.schema <|
       .freeForm "parameters" <|
       .switch "async_accepted" false .done)
      PlatformMetadata.schema)

instance : Message BindRequest := ⟨schema⟩

end BindRequest

structure BindResponse where
  isAsync : Bool
  operation : Option String
  status : BindingStatus
  metadata : Option BindingMetadata
  grant : Grant
  deriving Inhabited

namespace BindResponse

def app (credentials : Object) : BindResponse :=
  { (default : BindResponse) with
    grant := .app { (default : AppGrant) with credentials } }

def route (serviceUrl : String) : BindResponse :=
  { (default : BindResponse) with grant := .route ⟨serviceUrl⟩ }

def accepted (operation : String) : BindResponse :=
  { (default : BindResponse) with isAsync := true, operation := some operation }

def withStatus (r : BindResponse) (status : BindingStatus) : BindResponse := { r with status }

def schema : Schema BindResponse :=
  .via (fun x => ((x.isAsync, x.operation, x.metadata, ()), x.grant))
    (fun ((isAsync, operation, metadata, ()), grant) => ⟨isAsync, operation, .new, metadata, grant⟩)
    (.shared "CreateServiceInstanceBindingResponse"
      (.switch "async" false <|
       .optional "operation" .text <|
       .optional "metadata" BindingMetadata.schema .done)
      Grant.schema)

instance : Message BindResponse := ⟨schema⟩
instance : AsyncAnswer BindResponse := ⟨(·.isAsync), (·.operation)⟩

end BindResponse

/-! ## Unbind -/

structure UnbindRequest where
  instanceId : String
  bindingId : String
  serviceId : String
  planId : String
  asyncAccepted : Bool
  platform : PlatformMetadata
  entries : CatalogEntries
  deriving Inhabited

namespace UnbindRequest

def ofIds (instanceId bindingId serviceId planId : String) : UnbindRequest :=
  { (default : UnbindRequest) with instanceId, bindingId, serviceId, planId }

def schema : Schema UnbindRequest :=
  .via
    (fun x => ((x.instanceId, x.bindingId, x.serviceId, x.planId, x.asyncAccepted, ()),
      x.platform))
    (fun ((instanceId, bindingId, serviceId, planId, asyncAccepted, ()), platform) =>
      ⟨instanceId, bindingId, serviceId, planId, asyncAccepted, platform, default⟩)
    (.shared "DeleteServiceInstanceBindingRequest"
      (.label "service_instance_id" <|
       .label "binding_id" <|
       .required "service_id" .text <|
       .required "plan_id" .text <|
       .switch "async_accepted" false .done)
      PlatformMetadata.schema)

instance : Message UnbindRequest := ⟨schema⟩

end UnbindRequest

structure UnbindResponse where
  isAsync : Bool
  operation : Option String
  deriving Inhabited, DecidableEq

namespace UnbindResponse

def completed : UnbindResponse := default

def accepted (operation : String) : UnbindResponse := ⟨true, some operation⟩

def schema : Schema UnbindResponse :=
  .via (fun x => (x.isAsync, x.operation, ()))
    (fun (isAsync, operation, ()) => ⟨isAsync, operation⟩)
    (.record "DeleteServiceInstanceBindingResponse"
      (.switch "async" false <|
       .optional "operation" .text .done))

instance : Message UnbindResponse := ⟨schema⟩
instance : AsyncAnswer UnbindResponse := ⟨(·.isAsync), (·.operation)⟩

end UnbindResponse

/-! ## Fetch -/

structure FetchBindingRequest where
  instanceId : String
  bindingId : String
  platform : PlatformMetadata
  deriving Inhabited

namespace FetchBindingRequest

def ofIds (instanceId bindingId : String) : FetchBindingRequest :=
  { (default : FetchBindingRequest) with instanceId, bindingId }

def schema : Schema FetchBindingRequest :=
  .via (fun x => ((x.instanceId, x.bindingId, ()), x.platform))
    (fun ((instanceId, bindingId, ()), platform) => ⟨instanceId, bindingId, platform⟩)
    (.shared "GetServiceInstanceBindingRequest"
      (.label "service_instance_id" <|
       .label "binding_id" .done)
      PlatformMetadata.schema)

instance : Message FetchBindingRequest := ⟨schema⟩

end FetchBindingRequest

structure FetchBindingResponse where
  parameters : Object
  metadata : Option BindingMetadata
  grant : Grant
  deriving Inhabited

namespace FetchBindingResponse

def schema : Schema FetchBindingResponse :=
  .via (fun x => ((x.parameters, x.metadata, ()), x.grant))
    (fun ((parameters, metadata, ()), grant) => ⟨parameters, metadata, grant⟩)
    (.shared "GetServiceInstanceBindingResponse"
      (.freeForm "parameters" <|
       .optional "metadata" BindingMetadata.schema .done)
      Grant.schema)

instance : Message FetchBindingResponse := ⟨schema⟩

end FetchBindingResponse
end ServiceBroker
