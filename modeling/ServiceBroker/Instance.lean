import ServiceBroker.Async.Answer
import ServiceBroker.Catalog
import ServiceBroker.Platform

/-!
# Requests and answers on service instances

A request carries the catalog entries of its service and plan once they have been looked up; they
are never read from a body, and neither is the note that an instance existed already.
-/
namespace ServiceBroker
open Wire

/-- The catalog entries that a request refers to, as far as they have been looked up. -/
structure CatalogEntries where
  definition : Option ServiceDefinition
  plan : Option Plan
  deriving Inhabited

/-! ## Provision -/

structure ProvisionRequest where
  instanceId : String
  serviceId : String
  planId : String
  organizationGuid : Option String
  spaceGuid : Option String
  context : Option Context
  parameters : Object
  maintenanceInfo : Option MaintenanceInfo
  asyncAccepted : Bool
  platform : PlatformMetadata
  entries : CatalogEntries
  deriving Inhabited

namespace ProvisionRequest

def ofIds (instanceId serviceId planId : String) : ProvisionRequest :=
  { (default : ProvisionRequest) with instanceId, serviceId, planId }

def schema : Schema ProvisionRequest :=
  .via
    (fun x => ((x.instanceId, x.serviceId, x.planId, x.organizationGuid, x.spaceGuid, x.context,
      x.parameters, x.maintenanceInfo, x.asyncAccepted, ()), x.platform))
    (fun ((instanceId, serviceId, planId, organizationGuid, spaceGuid, context, parameters,
        maintenanceInfo, asyncAccepted, ()), platform) =>
      ⟨instanceId, serviceId, planId, organizationGuid, spaceGuid, context, parameters,
        maintenanceInfo, asyncAccepted, platform, default⟩)
    (.shared "CreateServiceInstanceRequest"
      (.label "service_instance_id" <|
       .required "service_id" .text <|
       .required "plan_id" .text <|
       .optional "organization_guid" .text <|
       .optional "space_guid" .text <|
       .optional "context" Context.schema <|
       .freeForm "parameters" <|
       .optional "maintenance_info" MaintenanceInfo.schema <|
       .switch "async_accepted" false .done)
      PlatformMetadata.schema)

instance : Message ProvisionRequest := ⟨schema⟩

end ProvisionRequest

structure ProvisionResponse where
  isAsync : Bool
  operation : Option String
  dashboardUrl : Option String
  /-- The instance existed already, with the same attributes. -/
  existed : Bool
  metadata : Option InstanceMetadata
  deriving Inhabited

namespace ProvisionResponse

def completed : ProvisionResponse := default

def accepted (operation : String) : ProvisionResponse :=
  { (default : ProvisionResponse) with isAsync := true, operation := some operation }

def schema : Schema ProvisionResponse :=
  .via (fun x => (x.isAsync, x.operation, x.dashboardUrl, x.metadata, ()))
    (fun (isAsync, operation, dashboardUrl, metadata, ()) =>
      ⟨isAsync, operation, dashboardUrl, false, metadata⟩)
    (.record "CreateServiceInstanceResponse"
      (.switch "async" false <|
       .optional "operation" .text <|
       .optional "dashboard_url" .text <|
       .optional "metadata" InstanceMetadata.schema .done))

instance : Message ProvisionResponse := ⟨schema⟩
instance : AsyncAnswer ProvisionResponse := ⟨(·.isAsync), (·.operation)⟩

end ProvisionResponse

/-! ## Update -/

structure UpdateRequest where
  instanceId : String
  serviceId : String
  /-- The plan to move to; absent when only parameters change. -/
  planId : Option String
  previousValues : Option PreviousValues
  context : Option Context
  parameters : Object
  maintenanceInfo : Option MaintenanceInfo
  asyncAccepted : Bool
  platform : PlatformMetadata
  entries : CatalogEntries
  deriving Inhabited

namespace UpdateRequest

def ofIds (instanceId serviceId : String) : UpdateRequest :=
  { (default : UpdateRequest) with instanceId, serviceId }

/-- Whether the instance moves to another plan. -/
def changesPlan (r : UpdateRequest) : Bool :=
  match r.planId, r.previousValues with
  | some target, some previous => previous.planId != some target
  | some _, none => true
  | none, _ => false

def schema : Schema UpdateRequest :=
  .via
    (fun x => ((x.instanceId, x.serviceId, x.planId, x.previousValues, x.context, x.parameters,
      x.maintenanceInfo, x.asyncAccepted, ()), x.platform))
    (fun ((instanceId, serviceId, planId, previousValues, context, parameters, maintenanceInfo,
        asyncAccepted, ()), platform) =>
      ⟨instanceId, serviceId, planId, previousValues, context, parameters, maintenanceInfo,
        asyncAccepted, platform, default⟩)
    (.shared "UpdateServiceInstanceRequest"
      (.label "service_instance_id" <|
       .required "service_id" .text <|
       .optional "plan_id" .text <|
       .optional "previous_values" PreviousValues.schema <|
       .optional "context" Context.schema <|
       .freeForm "parameters" <|
       .optional "maintenance_info" MaintenanceInfo.schema <|
       .switch "async_accepted" false .done)
      PlatformMetadata.schema)

instance : Message UpdateRequest := ⟨schema⟩

end UpdateRequest

structure UpdateResponse where
  isAsync : Bool
  operation : Option String
  dashboardUrl : Option String
  metadata : Option InstanceMetadata
  deriving Inhabited

namespace UpdateResponse

def completed : UpdateResponse := default

def accepted (operation : String) : UpdateResponse :=
  { (default : UpdateResponse) with isAsync := true, operation := some operation }

def schema : Schema UpdateResponse :=
  .via (fun x => (x.isAsync, x.operation, x.dashboardUrl, x.metadata, ()))
    (fun (isAsync, operation, dashboardUrl, metadata, ()) =>
      ⟨isAsync, operation, dashboardUrl, metadata⟩)
    (.record "UpdateServiceInstanceResponse"
      (.switch "async" false <|
       .optional "operation" .text <|
       .optional "dashboard_url" .text <|
       .optional "metadata" InstanceMetadata.schema .done))

instance : Message UpdateResponse := ⟨schema⟩
instance : AsyncAnswer UpdateResponse := ⟨(·.isAsync), (·.operation)⟩

end UpdateResponse

/-! ## Deprovision -/

structure DeprovisionRequest where
  instanceId : String
  serviceId : String
  planId : String
  asyncAccepted : Bool
  platform : PlatformMetadata
  entries : CatalogEntries
  deriving Inhabited

namespace DeprovisionRequest

def ofIds (instanceId serviceId planId : String) : DeprovisionRequest :=
  { (default : DeprovisionRequest) with instanceId, serviceId, planId }

def schema : Schema DeprovisionRequest :=
  .via (fun x => ((x.instanceId, x.serviceId, x.planId, x.asyncAccepted, ()), x.platform))
    (fun ((instanceId, serviceId, planId, asyncAccepted, ()), platform) =>
      ⟨instanceId, serviceId, planId, asyncAccepted, platform, default⟩)
    (.shared "DeleteServiceInstanceRequest"
      (.label "service_instance_id" <|
       .required "service_id" .text <|
       .required "plan_id" .text <|
       .switch "async_accepted" false .done)
      PlatformMetadata.schema)

instance : Message DeprovisionRequest := ⟨schema⟩

end DeprovisionRequest

structure DeprovisionResponse where
  isAsync : Bool
  operation : Option String
  deriving Inhabited, DecidableEq

namespace DeprovisionResponse

def completed : DeprovisionResponse := default

def accepted (operation : String) : DeprovisionResponse := ⟨true, some operation⟩

def schema : Schema DeprovisionResponse :=
  .via (fun x => (x.isAsync, x.operation, ()))
    (fun (isAsync, operation, ()) => ⟨isAsync, operation⟩)
    (.record "DeleteServiceInstanceResponse"
      (.switch "async" false <|
       .optional "operation" .text .done))

instance : Message DeprovisionResponse := ⟨schema⟩
instance : AsyncAnswer DeprovisionResponse := ⟨(·.isAsync), (·.operation)⟩

end DeprovisionResponse

/-! ## Fetch -/

structure FetchInstanceRequest where
  instanceId : String
  platform : PlatformMetadata
  deriving Inhabited

namespace FetchInstanceRequest

def ofId (instanceId : String) : FetchInstanceRequest :=
  { (default : FetchInstanceRequest) with instanceId }

def schema : Schema FetchInstanceRequest :=
  .via (fun x => ((x.instanceId, ()), x.platform))
    (fun ((instanceId, ()), platform) => ⟨instanceId, platform⟩)
    (.shared "GetServiceInstanceRequest" (.label "service_instance_id" .done)
      PlatformMetadata.schema)

instance : Message FetchInstanceRequest := ⟨schema⟩

end FetchInstanceRequest

structure FetchInstanceResponse where
  serviceId : String
  planId : String
  dashboardUrl : Option String
  parameters : Object
  maintenanceInfo : Option MaintenanceInfo
  metadata : Option InstanceMetadata
  deriving Inhabited

namespace FetchInstanceResponse

def ofIds (serviceId planId : String) : FetchInstanceResponse :=
  { (default : FetchInstanceResponse) with serviceId, planId }

def schema : Schema FetchInstanceResponse :=
  .via
    (fun x => (x.serviceId, x.planId, x.dashboardUrl, x.parameters, x.maintenanceInfo,
      x.metadata, ()))
    (fun (serviceId, planId, dashboardUrl, parameters, maintenanceInfo, metadata, ()) =>
      ⟨serviceId, planId, dashboardUrl, parameters, maintenanceInfo, metadata⟩)
    (.record "GetServiceInstanceResponse"
      (.required "service_id" .text <|
       .required "plan_id" .text <|
       .optional "dashboard_url" .text <|
       .freeForm "parameters" <|
       .optional "maintenance_info" MaintenanceInfo.schema <|
       .optional "metadata" InstanceMetadata.schema .done))

instance : Message FetchInstanceResponse := ⟨schema⟩

end FetchInstanceResponse
end ServiceBroker
