import ServiceBroker.Wire.Message

/-!
# Metadata

Small records that services, plans, instances and bindings carry with them.
-/
namespace ServiceBroker
open Wire

/-- The maintenance version of a plan. -/
structure MaintenanceInfo where
  version : String
  description : Option String
  deriving Inhabited, DecidableEq

def MaintenanceInfo.schema : Schema MaintenanceInfo :=
  .via (fun x => (x.version, x.description, ())) (fun (version, description, ()) =>
      ⟨version, description⟩)
    (.record "MaintenanceInfo"
      (.required "version" .text <|
       .optional "description" .text .done))

instance : Message MaintenanceInfo := ⟨MaintenanceInfo.schema⟩

/-- What an instance was before an update. -/
structure PreviousValues where
  serviceId : Option String
  planId : Option String
  organizationId : Option String
  spaceId : Option String
  maintenanceInfo : Option MaintenanceInfo
  deriving Inhabited, DecidableEq

def PreviousValues.schema : Schema PreviousValues :=
  .via (fun x => (x.serviceId, x.planId, x.organizationId, x.spaceId, x.maintenanceInfo, ()))
    (fun (serviceId, planId, organizationId, spaceId, maintenanceInfo, ()) =>
      ⟨serviceId, planId, organizationId, spaceId, maintenanceInfo⟩)
    (.record "PreviousValues"
      (.optional "service_id" .text <|
       .optional "plan_id" .text <|
       .optional "organization_id" .text <|
       .optional "space_id" .text <|
       .optional "maintenance_info" MaintenanceInfo.schema .done))

instance : Message PreviousValues := ⟨PreviousValues.schema⟩

structure InstanceMetadata where
  labels : Object
  attributes : Object
  deriving Inhabited

def InstanceMetadata.schema : Schema InstanceMetadata :=
  .via (fun x => (x.labels, x.attributes, ())) (fun (labels, attributes, ()) =>
      ⟨labels, attributes⟩)
    (.record "InstanceMetadata"
      (.freeForm "labels" <|
       .freeForm "attributes" .done))

instance : Message InstanceMetadata := ⟨InstanceMetadata.schema⟩

/-- When a binding ends, and by when it should be renewed. -/
structure BindingMetadata where
  expiresAt : Option String
  renewBefore : Option String
  deriving Inhabited, DecidableEq

def BindingMetadata.schema : Schema BindingMetadata :=
  .via (fun x => (x.expiresAt, x.renewBefore, ())) (fun (expiresAt, renewBefore, ()) =>
      ⟨expiresAt, renewBefore⟩)
    (.record "BindingMetadata"
      (.optional "expires_at" .text <|
       .optional "renew_before" .text .done))

instance : Message BindingMetadata := ⟨BindingMetadata.schema⟩

end ServiceBroker
