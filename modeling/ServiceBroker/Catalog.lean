import ServiceBroker.Metadata

/-!
# The catalog

What a broker offers: services, each with its plans. Ids may repeat; the first entry with an id is
the one that counts.
-/
namespace ServiceBroker
open Wire

structure Plan where
  id : String
  name : String
  description : String
  free : Bool
  bindable : Option Bool
  maintenanceInfo : Option MaintenanceInfo
  metadata : Object
  deriving Inhabited

def Plan.schema : Schema Plan :=
  .via
    (fun x => (x.id, x.name, x.description, x.free, x.bindable, x.maintenanceInfo, x.metadata, ()))
    (fun (id, name, description, free, bindable, maintenanceInfo, metadata, ()) =>
      ⟨id, name, description, free, bindable, maintenanceInfo, metadata⟩)
    (.record "Plan"
      (.required "id" .text <|
       .required "name" .text <|
       .required "description" .text <|
       .switch "free" true <|
       .optional "bindable" .flag <|
       .optional "maintenance_info" MaintenanceInfo.schema <|
       .freeForm "metadata" .done))

instance : Message Plan := ⟨Plan.schema⟩

structure ServiceDefinition where
  id : String
  name : String
  description : String
  bindable : Bool
  planUpdateable : Bool
  instancesRetrievable : Bool
  bindingsRetrievable : Bool
  plans : List Plan
  metadata : Object
  deriving Inhabited

namespace ServiceDefinition

def plan? (s : ServiceDefinition) (id : String) : Option Plan := s.plans.find? (·.id == id)

def schema : Schema ServiceDefinition :=
  .via
    (fun x => (x.id, x.name, x.description, x.bindable, x.planUpdateable, x.instancesRetrievable,
      x.bindingsRetrievable, x.plans, x.metadata, ()))
    (fun (id, name, description, bindable, planUpdateable, instancesRetrievable,
        bindingsRetrievable, plans, metadata, ()) =>
      ⟨id, name, description, bindable, planUpdateable, instancesRetrievable,
        bindingsRetrievable, plans, metadata⟩)
    (.record "ServiceDefinition"
      (.required "id" .text <|
       .required "name" .text <|
       .required "description" .text <|
       .required "bindable" .flag <|
       .switch "plan_updateable" false <|
       .switch "instances_retrievable" false <|
       .switch "bindings_retrievable" false <|
       .defaulted "plans" (.list Plan.schema) (.spoken []) <|
       .freeForm "metadata" .done))

instance : Message ServiceDefinition := ⟨schema⟩

end ServiceDefinition

structure Catalog where
  services : List ServiceDefinition
  deriving Inhabited

namespace Catalog

def service? (c : Catalog) (id : String) : Option ServiceDefinition :=
  c.services.find? (·.id == id)

def schema : Schema Catalog :=
  .via (fun x => (x.services, ())) (fun (services, ()) => ⟨services⟩)
    (.record "Catalog" (.required "services" (.list ServiceDefinition.schema) .done))

instance : Message Catalog := ⟨schema⟩

end Catalog
end ServiceBroker
