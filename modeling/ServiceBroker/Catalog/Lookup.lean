import ServiceBroker.Catalog
import ServiceBroker.Failure

/-!
# Looking up catalog entries

A request names a service and perhaps a plan of it. Failing to get at the catalog comes before
failing to find an entry in it.
-/
namespace ServiceBroker

/-- A source of service definitions by id. -/
abbrev CatalogService := String → Except Failure (Option ServiceDefinition)

namespace CatalogService

def ofCatalog (c : Catalog) : CatalogService := fun id => .ok (c.service? id)

def failing (f : Failure) : CatalogService := fun _ => .error f

/-- The service with an id, and the plan of that service when one is asked for. -/
def resolve (find : CatalogService) (serviceId : String) (planId : Option String) :
    Except Failure (ServiceDefinition × Option Plan) := do
  match ← find serviceId with
  | none => throw (.serviceDoesNotExist serviceId)
  | some s =>
    match planId with
    | none => return (s, none)
    | some planId =>
      match s.plan? planId with
      | some p => return (s, some p)
      | none => throw (.planDoesNotExist planId)

end CatalogService
end ServiceBroker
