import ServiceBroker.Async.Operation
import ServiceBroker.Binding
import ServiceBroker.Failure

/-!
# The operations of a broker

Five operations change state, two fetch and two poll. `Request` and `Response` give the messages of
each, so that an answer always belongs to its request.
-/
namespace ServiceBroker

inductive Operation where
  | provision
  | update
  | deprovision
  | fetchInstance
  | pollInstance
  | bind
  | unbind
  | fetchBinding
  | pollBinding
  deriving DecidableEq, Repr

namespace Operation

/-- The name in logs and messages. -/
def name : Operation → String
  | .provision => "create_service_instance"
  | .update => "update_service_instance"
  | .deprovision => "delete_service_instance"
  | .fetchInstance => "get_service_instance"
  | .pollInstance => "get_last_operation"
  | .bind => "create_service_instance_binding"
  | .unbind => "delete_service_instance_binding"
  | .fetchBinding => "get_service_instance_binding"
  | .pollBinding => "get_last_binding_operation"

/-- Fetches and polls never change state. -/
def isReadOnly : Operation → Bool
  | .fetchInstance | .pollInstance | .fetchBinding | .pollBinding => true
  | _ => false

abbrev Request : Operation → Type
  | .provision => ProvisionRequest
  | .update => UpdateRequest
  | .deprovision => DeprovisionRequest
  | .fetchInstance => FetchInstanceRequest
  | .pollInstance => PollInstanceRequest
  | .bind => BindRequest
  | .unbind => UnbindRequest
  | .fetchBinding => FetchBindingRequest
  | .pollBinding => PollBindingRequest

abbrev Response : Operation → Type
  | .provision => ProvisionResponse
  | .update => UpdateResponse
  | .deprovision => DeprovisionResponse
  | .fetchInstance => FetchInstanceResponse
  | .pollInstance => PollInstanceResponse
  | .bind => BindResponse
  | .unbind => UnbindResponse
  | .fetchBinding => FetchBindingResponse
  | .pollBinding => PollBindingResponse

instance : (op : Operation) → Message op.Request
  | .provision => inferInstanceAs (Message ProvisionRequest)
  | .update => inferInstanceAs (Message UpdateRequest)
  | .deprovision => inferInstanceAs (Message DeprovisionRequest)
  | .fetchInstance => inferInstanceAs (Message FetchInstanceRequest)
  | .pollInstance => inferInstanceAs (Message PollInstanceRequest)
  | .bind => inferInstanceAs (Message BindRequest)
  | .unbind => inferInstanceAs (Message UnbindRequest)
  | .fetchBinding => inferInstanceAs (Message FetchBindingRequest)
  | .pollBinding => inferInstanceAs (Message PollBindingRequest)

instance : (op : Operation) → Message op.Response
  | .provision => inferInstanceAs (Message ProvisionResponse)
  | .update => inferInstanceAs (Message UpdateResponse)
  | .deprovision => inferInstanceAs (Message DeprovisionResponse)
  | .fetchInstance => inferInstanceAs (Message FetchInstanceResponse)
  | .pollInstance => inferInstanceAs (Message PollInstanceResponse)
  | .bind => inferInstanceAs (Message BindResponse)
  | .unbind => inferInstanceAs (Message UnbindResponse)
  | .fetchBinding => inferInstanceAs (Message FetchBindingResponse)
  | .pollBinding => inferInstanceAs (Message PollBindingResponse)

def instanceId : (op : Operation) → op.Request → String
  | .provision, r => r.instanceId
  | .update, r => r.instanceId
  | .deprovision, r => r.instanceId
  | .fetchInstance, r => r.instanceId
  | .pollInstance, r => r.instanceId
  | .bind, r => r.instanceId
  | .unbind, r => r.instanceId
  | .fetchBinding, r => r.instanceId
  | .pollBinding, r => r.instanceId

/-- The binding that a binding operation is about. -/
def bindingId? : (op : Operation) → op.Request → Option String
  | .bind, r => some r.bindingId
  | .unbind, r => some r.bindingId
  | .fetchBinding, r => some r.bindingId
  | .pollBinding, r => some r.bindingId
  | .provision, _ | .update, _ | .deprovision, _ | .fetchInstance, _ | .pollInstance, _ => none

/-- The service and plan that a state-changing request names. -/
def catalogIds? : (op : Operation) → op.Request → Option (String × Option String)
  | .provision, r => some (r.serviceId, some r.planId)
  | .update, r => some (r.serviceId, r.planId)
  | .deprovision, r => some (r.serviceId, some r.planId)
  | .bind, r => some (r.serviceId, some r.planId)
  | .unbind, r => some (r.serviceId, some r.planId)
  | .fetchInstance, _ | .pollInstance, _ | .fetchBinding, _ | .pollBinding, _ => none

/-- The catalog entries that a state-changing request carries. -/
def entries? : (op : Operation) → op.Request → Option CatalogEntries
  | .provision, r => some r.entries
  | .update, r => some r.entries
  | .deprovision, r => some r.entries
  | .bind, r => some r.entries
  | .unbind, r => some r.entries
  | .fetchInstance, _ | .pollInstance, _ | .fetchBinding, _ | .pollBinding, _ => none

def withEntries : (op : Operation) → op.Request → CatalogEntries → op.Request
  | .provision, r, entries => { r with entries }
  | .update, r, entries => { r with entries }
  | .deprovision, r, entries => { r with entries }
  | .bind, r, entries => { r with entries }
  | .unbind, r, entries => { r with entries }
  | .fetchInstance, r, _ => r
  | .pollInstance, r, _ => r
  | .fetchBinding, r, _ => r
  | .pollBinding, r, _ => r

/-- How a state-changing operation was answered: whether asynchronously, and with which token. -/
structure Acknowledgement where
  isAsync : Bool
  token : Option String
  violatesContract : Bool
  deriving DecidableEq, Repr

private def acknowledge {α : Type} [AsyncAnswer α] (a : α) : Acknowledgement :=
  ⟨AsyncAnswer.isAsync a, AsyncAnswer.token a, AsyncAnswer.violatesContract a⟩

/-- The acknowledgement in an answer, if the operation changes state. -/
def acknowledgement? : (op : Operation) → op.Response → Option Acknowledgement
  | .provision, r => some (acknowledge (show ProvisionResponse from r))
  | .update, r => some (acknowledge (show UpdateResponse from r))
  | .deprovision, r => some (acknowledge (show DeprovisionResponse from r))
  | .bind, r => some (acknowledge (show BindResponse from r))
  | .unbind, r => some (acknowledge (show UnbindResponse from r))
  | .fetchInstance, _ | .pollInstance, _ | .fetchBinding, _ | .pollBinding, _ => none

end Operation
end ServiceBroker
