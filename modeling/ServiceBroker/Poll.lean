import ServiceBroker.Async.State
import ServiceBroker.Platform

/-!
# Polling for the last operation

A platform polls for the operation of an instance or of a binding. A delete that succeeded tells it
that the resource is gone.
-/
namespace ServiceBroker
open Wire

structure PollInstanceRequest where
  instanceId : String
  serviceId : Option String
  planId : Option String
  operation : Option String
  platform : PlatformMetadata
  deriving Inhabited

namespace PollInstanceRequest

def ofId (instanceId : String) : PollInstanceRequest :=
  { (default : PollInstanceRequest) with instanceId }

def withOperation (r : PollInstanceRequest) (operation : String) : PollInstanceRequest :=
  { r with operation := some operation }

def schema : Schema PollInstanceRequest :=
  .via (fun x => ((x.instanceId, x.serviceId, x.planId, x.operation, ()), x.platform))
    (fun ((instanceId, serviceId, planId, operation, ()), platform) =>
      ⟨instanceId, serviceId, planId, operation, platform⟩)
    (.shared "GetLastServiceOperationRequest"
      (.label "service_instance_id" <|
       .optional "service_id" .text <|
       .optional "plan_id" .text <|
       .optional "operation" .text .done)
      PlatformMetadata.schema)

instance : Message PollInstanceRequest := ⟨schema⟩

end PollInstanceRequest

structure PollInstanceResponse where
  state : OperationState
  description : Option String
  deleteOperation : Bool
  instanceUsable : Option Bool
  updateRepeatable : Option Bool
  deriving DecidableEq

namespace PollInstanceResponse

def ofState (state : OperationState) : PollInstanceResponse := ⟨state, none, false, none, none⟩

/-- Whether the resource has been deleted. -/
def isGone (r : PollInstanceResponse) : Bool := r.deleteOperation && r.state == .succeeded

def schema : Schema PollInstanceResponse :=
  .via (fun x => (x.state, x.description, x.deleteOperation, x.instanceUsable,
      x.updateRepeatable, ()))
    (fun (state, description, deleteOperation, instanceUsable, updateRepeatable, ()) =>
      ⟨state, description, deleteOperation, instanceUsable, updateRepeatable⟩)
    (.record "GetLastServiceOperationResponse"
      (.required "state" OperationState.schema <|
       .optional "description" .text <|
       .switch "delete_operation" false <|
       .optional "instance_usable" .flag <|
       .optional "update_repeatable" .flag .done))

instance : Message PollInstanceResponse := ⟨schema⟩

end PollInstanceResponse

structure PollBindingRequest where
  instanceId : String
  bindingId : String
  serviceId : Option String
  planId : Option String
  operation : Option String
  platform : PlatformMetadata
  deriving Inhabited

namespace PollBindingRequest

def ofIds (instanceId bindingId : String) : PollBindingRequest :=
  { (default : PollBindingRequest) with instanceId, bindingId }

def withOperation (r : PollBindingRequest) (operation : String) : PollBindingRequest :=
  { r with operation := some operation }

def schema : Schema PollBindingRequest :=
  .via (fun x => ((x.instanceId, x.bindingId, x.serviceId, x.planId, x.operation, ()), x.platform))
    (fun ((instanceId, bindingId, serviceId, planId, operation, ()), platform) =>
      ⟨instanceId, bindingId, serviceId, planId, operation, platform⟩)
    (.shared "GetLastServiceBindingOperationRequest"
      (.label "service_instance_id" <|
       .label "binding_id" <|
       .optional "service_id" .text <|
       .optional "plan_id" .text <|
       .optional "operation" .text .done)
      PlatformMetadata.schema)

instance : Message PollBindingRequest := ⟨schema⟩

end PollBindingRequest

structure PollBindingResponse where
  state : OperationState
  description : Option String
  deleteOperation : Bool
  deriving DecidableEq

namespace PollBindingResponse

def ofState (state : OperationState) : PollBindingResponse := ⟨state, none, false⟩

/-- Whether the resource has been deleted. -/
def isGone (r : PollBindingResponse) : Bool := r.deleteOperation && r.state == .succeeded

def schema : Schema PollBindingResponse :=
  .via (fun x => (x.state, x.description, x.deleteOperation, ()))
    (fun (state, description, deleteOperation, ()) => ⟨state, description, deleteOperation⟩)
    (.record "GetLastServiceBindingOperationResponse"
      (.required "state" OperationState.schema <|
       .optional "description" .text <|
       .switch "delete_operation" false .done))

instance : Message PollBindingResponse := ⟨schema⟩

end PollBindingResponse
end ServiceBroker
