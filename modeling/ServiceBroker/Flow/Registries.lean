import ServiceBroker.Flow.Registry
import ServiceBroker.Operation

/-!
# The registries of a broker

The seven operations with hooks have a registry each. Fetches have none.
-/
namespace ServiceBroker
open Operation

structure FlowPlans where
  provision : FlowPlan ProvisionRequest ProvisionResponse := .empty
  update : FlowPlan UpdateRequest UpdateResponse := .empty
  deprovision : FlowPlan DeprovisionRequest DeprovisionResponse := .empty
  pollInstance : FlowPlan PollInstanceRequest PollInstanceResponse := .empty
  bind : FlowPlan BindRequest BindResponse := .empty
  unbind : FlowPlan UnbindRequest UnbindResponse := .empty
  pollBinding : FlowPlan PollBindingRequest PollBindingResponse := .empty

structure FlowRegistries where
  provision : FlowRegistry ProvisionRequest ProvisionResponse := .empty
  update : FlowRegistry UpdateRequest UpdateResponse := .empty
  deprovision : FlowRegistry DeprovisionRequest DeprovisionResponse := .empty
  pollInstance : FlowRegistry PollInstanceRequest PollInstanceResponse := .empty
  bind : FlowRegistry BindRequest BindResponse := .empty
  unbind : FlowRegistry UnbindRequest UnbindResponse := .empty
  pollBinding : FlowRegistry PollBindingRequest PollBindingResponse := .empty

private def describeAll (title : String) (parts : List (String × String)) : String :=
  title ++ " \x7b " ++ ", ".intercalate (parts.map fun (name, text) => name ++ ": " ++ text) ++
    " \x7d"

def FlowPlans.describe (p : FlowPlans) : String :=
  describeAll "EventFlowConfig"
    [("create_instance", p.provision.describe), ("update_instance", p.update.describe),
      ("delete_instance", p.deprovision.describe), ("last_operation", p.pollInstance.describe),
      ("create_binding", p.bind.describe), ("delete_binding", p.unbind.describe),
      ("last_binding_operation", p.pollBinding.describe)]

namespace FlowRegistries

def ofPlans (p : FlowPlans) : FlowRegistries where
  provision := .ofPlan p.provision
  update := .ofPlan p.update
  deprovision := .ofPlan p.deprovision
  pollInstance := .ofPlan p.pollInstance
  bind := .ofPlan p.bind
  unbind := .ofPlan p.unbind
  pollBinding := .ofPlan p.pollBinding

/-- The hook counts of each registry under its name. -/
def counts (r : FlowRegistries) : List (String × HookCounts) :=
  [("create_instance", r.provision.counts), ("update_instance", r.update.counts),
    ("delete_instance", r.deprovision.counts), ("last_operation", r.pollInstance.counts),
    ("create_binding", r.bind.counts), ("delete_binding", r.unbind.counts),
    ("last_binding_operation", r.pollBinding.counts)]

def describe (r : FlowRegistries) : String :=
  describeAll "EventFlowRegistries"
    (r.counts.map fun (name, counts) => (name, counts.describe "EventFlowRegistry"))

/-- The registry of an operation, if it has hooks at all. -/
def get? (r : FlowRegistries) : (op : Operation) → Option (FlowRegistry op.Request op.Response)
  | .provision => some r.provision
  | .update => some r.update
  | .deprovision => some r.deprovision
  | .pollInstance => some r.pollInstance
  | .bind => some r.bind
  | .unbind => some r.unbind
  | .pollBinding => some r.pollBinding
  | .fetchInstance | .fetchBinding => none

end FlowRegistries
end ServiceBroker
