import ServiceBroker.Operation

/-!
# Services

What a broker does for instances and bindings is up to its services. A call takes some time and then
ends; ending may depend on a state that all calls share, and may change it. Fetching, polling and
updating are unsupported unless a service offers them; each of these methods names itself.
-/
namespace ServiceBroker

/-- A service call under way: how long it takes, and how it then ends. -/
structure Attempt (σ Res : Type) where
  delay : Nat
  finish : σ → Except Failure Res × σ

namespace Attempt

variable {σ Res : Type}

/-- A call that neither looks at the shared state nor changes it. -/
def fixed (delay : Nat) (outcome : Except Failure Res) : Attempt σ Res :=
  ⟨delay, fun s => (outcome, s)⟩

/-- A call of a method that a service does not offer. -/
def unsupported (operation : String) : Attempt σ Res := fixed 0 (.error (.unsupported operation))

end Attempt

structure InstanceService (σ : Type) where
  provision : ProvisionRequest → Attempt σ ProvisionResponse
  update : UpdateRequest → Attempt σ UpdateResponse := fun _ =>
    .unsupported "update_service_instance"
  deprovision : DeprovisionRequest → Attempt σ DeprovisionResponse
  fetch : FetchInstanceRequest → Attempt σ FetchInstanceResponse := fun _ =>
    .unsupported "get_service_instance"
  poll : PollInstanceRequest → Attempt σ PollInstanceResponse := fun _ =>
    .unsupported "get_last_operation"

structure BindingService (σ : Type) where
  bind : BindRequest → Attempt σ BindResponse
  unbind : UnbindRequest → Attempt σ UnbindResponse
  fetch : FetchBindingRequest → Attempt σ FetchBindingResponse := fun _ =>
    .unsupported "get_service_instance_binding"
  poll : PollBindingRequest → Attempt σ PollBindingResponse := fun _ =>
    .unsupported "get_last_binding_operation"

structure Services (σ : Type) where
  instances : InstanceService σ
  bindings : BindingService σ

/-- The call of the one service method that an operation belongs to. -/
def Services.attempt {σ : Type} (s : Services σ) :
    (op : Operation) → op.Request → Attempt σ op.Response
  | .provision, r => s.instances.provision r
  | .update, r => s.instances.update r
  | .deprovision, r => s.instances.deprovision r
  | .fetchInstance, r => s.instances.fetch r
  | .pollInstance, r => s.instances.poll r
  | .bind, r => s.bindings.bind r
  | .unbind, r => s.bindings.unbind r
  | .fetchBinding, r => s.bindings.fetch r
  | .pollBinding, r => s.bindings.poll r

end ServiceBroker
