import ServiceBroker.Operation

/-!
# What a broker reports about itself

Events say what happened to a request, spans within which request and operation. The fields of
either are values ready to be written.
-/
namespace ServiceBroker

/-- The phases that have hooks. -/
inductive FlowPhase where
  | initialization
  | completion
  | error
  deriving DecidableEq, Repr

def FlowPhase.word : FlowPhase → String
  | .initialization => "initialization"
  | .completion => "completion"
  | .error => "error"

namespace Trace

inductive Level where
  | debug
  | info
  | warn
  deriving DecidableEq, Repr

def Level.word : Level → String
  | .debug => "DEBUG"
  | .info => "INFO"
  | .warn => "WARN"

inductive Event where
  | hookFailed (phase : FlowPhase) (index : Nat) (failure : Failure)
  | phaseSettled (op : Operation) (phase : FlowPhase)
  | runningErrorFlows (op : Operation) (failure : Failure)
  /-- An error hook failed while a failure was being handled. -/
  | doubleFault (op : Operation) (failure hookFailure : Failure)
  /-- A token came with an answer that is not asynchronous. -/
  | strayToken (op : Operation) (token : String)
  | accepted (op : Operation) (isAsync : Bool) (token : String)
  | complete (op : Operation) (failure : Option Failure)
  | shed (op : Operation) (instanceId : String) (inFlight : Nat)
  deriving DecidableEq, Repr

/-- Names and values of an event or a span. -/
abbrev Attributes := List (String × Json)

namespace Event

def level : Event → Level
  | .complete .. => .info
  | .doubleFault .. | .strayToken .. | .shed .. => .warn
  | .hookFailed .. | .phaseSettled .. | .runningErrorFlows .. | .accepted .. => .debug

def message : Event → String
  | .hookFailed .. => "event flow hook failed"
  | .phaseSettled .. => "phase settled"
  | .runningErrorFlows .. => "running error flows"
  | .doubleFault .. => "error flow failed while handling operation failure"
  | .strayToken .. => "synchronous response carries an operation token"
  | .accepted .. => "service accepted operation"
  | .complete .. => "broker request complete"
  | .shed .. => "shedding state-changing operation"

private def nat (n : Nat) : Json := .num (.int n)

def attributes : Event → Attributes
  | .hookFailed phase index failure =>
    [("phase", .str phase.word), ("hook_index", nat index), ("error", .str failure.message)]
  | .phaseSettled op phase => [("operation", .str op.name), ("phase", .str phase.word)]
  | .runningErrorFlows op failure =>
    [("operation", .str op.name), ("phase", .str FlowPhase.error.word),
      ("error", .str failure.message)]
  | .doubleFault op failure hookFailure =>
    [("operation", .str op.name), ("error", .str failure.message),
      ("hook_error", .str hookFailure.message)]
  | .strayToken op token => [("operation", .str op.name), ("token", .str token)]
  | .accepted op isAsync token =>
    [("operation", .str op.name), ("is_async", .bool isAsync), ("token", .str token)]
  | .complete op none => [("operation", .str op.name), ("outcome", .str "ok")]
  | .complete op (some failure) =>
    [("operation", .str op.name), ("outcome", .str "error"), ("status", nat failure.status),
      ("error", .str failure.message)]
  | .shed op instanceId inFlight =>
    [("operation", .str op.name), ("service_instance_id", .str instanceId),
      ("in_flight", nat inFlight)]

end Event

/-- What a span is about. -/
inductive Scope where
  | request
  | operation
  deriving DecidableEq, Repr

def Scope.name : Scope → String
  | .request => "broker_request"
  | .operation => "broker_operation"

/-- An event, the instant at which it was reported, and the spans around it, outermost first. -/
structure Emission where
  instant : Nat
  scopes : List Scope
  event : Event
  deriving DecidableEq, Repr

def Emission.within (e : Emission) (scope : Scope) : Emission :=
  { e with scopes := scope :: e.scopes }

structure Span where
  scope : Scope
  attributes : Attributes

namespace Span

private def ofInstance (op : Operation) (instanceId : String) : Attributes :=
  [("operation", .str op.name), ("service_instance_id", .str instanceId)]

private def ofBinding (op : Operation) (instanceId bindingId : String) : Attributes :=
  ofInstance op instanceId ++ [("binding_id", .str bindingId)]

/-- What an operation that is carried out tells of itself and of its request. -/
private def carriedOut : (op : Operation) → op.Request → Attributes
  | .provision, r => ofInstance .provision r.instanceId
  | .update, r => ofInstance .update r.instanceId
  | .deprovision, r => ofInstance .deprovision r.instanceId
  | .fetchInstance, r => ofInstance .fetchInstance r.instanceId
  | .pollInstance, r => ofInstance .pollInstance r.instanceId
  | .bind, r => ofBinding .bind r.instanceId r.bindingId
  | .unbind, r => ofBinding .unbind r.instanceId r.bindingId
  | .fetchBinding, r => ofBinding .fetchBinding r.instanceId r.bindingId
  | .pollBinding, r => ofBinding .pollBinding r.instanceId r.bindingId

/-- The span of an operation that is carried out. -/
def ofOperation (op : Operation) (request : op.Request) : Span where
  scope := .operation
  attributes := carriedOut op request

/-- The span of a request to a named broker, which goes by where the request is routed; the outcome
is known once the request is answered. -/
def ofRequest (broker : String) (op : Operation) (request : op.Request)
    (outcome : Option (Option Failure)) : Span where
  scope := .request
  attributes :=
    let routed := [("broker", .str broker), ("operation", .str op.name),
      ("service_instance_id", .str (op.instanceId request))]
    let bound :=
      match op.bindingId? request with
      | some bindingId => [("binding_id", .str bindingId)]
      | none => []
    let answered :=
      match outcome with
      | none => []
      | some none => [("outcome", .str "ok")]
      | some (some _) => [("outcome", .str "error")]
    routed ++ bound ++ answered

end Span
end Trace
end ServiceBroker
