import ServiceBroker.Wire.Message

/-!
# Failures

Every failure of a service or a hook has a message, an HTTP status, an error code for the few cases
that the platform tells apart by one, and a word on whether the same request may be sent again.
-/
namespace ServiceBroker
open Wire

/-- The asynchronous operation that stands in the way of another one. -/
inductive Running where
  | create
  | update
  | delete
  deriving DecidableEq, Repr

def Running.word : Running → String
  | .create => "create"
  | .update => "update"
  | .delete => "delete"

inductive Failure where
  | operationInProgress (running : Running) (operation : Option String)
  | instanceDoesNotExist (instanceId : String)
  | bindingDoesNotExist (bindingId : String)
  /-- The instance exists with other attributes than requested. -/
  | instanceAlreadyExists (instanceId serviceId : String)
  /-- The binding exists with other attributes than requested. -/
  | bindingAlreadyExists (instanceId bindingId : String)
  | asyncRequired (text : String)
  | invalidParameters (text : String)
  | updateNotSupported (text : String)
  | serviceDoesNotExist (serviceId : String)
  | planDoesNotExist (planId : String)
  | bindingRequiresApp (text : String)
  | maintenanceInfoConflict (text : String)
  | concurrency (text : String)
  | unsupported (operation : String)
  | unavailable (text : String)
  /-- A failure with a message meant for the user of the platform. -/
  | broker (text : String) (code : Option String)
  /-- Any other failure, with what caused it, the root cause last. -/
  | unclassified (text : String) (causes : List String)
  deriving DecidableEq, Repr

/-- The body that tells a platform of a failure. -/
structure ErrorBody where
  error : Option String
  description : Option String
  instanceUsable : Option Bool
  updateRepeatable : Option Bool
  deriving Inhabited, DecidableEq

def ErrorBody.schema : Schema ErrorBody :=
  .via (fun x => (x.error, x.description, x.instanceUsable, x.updateRepeatable, ()))
    (fun (error, description, instanceUsable, updateRepeatable, ()) =>
      ⟨error, description, instanceUsable, updateRepeatable⟩)
    (.record "ErrorMessage"
      (.optional "error" .text <|
       .optional "description" .text <|
       .optional "instance_usable" .flag <|
       .optional "update_repeatable" .flag .done))

instance : Message ErrorBody := ⟨ErrorBody.schema⟩

namespace Failure

/-- The failure that a result stands for, if it stands for one. -/
def ofResult? {α : Type} : Except Failure α → Option Failure
  | .ok _ => none
  | .error failure => some failure

/-- The failure of a plan that can only be served asynchronously. -/
def needsAsync : Failure :=
  .asyncRequired
    "This service plan requires client support for asynchronous service operations."

/-- An unclassified failure, put into wider and wider contexts. -/
def inContexts (text : String) (contexts : List String) : Failure :=
  match contexts.reverse with
  | [] => .unclassified text []
  | outermost :: inner => .unclassified outermost (inner ++ [text])

def message : Failure → String
  | .operationInProgress running _ => running.word ++ " operation already in progress"
  | .instanceDoesNotExist instanceId => "service instance does not exist: " ++ instanceId
  | .bindingDoesNotExist bindingId => "service instance binding does not exist: " ++ bindingId
  | .instanceAlreadyExists instanceId serviceId =>
    "service instance " ++ instanceId ++ " already exists for service " ++ serviceId
  | .bindingAlreadyExists instanceId bindingId =>
    "binding " ++ bindingId ++ " already exists for service instance " ++ instanceId
  | .invalidParameters text => "invalid parameters: " ++ text
  | .updateNotSupported text => "update not supported: " ++ text
  | .serviceDoesNotExist serviceId => "service definition does not exist: " ++ serviceId
  | .planDoesNotExist planId => "plan does not exist: " ++ planId
  | .unsupported operation => "operation not supported by this broker: " ++ operation
  | .unavailable text => "service broker unavailable: " ++ text
  | .asyncRequired text | .bindingRequiresApp text | .maintenanceInfoConflict text
  | .concurrency text | .broker text _ | .unclassified text _ => text

/-- The HTTP status of the answer. -/
def status : Failure → Nat
  | .operationInProgress .. => 202
  | .instanceAlreadyExists .. | .bindingAlreadyExists .. => 409
  | .invalidParameters .. => 400
  | .instanceDoesNotExist .. | .bindingDoesNotExist .. | .asyncRequired .. | .updateNotSupported ..
  | .serviceDoesNotExist .. | .planDoesNotExist .. | .bindingRequiresApp ..
  | .maintenanceInfoConflict .. | .concurrency .. => 422
  | .unsupported .. => 501
  | .unavailable .. => 503
  | .broker .. | .unclassified .. => 500

def code? : Failure → Option String
  | .asyncRequired _ => some "AsyncRequired"
  | .bindingRequiresApp _ => some "RequiresApp"
  | .maintenanceInfoConflict _ => some "MaintenanceInfoConflict"
  | .concurrency _ => some "ConcurrencyError"
  | .broker _ code => code
  | _ => none

/-- Whether the platform may send the same request again. -/
def isTransient : Failure → Bool
  | .operationInProgress .. | .concurrency .. | .unavailable .. => true
  | _ => false

/-- The messages of what caused the failure. -/
def causes : Failure → List String
  | .unclassified _ causes => causes
  | _ => []

def body (f : Failure) : ErrorBody := ⟨f.code?, some f.message, none, none⟩

end Failure
end ServiceBroker
