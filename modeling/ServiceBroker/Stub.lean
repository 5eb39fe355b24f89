import ServiceBroker.Flow.Registries
import ServiceBroker.Service

/-!
# Scripted hooks and services

Hooks and services that do as they are told, for trying out a broker. The tracking services start an
asynchronous operation for every call that accepts one, and answer polls from the table of their
side.
-/
namespace ServiceBroker

/-- A hook by its script. -/
structure HookScript where
  label : String
  delay : Nat
  failure : Option Failure
  /-- The instances for which it fails; all of them if none are given. -/
  onlyFor : Option (List String)
  verbose : Bool

def HookScript.hook {α : Type} (script : HookScript) (instanceId : α → String) : Hook α where
  label := script.label
  verbose := script.verbose
  react a :=
    let applies :=
      match script.onlyFor with
      | none => true
      | some ids => ids.contains (instanceId a)
    ⟨script.delay, if applies then script.failure else none⟩

/-- The operations that a service has started, in the order of their tokens. -/
structure OperationTable where
  operations : List AsyncOperation

namespace OperationTable

def empty : OperationTable := ⟨[]⟩

def find? (t : OperationTable) (token : String) : Option AsyncOperation :=
  t.operations.find? (·.token == token)

/-- Starts an operation under the next token. -/
def start (t : OperationTable) (kind : AsyncKind) : String × OperationTable :=
  let token := "op-" ++ toString (t.operations.length + 1)
  (token, ⟨t.operations ++ [.start token kind]⟩)

/-- Drives the operation with a token on. -/
def drive (t : OperationTable) (token : String) (event : AsyncOperation.Event) :
    Option (Except AlreadySettled OperationTable) :=
  (t.find? token).map fun o => do
    let o ← o.apply event
    return ⟨t.operations.map fun p => if p.token == token then o else p⟩

end OperationTable

inductive Side where
  | instances
  | bindings
  deriving DecidableEq, Repr

structure OperationTables where
  instances : OperationTable
  bindings : OperationTable

namespace OperationTables

def empty : OperationTables := ⟨.empty, .empty⟩

def get (t : OperationTables) : Side → OperationTable
  | .instances => t.instances
  | .bindings => t.bindings

def set (t : OperationTables) (table : OperationTable) : Side → OperationTables
  | .instances => { t with instances := table }
  | .bindings => { t with bindings := table }

def start (t : OperationTables) (side : Side) (kind : AsyncKind) : String × OperationTables :=
  let (token, table) := (t.get side).start kind
  (token, t.set table side)

def drive (t : OperationTables) (side : Side) (token : String) (event : AsyncOperation.Event) :
    Option (Except AlreadySettled OperationTables) :=
  ((t.get side).drive token event).map fun r => r.map fun table => t.set table side

end OperationTables

namespace Stub

variable {σ : Type}

/-- Services that offer only what every service has to, and answer at once. -/
def minimal : Services σ where
  instances :=
    { provision := fun _ => .fixed 0 (.ok .completed)
      deprovision := fun _ => .fixed 0 (.ok .completed) }
  bindings :=
    { bind := fun _ => .fixed 0 (.ok (.route "https://route.example.com"))
      unbind := fun _ => .fixed 0 (.ok .completed) }

/-- Starts an operation if the call accepts one. -/
private def track {Res : Type} (side : Side) (kind : AsyncKind) (asyncAccepted : Bool)
    (accepted : String → Res) (completed : Res) : Attempt OperationTables Res :=
  if asyncAccepted then
    ⟨0, fun tables =>
      let (token, tables) := tables.start side kind
      (.ok (accepted token), tables)⟩
  else .fixed 0 (.ok completed)

/-- Answers a poll from the operation that it names. -/
private def look {Res : Type} (side : Side) (token : Option String)
    (answer : AsyncOperation → Res) (failure : Failure) : Attempt OperationTables Res :=
  ⟨0, fun tables =>
    match token.bind (tables.get side).find? with
    | some o => (.ok (answer o), tables)
    | none => (.error failure, tables)⟩

private def credentials (r : BindRequest) : Object :=
  .ofMembers [("uri", .str ("redis://" ++ r.bindingId))]

/-- Services that keep track of asynchronous operations. -/
def tracking : Services OperationTables where
  instances :=
    { provision := fun r => track .instances .provision r.asyncAccepted .accepted .completed
      update := fun r => track .instances .update r.asyncAccepted .accepted .completed
      deprovision := fun r => track .instances .deprovision r.asyncAccepted .accepted .completed
      fetch := fun _ => .fixed 0 (.ok (.ofIds "svc-1" "plan-1"))
      poll := fun r =>
        look .instances r.operation AsyncOperation.toInstancePoll
          (.instanceDoesNotExist r.instanceId) }
  bindings :=
    { bind := fun r => track .bindings .bind r.asyncAccepted .accepted (.app (credentials r))
      unbind := fun r => track .bindings .unbind r.asyncAccepted .accepted .completed
      poll := fun r =>
        look .bindings r.operation AsyncOperation.toBindingPoll
          (.bindingDoesNotExist r.bindingId) }

/-- How a service call ends. -/
inductive Behaviour (Res : Type) where
  | fail (failure : Failure)
  | reply (response : Res)
  /-- As services do that offer only what they have to. -/
  | minimal
  /-- As services do that keep track of operations. -/
  | tracking

/-- A service call by its script. -/
def attempt (op : Operation) (request : op.Request) (delay : Nat)
    (behaviour : Behaviour op.Response) : Attempt OperationTables op.Response :=
  let attempt : Attempt OperationTables op.Response :=
    match behaviour with
    | .fail failure => .fixed 0 (.error failure)
    | .reply response => .fixed 0 (.ok response)
    | .minimal => minimal.attempt op request
    | .tracking => tracking.attempt op request
  { attempt with delay }

end Stub
end ServiceBroker
