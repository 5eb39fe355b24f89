import ServiceBroker.Poll

/-!
# Tracking an asynchronous operation

An accepted operation runs until it settles, once, as succeeded or failed. After that it no longer
changes.
-/
namespace ServiceBroker
open Wire

structure AsyncOperation where
  token : String
  kind : AsyncKind
  state : OperationState
  description : Option String
  deriving DecidableEq

/-- An operation that has settled is not driven any further. -/
structure AlreadySettled where
  token : String
  state : OperationState
  deriving DecidableEq

def AlreadySettled.message (e : AlreadySettled) : String :=
  "operation " ++ e.token ++ " already settled as " ++ e.state.name

namespace AsyncOperation

def start (token : String) (kind : AsyncKind) : AsyncOperation := ⟨token, kind, .inProgress, none⟩

/-- What drives an operation on. -/
inductive Event where
  | progress (description : String)
  | succeed (description : Option String)
  | fail (description : Option String)
  deriving DecidableEq

/-- What is done with an operation. It may break off, and leaves an operation in either case. -/
abbrev Step := ExceptT AlreadySettled (StateM AsyncOperation) Unit

private def ensureRunning : Step := do
  let o ← get
  if o.state.isTerminal then throw ⟨o.token, o.state⟩

def reportProgress (description : String) : Step := do
  ensureRunning
  modify fun o => { o with description := some description }

/-- Settles the operation; without a description the latest one stays. -/
private def settle (state : OperationState) (description : Option String) : Step := do
  ensureRunning
  modify fun o => { o with state }
  if description.isSome then
    modify fun o => { o with description }

def succeed (description : Option String) : Step := settle .succeeded description

def fail (description : Option String) : Step := settle .failed description

def Event.step : Event → Step
  | .progress description => reportProgress description
  | .succeed description => AsyncOperation.succeed description
  | .fail description => AsyncOperation.fail description

/-- Whether a call is heard, and the operation as the call leaves it. -/
def drive (o : AsyncOperation) (call : Event) : Except AlreadySettled Unit × AsyncOperation :=
  StateT.run (ExceptT.run call.step) o

/-- The operation as a call leaves it, if the call is heard. -/
def apply (o : AsyncOperation) (call : Event) : Except AlreadySettled AsyncOperation :=
  let (heard, o) := o.drive call
  heard.map fun () => o

def isDelete (o : AsyncOperation) : Bool := o.kind.isDelete

/-- Whether the resource is gone: a delete that succeeded. -/
def isGone (o : AsyncOperation) : Bool := o.isDelete && o.state == .succeeded

/-- What a poll for the instance is answered. -/
def toInstancePoll (o : AsyncOperation) : PollInstanceResponse :=
  ⟨o.state, o.description, o.isGone, none, none⟩

/-- What a poll for the binding is answered. -/
def toBindingPoll (o : AsyncOperation) : PollBindingResponse :=
  ⟨o.state, o.description, o.isGone⟩

def schema : Schema AsyncOperation :=
  .via (fun x => (x.token, x.kind, x.state, x.description, ()))
    (fun (token, kind, state, description, ()) => ⟨token, kind, state, description⟩)
    (.record "AsyncOperation"
      (.required "token" .text <|
       .required "kind" AsyncKind.schema <|
       .required "state" OperationState.schema <|
       .optional "description" .text .done))

instance : Message AsyncOperation := ⟨schema⟩

end AsyncOperation
end ServiceBroker
