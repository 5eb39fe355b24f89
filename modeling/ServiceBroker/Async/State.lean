import ServiceBroker.Wire.Message

/-!
# States and kinds of asynchronous operations
-/
namespace ServiceBroker
open Wire

inductive OperationState where
  | inProgress
  | succeeded
  | failed
  deriving DecidableEq, Repr, Inhabited

namespace OperationState

def word : OperationState → String
  | .inProgress => "in progress"
  | .succeeded => "succeeded"
  | .failed => "failed"

/-- The name under which a settled operation is reported. -/
def name : OperationState → String
  | .inProgress => "InProgress"
  | .succeeded => "Succeeded"
  | .failed => "Failed"

/-- Whether polling can stop. -/
def isTerminal : OperationState → Bool
  | .inProgress => false
  | _ => true

def schema : Schema OperationState :=
  .choice ⟨[.inProgress, .succeeded, .failed], word, by rintro (_ | _ | _) <;> rfl⟩

instance : Message OperationState := ⟨schema⟩

end OperationState

/-- What an asynchronous operation does to its resource. -/
inductive AsyncKind where
  | provision
  | update
  | deprovision
  | bind
  | unbind
  deriving DecidableEq, Repr, Inhabited

namespace AsyncKind

def word : AsyncKind → String
  | .provision => "provision"
  | .update => "update"
  | .deprovision => "deprovision"
  | .bind => "bind"
  | .unbind => "unbind"

/-- Whether the resource is removed when the operation succeeds. -/
def isDelete : AsyncKind → Bool
  | .deprovision | .unbind => true
  | _ => false

def schema : Schema AsyncKind :=
  .choice ⟨[.provision, .update, .deprovision, .bind, .unbind], word,
    by rintro (_ | _ | _ | _ | _) <;> rfl⟩

instance : Message AsyncKind := ⟨schema⟩

end AsyncKind
end ServiceBroker
