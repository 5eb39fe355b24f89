/-!
# Answers that may be asynchronous

A state-changing call is answered at once, or accepted with a token to poll for.
-/
namespace ServiceBroker

class AsyncAnswer (α : Type) where
  isAsync : α → Bool
  token : α → Option String

namespace AsyncAnswer

/-- Whether a token comes with an answer that is not asynchronous. -/
def violatesContract {α : Type} [AsyncAnswer α] (a : α) : Bool :=
  !isAsync a && (token a).isSome

end AsyncAnswer
end ServiceBroker
