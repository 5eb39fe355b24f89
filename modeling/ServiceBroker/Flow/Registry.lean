import ServiceBroker.Flow.Hook

/-!
# Registering hooks

A plan gathers hooks phase by phase; absent hooks are passed over. Frozen into a registry it keeps
for each phase the hooks in the order in which they were registered.
-/
namespace ServiceBroker

/-- The hooks of one operation before they are frozen. -/
structure FlowPlan (Req Res : Type) where
  initialization : List (Hook Req)
  completion : List (Hook (Req × Res))
  error : List (Hook (Req × Failure))

/-- The frozen hooks of one operation. -/
structure FlowRegistry (Req Res : Type) where
  initialization : List (Hook Req)
  completion : List (Hook (Req × Res))
  error : List (Hook (Req × Failure))

variable {Req Res : Type}

/-- How many hooks each phase has. -/
structure HookCounts where
  initialization : Nat
  completion : Nat
  error : Nat
  deriving DecidableEq, Repr

def HookCounts.describe (title : String) (c : HookCounts) : String :=
  title ++ " \x7b initialization_flows: " ++ toString c.initialization ++ ", completion_flows: " ++
    toString c.completion ++ ", error_flows: " ++ toString c.error ++ " \x7d"

namespace FlowPlan

def empty : FlowPlan Req Res := ⟨[], [], []⟩

def withInitialization (p : FlowPlan Req Res) (hook : Hook Req) : FlowPlan Req Res :=
  { p with initialization := p.initialization ++ [hook] }

def withCompletion (p : FlowPlan Req Res) (hook : Hook (Req × Res)) : FlowPlan Req Res :=
  { p with completion := p.completion ++ [hook] }

def withError (p : FlowPlan Req Res) (hook : Hook (Req × Failure)) : FlowPlan Req Res :=
  { p with error := p.error ++ [hook] }

def addInitialization (p : FlowPlan Req Res) : Option (Hook Req) → FlowPlan Req Res
  | some hook => p.withInitialization hook
  | none => p

def addCompletion (p : FlowPlan Req Res) : Option (Hook (Req × Res)) → FlowPlan Req Res
  | some hook => p.withCompletion hook
  | none => p

def addError (p : FlowPlan Req Res) : Option (Hook (Req × Failure)) → FlowPlan Req Res
  | some hook => p.withError hook
  | none => p

def counts (p : FlowPlan Req Res) : HookCounts :=
  ⟨p.initialization.length, p.completion.length, p.error.length⟩

def describe (p : FlowPlan Req Res) : String := p.counts.describe "RegistryConfig"

end FlowPlan

namespace FlowRegistry

def ofPlan (p : FlowPlan Req Res) : FlowRegistry Req Res :=
  ⟨p.initialization, p.completion, p.error⟩

def empty : FlowRegistry Req Res := ofPlan .empty

def counts (r : FlowRegistry Req Res) : HookCounts :=
  ⟨r.initialization.length, r.completion.length, r.error.length⟩

def describe (r : FlowRegistry Req Res) : String := r.counts.describe "EventFlowRegistry"

end FlowRegistry
end ServiceBroker
