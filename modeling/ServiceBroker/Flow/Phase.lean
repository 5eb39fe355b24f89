import ServiceBroker.Flow.Registry
import ServiceBroker.Trace.Event

/-!
# Running a phase

Running the hooks of a phase gives the calls that were made, in the order of registration, the
events about the hooks that failed, the instant at which the phase settled and the failure that it
surfaces.
-/
namespace ServiceBroker

/-- What is called on behalf of a request, and what it is given. -/
inductive Call (Req Res : Type) where
  | prepare (request : Req)
  | serve (request : Req)
  | complete (request : Req) (response : Res)
  | recover (request : Req) (failure : Failure)

/-- How a call ended, and when. -/
structure Ending where
  instant : Nat
  failure : Option Failure
  deriving DecidableEq, Repr

/-- A call in the log of a request. -/
structure Entry (Req Res : Type) where
  call : Call Req Res
  label : String
  verbose : Bool
  start : Nat
  /-- How many events were in the log when the call was made. -/
  reported : Nat
  /-- Missing while the call has not ended. -/
  ending : Option Ending

namespace Entry

variable {Req Res : Type}

/-- The entry of a hook that is started at an instant, in a log of its own. -/
def ofHook {α : Type} (call : Call Req Res) (hook : Hook α) (a : α) (start : Nat) :
    Entry Req Res :=
  let reaction := hook.react a
  ⟨call, hook.label, hook.verbose, start, 0, some ⟨start + reaction.delay, reaction.failure⟩⟩

/-- The entry in a log that already has some events. -/
def behind (e : Entry Req Res) (events : Nat) : Entry Req Res :=
  { e with reported := events + e.reported }

/-- The entry as it stands at an instant. -/
def seenAt (e : Entry Req Res) (instant : Nat) : Entry Req Res :=
  { e with ending := e.ending.filter fun ending => ending.instant ≤ instant }

end Entry

/-- A phase that has settled. -/
structure PhaseRun (Req Res : Type) where
  entries : List (Entry Req Res)
  failures : List (Nat × Failure)
  finish : Nat
  failure : Option Failure

namespace PhaseRun

variable {Req Res : Type}

/-- Runs hooks side by side from an instant on. -/
def ofHooks {α : Type} (call : Call Req Res) (hooks : List (Hook α)) (a : α) (start : Nat) :
    PhaseRun Req Res where
  entries := hooks.map fun hook => Entry.ofHook call hook a start
  failures := Hook.failures hooks a
  finish := Hook.finish hooks a start
  failure := Hook.firstFailure? hooks a

/-- One event for each hook that failed. -/
def events (p : PhaseRun Req Res) (phase : FlowPhase) : List Trace.Event :=
  p.failures.map fun (index, failure) => .hookFailed phase index failure

end PhaseRun

namespace FlowRegistry

variable {Req Res : Type}

def runInitialization (r : FlowRegistry Req Res) (request : Req) (start : Nat) :
    PhaseRun Req Res :=
  .ofHooks (.prepare request) r.initialization request start

def runCompletion (r : FlowRegistry Req Res) (request : Req) (response : Res) (start : Nat) :
    PhaseRun Req Res :=
  .ofHooks (.complete request response) r.completion (request, response) start

def runError (r : FlowRegistry Req Res) (request : Req) (failure : Failure) (start : Nat) :
    PhaseRun Req Res :=
  .ofHooks (.recover request failure) r.error (request, failure) start

end FlowRegistry
end ServiceBroker
