import ServiceBroker.Flow.Phase
import ServiceBroker.Flow.Registries
import ServiceBroker.Service

/-!
# Orchestration

An operation with hooks goes through three steps: the initialization hooks, the service, the
completion hooks. The first failure ends them and is what the request is answered; the error hooks
are run with it before, and what they themselves fail with is only reported. Fetches go straight to
the service.

`opening` goes as far as the service, `closing` goes on from there, and `run` is both.
-/
namespace ServiceBroker

/-- What has been done for a request up to an instant. -/
structure Progress (Req Res : Type) where
  entries : List (Entry Req Res)
  emissions : List Trace.Emission
  instant : Nat

/-- All that was done for a request, and the answer to it. -/
structure Run (Req Res : Type) where
  entries : List (Entry Req Res)
  emissions : List Trace.Emission
  finish : Nat
  result : Except Failure Res

namespace Progress

variable {Req Res : Type}

def begin (start : Nat) : Progress Req Res := ⟨[], [], start⟩

def emit (p : Progress Req Res) (scopes : List Trace.Scope) (events : List Trace.Event) :
    Progress Req Res :=
  { p with emissions := p.emissions ++ events.map fun event => ⟨p.instant, scopes, event⟩ }

/-- Enters calls in the log, behind the events that were reported so far, and goes on to an
instant. -/
def enter (p : Progress Req Res) (entries : List (Entry Req Res)) (instant : Nat) :
    Progress Req Res :=
  { p with entries := p.entries ++ entries.map (·.behind p.emissions.length), instant }

/-- Goes on to the end of a phase. -/
def through (p : Progress Req Res) (phase : FlowPhase) (run : PhaseRun Req Res) :
    Progress Req Res :=
  (p.enter run.entries run.finish).emit [.operation] (run.events phase)

/-- Goes on to the end of the service call. -/
def served (p : Progress Req Res) (entry : Entry Req Res) (instant : Nat) : Progress Req Res :=
  p.enter [entry] instant

def answer (p : Progress Req Res) (result : Except Failure Res) : Run Req Res :=
  ⟨p.entries, p.emissions, p.instant, result⟩

end Progress

namespace Orchestrator

variable (op : Operation)

abbrev Registry (op : Operation) := FlowRegistry op.Request op.Response

/-- How the service call stands in a log of its own. -/
def serviceEntry (request : op.Request) (start : Nat) (ending : Option Ending) :
    Entry op.Request op.Response :=
  ⟨.serve request, op.name, false, start, 0, ending⟩

/-- Runs the error hooks and answers the failure that led to them. -/
def recover (registry : Registry op) (request : op.Request)
    (p : Progress op.Request op.Response) (failure : Failure) : Run op.Request op.Response :=
  let p := p.emit [.operation] [.runningErrorFlows op failure]
  let run := registry.runError request failure p.instant
  let p := p.through .error run
  let p := p.emit [.operation] <|
    match run.failure with
    | some hookFailure => [.doubleFault op failure hookFailure]
    | none => []
  p.answer (.error failure)

/-- A request on its way to the service, or answered before it gets there. -/
inductive Opening (op : Operation) where
  | ready (p : Progress op.Request op.Response)
  | answered (run : Run op.Request op.Response)

/-- Goes as far as the service call. -/
def opening (registry : Option (Registry op)) (request : op.Request) (start : Nat) : Opening op :=
  match registry with
  | none => .ready (.begin start)
  | some registry =>
    let run := registry.runInitialization request start
    let p := (Progress.begin start).through .initialization run
    match run.failure with
    | some failure => .answered (recover op registry request p failure)
    | none => .ready (p.emit [.operation] [.phaseSettled op .initialization])

/-- What is reported of an answer to a state-changing operation. -/
def contractEvents (response : op.Response) : List Trace.Event :=
  match op.acknowledgement? response with
  | none => []
  | some a =>
    let token := a.token.getD ""
    if a.violatesContract then [.strayToken op token] else [.accepted op a.isAsync token]

/-- Goes on from the end of the service call. -/
def closing (registry : Option (Registry op)) (request : op.Request)
    (p : Progress op.Request op.Response) (instant : Nat) (outcome : Except Failure op.Response) :
    Run op.Request op.Response :=
  let ending : Ending := ⟨instant, Failure.ofResult? outcome⟩
  let p := p.served (serviceEntry op request p.instant (some ending)) instant
  match registry, outcome with
  | none, outcome => p.answer outcome
  | some registry, .error failure => recover op registry request p failure
  | some registry, .ok response =>
    let run := registry.runCompletion request response p.instant
    let p := p.through .completion run
    match run.failure with
    | some failure => recover op registry request p failure
    | none =>
      let p := p.emit [.operation] [.phaseSettled op .completion]
      (p.emit [] (contractEvents op response)).answer (.ok response)

/-- Runs an operation from an instant on, with a service whose call takes a while and then ends. -/
def run (registry : Option (Registry op)) (request : op.Request) (delay : Nat)
    (outcome : Except Failure op.Response) (start : Nat) : Run op.Request op.Response :=
  match opening op registry request start with
  | .answered run => run
  | .ready p => closing op registry request p (p.instant + delay) outcome

end Orchestrator
end ServiceBroker
