import ServiceBroker.Proofs.Orchestration.Time

/-!
# The reference run of an operation

What is called for a request and what it is answered, told without regard to time: the first failure
decides, and only after it the error hooks are called.
-/
namespace ServiceBroker

/-- A call made for a request, with what it was given and how it ended, if it has ended. -/
structure Invocation (Req Res : Type) where
  call : Call Req Res
  label : String
  ending : Option (Option Failure)

variable {Req Res : Type}

def Entry.invocation (e : Entry Req Res) : Invocation Req Res :=
  ⟨e.call, e.label, e.ending.map (·.failure)⟩

/-- The calls of some entries are the same wherever they stand in a log. -/
theorem Progress.calls_enter (p : Progress Req Res) (entries : List (Entry Req Res))
    (instant : Nat) :
    (p.enter entries instant).entries.map Entry.invocation =
      p.entries.map Entry.invocation ++ entries.map Entry.invocation := by
  rw [enter, List.map_append, List.map_map]
  rfl

namespace Hook

variable {α : Type}

/-- Every hook is called once, in the order of registration. -/
def invocations (hooks : List (Hook α)) (call : Call Req Res) (a : α) :
    List (Invocation Req Res) :=
  hooks.map fun hook => ⟨call, hook.label, some (hook.react a).failure⟩

def Clean (hooks : List (Hook α)) (a : α) : Prop := ∀ hook ∈ hooks, (hook.react a).failure = none

/-- The failing hook with the lowest index fails like this. -/
def Surfaces (hooks : List (Hook α)) (a : α) (failure : Failure) : Prop :=
  ∃ before hook later, hooks = before ++ hook :: later ∧ Clean before a ∧
    (hook.react a).failure = some failure

theorem clean_iff (hooks : List (Hook α)) (a : α) :
    Clean hooks a ↔ firstFailure? hooks a = none :=
  List.findSome?_eq_none_iff.symm

theorem surfaces_iff (hooks : List (Hook α)) (a : α) (failure : Failure) :
    Surfaces hooks a failure ↔ firstFailure? hooks a = some failure := by
  rw [firstFailure?, List.findSome?_eq_some_iff]
  constructor
  · rintro ⟨before, hook, later, hhooks, hclean, hfailure⟩
    exact ⟨before, hook, later, hhooks, hfailure, hclean⟩
  · rintro ⟨before, hook, later, hhooks, hfailure, hclean⟩
    exact ⟨before, hook, later, hhooks, hclean, hfailure⟩

theorem invocation_ofHooks (hooks : List (Hook α)) (call : Call Req Res) (a : α) (start : Nat) :
    (PhaseRun.ofHooks call hooks a start).entries.map Entry.invocation =
      invocations hooks call a := by
  simp only [PhaseRun.ofHooks, invocations, List.map_map]
  rfl

end Hook

/-- The service is called once. -/
def Invocation.served (service : String) (request : Req) (outcome : Except Failure Res) :
    Invocation Req Res :=
  ⟨.serve request, service, some (Failure.ofResult? outcome)⟩

namespace FlowRegistry

def prepared (registry : FlowRegistry Req Res) (request : Req) : List (Invocation Req Res) :=
  Hook.invocations registry.initialization (.prepare request) request

def completed (registry : FlowRegistry Req Res) (request : Req) (response : Res) :
    List (Invocation Req Res) :=
  Hook.invocations registry.completion (.complete request response) (request, response)

def recovered (registry : FlowRegistry Req Res) (request : Req) (failure : Failure) :
    List (Invocation Req Res) :=
  Hook.invocations registry.error (.recover request failure) (request, failure)

end FlowRegistry

/-- The calls made for a request and the answer to it, where the service call has some outcome. The
error hooks are given the failure that decides, and it is the answer whatever they do. -/
inductive Reference (registry : FlowRegistry Req Res) (service : String) (request : Req)
    (outcome : Except Failure Res) : List (Invocation Req Res) → Except Failure Res → Prop where
  | unprepared {failure : Failure}
      (prepare : Hook.Surfaces registry.initialization request failure) :
      Reference registry service request outcome
        (registry.prepared request ++ registry.recovered request failure) (.error failure)
  | unserved {failure : Failure} (prepare : Hook.Clean registry.initialization request)
      (serve : outcome = .error failure) :
      Reference registry service request outcome
        (registry.prepared request ++ .served service request outcome ::
          registry.recovered request failure) (.error failure)
  | uncompleted {response : Res} {failure : Failure}
      (prepare : Hook.Clean registry.initialization request) (serve : outcome = .ok response)
      (complete : Hook.Surfaces registry.completion (request, response) failure) :
      Reference registry service request outcome
        (registry.prepared request ++ .served service request outcome ::
          (registry.completed request response ++ registry.recovered request failure))
        (.error failure)
  | answered {response : Res} (prepare : Hook.Clean registry.initialization request)
      (serve : outcome = .ok response)
      (complete : Hook.Clean registry.completion (request, response)) :
      Reference registry service request outcome
        (registry.prepared request ++ .served service request outcome ::
          registry.completed request response) (.ok response)

/-- What the hooks and the service do decides what is called and what is answered. -/
theorem Reference.unique {registry : FlowRegistry Req Res} {service : String} {request : Req}
    {outcome result result' : Except Failure Res} {calls calls' : List (Invocation Req Res)}
    (h : Reference registry service request outcome calls result)
    (h' : Reference registry service request outcome calls' result') :
    calls = calls' ∧ result = result' := by
  cases h <;> cases h'
  all_goals grind [Hook.clean_iff, Hook.surfaces_iff]

namespace Orchestrator

variable {op : Operation}

theorem calls_through {α : Type} (p : Progress op.Request op.Response) (phase : FlowPhase)
    (hooks : List (Hook α)) (call : Call op.Request op.Response) (a : α) :
    (p.through phase (.ofHooks call hooks a p.instant)).entries.map Entry.invocation =
      p.entries.map Entry.invocation ++ Hook.invocations hooks call a := by
  rw [← Hook.invocation_ofHooks hooks call a p.instant]
  exact p.calls_enter _ (Hook.finish hooks a p.instant)

theorem calls_recover (registry : Registry op) (request : op.Request)
    (p : Progress op.Request op.Response) (failure : Failure) :
    (recover op registry request p failure).entries.map Entry.invocation =
      p.entries.map Entry.invocation ++ registry.recovered request failure := by
  exact calls_through (p.emit _ _) .error registry.error (.recover request failure)
    (request, failure)

/-- What the initialization hooks do decides whether the service is called. -/
theorem opening_eq (registry : Registry op) (request : op.Request) (start : Nat) :
    let p := (Progress.begin start).through .initialization
      (registry.runInitialization request start)
    opening op (some registry) request start =
      match Hook.firstFailure? registry.initialization request with
      | some failure => .answered (recover op registry request p failure)
      | none => .ready (p.emit [.operation] [.phaseSettled op .initialization]) := rfl

/-- What the completion hooks do decides whether the response is the answer. -/
theorem closing_ok (registry : Registry op) (request : op.Request)
    (p : Progress op.Request op.Response) (instant : Nat) (response : op.Response) :
    let completed := (p.served (serviceEntry op request p.instant
      (some ⟨instant, none⟩)) instant).through .completion
        (registry.runCompletion request response instant)
    closing op (some registry) request p instant (.ok response) =
      match Hook.firstFailure? registry.completion (request, response) with
      | some failure => recover op registry request completed failure
      | none => ((completed.emit [.operation] [.phaseSettled op .completion]).emit []
          (contractEvents op response)).answer (.ok response) := rfl

section

variable (registry : Registry op) (request : op.Request)

/-- What has been done when the initialization hooks have ended. -/
def afterInitialization (start : Nat) : Progress op.Request op.Response :=
  (Progress.begin start).through .initialization (registry.runInitialization request start)

/-- What has been done when the service call has ended, too. -/
def afterService (start delay : Nat) (outcome : Except Failure op.Response) :
    Progress op.Request op.Response :=
  let p := (afterInitialization registry request start).emit [.operation]
    [.phaseSettled op .initialization]
  p.served (serviceEntry op request p.instant
    (some ⟨p.instant + delay, Failure.ofResult? outcome⟩)) (p.instant + delay)

/-- What has been done when the completion hooks have ended, too. -/
def afterCompletion (start delay : Nat) (response : op.Response) :
    Progress op.Request op.Response :=
  let p := afterService registry request start delay (.ok response)
  p.through .completion (registry.runCompletion request response p.instant)

/-- The courses that a run can take: the first failure ends it. -/
inductive Course (delay : Nat) (outcome : Except Failure op.Response) (start : Nat) :
    Run op.Request op.Response → Prop where
  | unprepared {failure : Failure}
      (prepare : Hook.firstFailure? registry.initialization request = some failure) :
      Course delay outcome start
        (recover op registry request (afterInitialization registry request start) failure)
  | unserved {failure : Failure}
      (prepare : Hook.firstFailure? registry.initialization request = none)
      (serve : outcome = .error failure) :
      Course delay outcome start
        (recover op registry request (afterService registry request start delay outcome) failure)
  | uncompleted {response : op.Response} {failure : Failure}
      (prepare : Hook.firstFailure? registry.initialization request = none)
      (serve : outcome = .ok response)
      (complete : Hook.firstFailure? registry.completion (request, response) = some failure) :
      Course delay outcome start
        (recover op registry request (afterCompletion registry request start delay response)
          failure)
  | answered {response : op.Response}
      (prepare : Hook.firstFailure? registry.initialization request = none)
      (serve : outcome = .ok response)
      (complete : Hook.firstFailure? registry.completion (request, response) = none) :
      Course delay outcome start
        ((((afterCompletion registry request start delay response).emit [.operation]
          [.phaseSettled op .completion]).emit [] (contractEvents op response)).answer
            (.ok response))

theorem course_run (delay : Nat) (outcome : Except Failure op.Response) (start : Nat) :
    Course registry request delay outcome start
      (run op (some registry) request delay outcome start) := by
  have hopening := opening_eq registry request start
  unfold run
  rw [hopening]
  cases hprepare : Hook.firstFailure? registry.initialization request with
  | some failure => exact .unprepared hprepare
  | none =>
    cases outcome with
    | error failure => exact .unserved hprepare rfl
    | ok response =>
      dsimp only
      rw [closing_ok]
      cases hcomplete : Hook.firstFailure? registry.completion (request, response) with
      | some failure => exact .uncompleted hprepare rfl hcomplete
      | none => exact .answered hprepare rfl hcomplete

theorem calls_afterInitialization (start : Nat) :
    (afterInitialization registry request start).entries.map Entry.invocation =
      registry.prepared request :=
  calls_through (.begin start) .initialization registry.initialization (.prepare request) request

theorem calls_afterService (start delay : Nat) (outcome : Except Failure op.Response) :
    (afterService registry request start delay outcome).entries.map Entry.invocation =
      registry.prepared request ++ [.served op.name request outcome] := by
  rw [← calls_afterInitialization registry request start]
  exact Progress.calls_enter _ _ _

theorem calls_afterCompletion (start delay : Nat) (response : op.Response) :
    (afterCompletion registry request start delay response).entries.map Entry.invocation =
      registry.prepared request ++ .served op.name request (.ok response) ::
        registry.completed request response := by
  refine (calls_through _ .completion registry.completion (.complete request response)
    (request, response)).trans ?_
  rw [calls_afterService, List.append_assoc]
  rfl

/-- A run makes the calls of the reference run, and gives its answer. -/
theorem reference_run (delay : Nat) (outcome : Except Failure op.Response) (start : Nat) :
    let run := run op (some registry) request delay outcome start
    Reference registry op.name request outcome (run.entries.map Entry.invocation) run.result := by
  intro run
  have hcourse : Course registry request delay outcome start run := course_run ..
  generalize run = run at hcourse
  cases hcourse with
  | unprepared prepare =>
    rw [calls_recover, calls_afterInitialization]
    exact .unprepared ((Hook.surfaces_iff _ _ _).2 prepare)
  | unserved prepare serve =>
    rw [calls_recover, calls_afterService, List.append_assoc]
    exact .unserved ((Hook.clean_iff _ _).2 prepare) serve
  | uncompleted prepare serve complete =>
    rw [calls_recover, calls_afterCompletion, List.append_assoc]
    subst serve
    exact .uncompleted ((Hook.clean_iff _ _).2 prepare) rfl ((Hook.surfaces_iff _ _ _).2 complete)
  | answered prepare serve complete =>
    have hcalls := calls_afterCompletion registry request start delay
    simp only [Progress.answer, Progress.emit, hcalls]
    subst serve
    exact .answered ((Hook.clean_iff _ _).2 prepare) rfl ((Hook.clean_iff _ _).2 complete)

end

end Orchestrator
end ServiceBroker
