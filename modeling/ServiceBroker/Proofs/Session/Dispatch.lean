import ServiceBroker.Proofs.Session.Accounting

/-!
# Where a request goes

A request is dispatched by its operation alone: to the one service method that the operation belongs
to, with nothing but the hooks that were planned for the operation around it. To see which methods
are called, services can be made to take notes in the state that they share.
-/
namespace ServiceBroker
open Operation

/-! ## Services that take notes -/

/-- An operation and a request for it. -/
abbrev Note := (op : Operation) × op.Request

/-- A call that ends by taking a note. -/
def Attempt.noting {σ Res : Type} (attempt : Attempt σ Res) (note : Note) :
    Attempt (σ × List Note) Res :=
  ⟨attempt.delay, fun (s, notes) =>
    let (outcome, s) := attempt.finish s
    (outcome, s, notes ++ [note])⟩

namespace Services

variable {σ : Type}

/-- Every method notes which method it is and what it is given. -/
def noting (services : Services σ) : Services (σ × List Note) where
  instances :=
    { provision := fun r => (services.instances.provision r).noting ⟨.provision, r⟩
      update := fun r => (services.instances.update r).noting ⟨.update, r⟩
      deprovision := fun r => (services.instances.deprovision r).noting ⟨.deprovision, r⟩
      fetch := fun r => (services.instances.fetch r).noting ⟨.fetchInstance, r⟩
      poll := fun r => (services.instances.poll r).noting ⟨.pollInstance, r⟩ }
  bindings :=
    { bind := fun r => (services.bindings.bind r).noting ⟨.bind, r⟩
      unbind := fun r => (services.bindings.unbind r).noting ⟨.unbind, r⟩
      fetch := fun r => (services.bindings.fetch r).noting ⟨.fetchBinding, r⟩
      poll := fun r => (services.bindings.poll r).noting ⟨.pollBinding, r⟩ }

theorem attempt_noting (services : Services σ) (op : Operation) (request : op.Request) :
    services.noting.attempt op request = (services.attempt op request).noting ⟨op, request⟩ := by
  cases op <;> rfl

/-- The services with the method of an operation left as it is by default, if there is a default. -/
def leaving (services : Services σ) : Operation → Services σ
  | .update =>
    { services with
      instances :=
        { provision := services.instances.provision
          deprovision := services.instances.deprovision
          fetch := services.instances.fetch
          poll := services.instances.poll } }
  | .fetchInstance =>
    { services with
      instances :=
        { provision := services.instances.provision
          update := services.instances.update
          deprovision := services.instances.deprovision
          poll := services.instances.poll } }
  | .pollInstance =>
    { services with
      instances :=
        { provision := services.instances.provision
          update := services.instances.update
          deprovision := services.instances.deprovision
          fetch := services.instances.fetch } }
  | .fetchBinding =>
    { services with
      bindings :=
        { bind := services.bindings.bind
          unbind := services.bindings.unbind
          poll := services.bindings.poll } }
  | .pollBinding =>
    { services with
      bindings :=
        { bind := services.bindings.bind
          unbind := services.bindings.unbind
          fetch := services.bindings.fetch } }
  | .provision | .deprovision | .bind | .unbind => services

/-- A method that is left as it is by default calls itself by the name of its operation. -/
theorem attempt_leaving (services : Services σ) {op : Operation}
    (hop : op ∈ [.update, .fetchInstance, .pollInstance, .fetchBinding, .pollBinding])
    (request : op.Request) :
    (services.leaving op).attempt op request = .unsupported op.name := by
  cases op
  case update | fetchInstance | pollInstance | fetchBinding | pollBinding => rfl
  all_goals simp at hop

end Services

/-! ## Plans -/

/-- The hooks that are planned for an operation. -/
def FlowPlans.get? (p : FlowPlans) : (op : Operation) → Option (FlowPlan op.Request op.Response)
  | .provision => some p.provision
  | .update => some p.update
  | .deprovision => some p.deprovision
  | .pollInstance => some p.pollInstance
  | .bind => some p.bind
  | .unbind => some p.unbind
  | .pollBinding => some p.pollBinding
  | .fetchInstance | .fetchBinding => none

theorem FlowRegistries.get?_ofPlans (p : FlowPlans) (op : Operation) :
    (ofPlans p).get? op = (p.get? op).map FlowRegistry.ofPlan := by
  cases op <;> rfl

/-! ## Service calls in a run -/

/-- What the service was given, if it was the service that was called. -/
def Call.served? {Req Res : Type} : Call Req Res → Option Req
  | .serve request => some request
  | .prepare _ | .complete _ _ | .recover _ _ => none

def Orchestrator.Opening.isReady {op : Operation} : Opening op → Bool
  | .ready _ => true
  | .answered _ => false

def Invocation.IsHook {Req Res : Type} (i : Invocation Req Res) : Prop := i.call.served? = none

namespace Reference

variable {Req Res : Type} {registry : FlowRegistry Req Res} {service : String} {request : Req}
  {outcome result : Except Failure Res} {calls : List (Invocation Req Res)}

/-- The service is called once if the initialization hooks let the request pass, and else not at
all. -/
theorem split (h : Reference registry service request outcome calls result) :
    (Hook.firstFailure? registry.initialization request ≠ none ∧ ∀ i ∈ calls, i.IsHook) ∨
      (Hook.firstFailure? registry.initialization request = none ∧ ∃ before later,
        calls = before ++ .served service request outcome :: later ∧ (∀ i ∈ before, i.IsHook) ∧
          ∀ i ∈ later, i.IsHook) := by
  have hhooks : ∀ {α : Type} (hooks : List (Hook α)) (call : Call Req Res) (a : α),
      call.served? = none → ∀ i ∈ Hook.invocations hooks call a, i.IsHook := by
    intro α hooks call a hcall i hi
    obtain ⟨hook, -, rfl⟩ := List.mem_map.1 hi
    exact hcall
  have hprepared : ∀ i ∈ registry.prepared request, i.IsHook := hhooks _ _ _ rfl
  have hcompleted : ∀ response, ∀ i ∈ registry.completed request response, i.IsHook :=
    fun _ => hhooks _ _ _ rfl
  have hrecovered : ∀ failure, ∀ i ∈ registry.recovered request failure, i.IsHook :=
    fun _ => hhooks _ _ _ rfl
  cases h with
  | @unprepared failure prepare =>
    have hfirst := (Hook.surfaces_iff _ _ _).1 prepare
    exact .inl ⟨by simp [hfirst], List.forall_mem_append.2 ⟨hprepared, hrecovered failure⟩⟩
  | @unserved failure prepare =>
    exact .inr ⟨(Hook.clean_iff _ _).1 prepare, _, _, rfl, hprepared, hrecovered failure⟩
  | @uncompleted response failure prepare =>
    exact .inr ⟨(Hook.clean_iff _ _).1 prepare, _, _, rfl, hprepared,
      List.forall_mem_append.2 ⟨hcompleted response, hrecovered failure⟩⟩
  | @answered response prepare =>
    exact .inr ⟨(Hook.clean_iff _ _).1 prepare, _, _, rfl, hprepared, hcompleted response⟩

theorem served? (h : Reference registry service request outcome calls result) :
    calls.filterMap (·.call.served?) =
      if Hook.firstFailure? registry.initialization request = none then [request] else [] := by
  have hnone : ∀ {others : List (Invocation Req Res)}, (∀ i ∈ others, i.IsHook) →
      others.filterMap (·.call.served?) = [] := List.filterMap_eq_nil_iff.2
  rcases h.split with ⟨hprepare, hhooks⟩ | ⟨hprepare, before, later, rfl, hbefore, hlater⟩
  · rw [if_neg hprepare, hnone hhooks]
  · rw [if_pos hprepare, List.filterMap_append, hnone hbefore, List.filterMap_cons, hnone hlater]
    rfl

theorem eq_served (h : Reference registry service request outcome calls result)
    {i : Invocation Req Res} (hi : i ∈ calls) (hserved : i.call.served?.isSome) :
    i = .served service request outcome := by
  have hhook : ¬ i.IsHook := by
    intro hhook
    simp [show i.call.served? = none from hhook] at hserved
  rcases h.split with ⟨-, hhooks⟩ | ⟨-, before, later, rfl, hbefore, hlater⟩
  · exact absurd (hhooks i hi) hhook
  · grind

theorem response (h : Reference registry service request outcome calls result) {response : Res}
    (hresult : result = .ok response) : outcome = .ok response := by
  cases h with
  | answered _ serve => exact serve.trans hresult
  | unprepared | unserved | uncompleted => cases hresult

end Reference

theorem Orchestrator.served?_run {op : Operation} (registry : Option (Registry op))
    (request : op.Request) (delay : Nat) (outcome : Except Failure op.Response) (start : Nat) :
    (run op registry request delay outcome start).entries.filterMap (·.call.served?) =
      if (opening op registry request start).isReady then [request] else [] := by
  cases registry with
  | none => rfl
  | some registry =>
    have hserved := (reference_run registry request delay outcome start).served?
    rw [List.filterMap_map] at hserved
    rw [opening_eq]
    refine hserved.trans ?_
    cases Hook.firstFailure? registry.initialization request <;> rfl

/-! ## Spans -/

/-- Around a call that reaches the orchestrator there are two spans, and they are about the same. -/
theorem Task.spans_settled {σ : Type} {task : Task σ} (h : ∀ n, task.admission ≠ .rejected n)
    (broker : String) (state : σ) :
    ∃ outer inner, (task.settled (.full broker) state).log.spans = [outer, inner] ∧
      outer.scope.name = "broker_request" ∧ inner.scope.name = "broker_operation" ∧
      outer.IsAbout task.op task.request ∧ inner.IsAbout task.op task.request := by
  rw [settled_of_orchestrated h]
  exact ⟨_, _, rfl, rfl, rfl, Trace.Span.isAbout_ofRequest .., Trace.Span.isAbout_ofOperation ..⟩

/-! ## The state that a call leaves -/

namespace Task

variable {σ : Type}

/-- Whether the call gets as far as the service. -/
def reaches (task : Task σ) : Bool :=
  match task.admission with
  | .rejected _ => false
  | .exempt | .admitted =>
    (Orchestrator.opening task.op (task.registries.get? task.op) task.request task.arrival).isReady

/-- The shared state once nothing is asked of the service any more. -/
def leaves (task : Task σ) (state : σ) : σ :=
  if task.reaches then (task.attempt.finish state).2 else state

/-- The shared state as far as the call has come. -/
def stateSoFar (task : Task σ) (state : σ) : σ :=
  match task.stage with
  | .queued | .serving _ => state
  | .closing _ => task.leaves state

theorem reaches_eq {task : Task σ} (h : ∀ n, task.admission ≠ .rejected n) :
    task.reaches = (Orchestrator.opening task.op (task.registries.get? task.op) task.request
      task.arrival).isReady := by
  cases hadmission : task.admission with
  | rejected n => exact absurd hadmission (h n)
  | exempt | admitted => simp only [reaches, hadmission]

def rewired (registries : FlowRegistries) (task : Task σ) : Task σ := { task with registries }

/-- Which hooks other operations have makes no difference to a call. -/
theorem whole_rewired {registries : FlowRegistries} {task : Task σ}
    (h : registries.get? task.op = task.registries.get? task.op) (state : σ) :
    (task.rewired registries).whole state = task.whole state := by
  simp only [whole, rewired, h]

theorem settled_rewired {registries : FlowRegistries} {task : Task σ}
    (h : registries.get? task.op = task.registries.get? task.op) (layers : Layers) (state : σ) :
    (task.rewired registries).settled layers state = task.settled layers state := by
  have hreport : ∀ run : Run task.op.Request task.op.Response,
      Task.report layers run.finish ((task.rewired registries).closed run) run.result =
        (task.closed run).report layers run.finish run.result := by
    intro run
    cases layers <;> rfl
  exact (congrArg (fun run : Run task.op.Request task.op.Response => Task.report layers run.finish
    ((task.rewired registries).closed run) run.result) (whole_rewired h state)).trans (hreport _)

theorem stateSoFar_begin {now : Nat} {ends : σ → Prop} {task : Task σ} (h : task.OnTime ends now)
    (state : σ) : (task.begin now).stateSoFar state = task.stateSoFar state := by
  cases hstage : task.stage with
  | queued =>
    have harrival : task.arrival = now := by simpa [OnTime, hstage] using h
    have hbegin : task.begin now = { task with stage := task.opening now } := by
      simp [begin, hstage]
    rw [hbegin]
    cases hadmission : task.admission with
    | rejected n => simp [stateSoFar, leaves, reaches, opening, hstage, hadmission]
    | exempt | admitted =>
      simp only [stateSoFar, opening, hstage, hadmission]
      cases hopening : Orchestrator.opening task.op (task.registries.get? task.op) task.request now
      all_goals simp [leaves, reaches, Orchestrator.Opening.isReady, harrival, hopening]
  | serving _ | closing _ => simp [begin, hstage]

theorem stateSoFar_serve {now : Nat} {ends : σ → Prop} {task : Task σ} (h : task.OnTime ends now)
    (state : σ) :
    (task.serve now (task.stateSoFar state)).2 =
      (task.serve now (task.stateSoFar state)).1.stateSoFar state := by
  cases hstage : task.stage with
  | queued | closing _ => simp [serve, hstage]
  | serving p =>
    have hleft : task.stateSoFar state = state := by simp [stateSoFar, hstage]
    rw [hleft]
    by_cases hdue : p.instant + task.attempt.delay ≤ now
    · obtain ⟨hadmission, hopening, -⟩ : (∀ n, task.admission ≠ .rejected n) ∧
          Orchestrator.opening task.op (task.registries.get? task.op) task.request task.arrival =
            .ready p ∧ now ≤ p.instant + task.attempt.delay := by
        simpa [OnTime, hstage] using h
      have hreaches : task.reaches = true := by rw [reaches_eq hadmission, hopening]; rfl
      rw [serve_of_due hstage hdue]
      change _ = task.leaves state
      simp only [leaves, hreaches, serve, hstage, hdue, if_true]
    · rw [serve_of_not_due hstage hdue, hleft]

theorem stateSoFar_poll {now : Nat} {ends : σ → Prop} {task : Task σ} (h : task.OnTime ends now)
    {state : σ} (hstate : ends state) :
    (task.poll now (task.stateSoFar state)).2 =
      (task.poll now (task.stateSoFar state)).1.stateSoFar state := by
  rw [← stateSoFar_begin h state]
  exact stateSoFar_serve (onTime_begin h fun _ => hstate).1 state

end Task

namespace Session

variable {σ : Type}

/-- One call and nothing else, with the state that the services share as far as the call has
come. -/
inductive Leaves (task : Task σ) (state : σ) (s : Session σ) : Prop
  | underway (polled : Task σ) (tasks : s.tasks = [polled]) (fresh : polled.fresh = task)
      (onTime : polled.OnTime (· = state) s.now) (left : s.state = polled.stateSoFar state)
  | answered (tasks : s.tasks = []) (left : s.state = task.leaves state)

variable {task : Task σ} {state : σ} {s : Session σ}

theorem Leaves.poll (h : s.Leaves task state) : s.poll.Leaves task state ∧ s.poll.Idle := by
  cases h with
  | underway polled htasks hfresh hon hleft =>
    have hpoll : s.poll = Session.pollTask { s with tasks := [] } polled := by
      rw [Session.poll, htasks]
      rfl
    have hstate := Task.stateSoFar_poll hon rfl
    have huntouched : ¬ polled.Served → s.state = state := by
      intro hserved
      rw [hleft, Task.stateSoFar]
      split
      all_goals simp_all [Task.Served]
    obtain ⟨hnext, hcase⟩ := Task.onTime_poll hon huntouched
    have hfreshNext := (Task.fresh_poll s.now polled s.state).trans hfresh
    rw [← hleft] at hstate
    rw [hpoll]
    rcases hcase with hwaiting | ⟨run, hrun, hfinish⟩
    · simp only [pollTask, Task.result?_of_waiting hwaiting]
      exact ⟨.underway _ rfl hfreshNext hnext hstate, by simpa [Idle] using hwaiting⟩
    · simp only [pollTask, Task.result?_of_over hrun hfinish]
      refine ⟨.answered rfl ?_, by simp [Idle]⟩
      rw [hstate, ← hfreshNext]
      simp only [Task.stateSoFar, hrun]
      rfl
  | answered htasks hleft =>
    have hpoll : s.poll = { s with tasks := [] } := by
      rw [Session.poll, htasks]
      rfl
    rw [hpoll]
    exact ⟨.answered rfl hleft, by simp [Idle]⟩

theorem Leaves.moveTo (h : s.Leaves task state) (hidle : s.Idle) {instant : Nat}
    (hdue : ∀ task ∈ s.tasks, ∀ due, task.due? = some due → instant ≤ due) :
    (s.moveTo instant).Leaves task state := by
  cases h with
  | underway polled htasks hfresh hon hleft =>
    have hmem : polled ∈ s.tasks := by simp [htasks]
    exact .underway polled htasks hfresh (hon.later (hidle polled hmem) (hdue polled hmem)) hleft
  | answered htasks hleft => exact .answered htasks hleft

/-- The state is the first one until the service call ends, and is left alone from then on. -/
theorem state_alone (hempty : s.tasks = []) (name : String) (op : Operation)
    (request : op.Request) (attempt : Attempt σ op.Response) (ms : Nat) :
    let task := s.newTask name op request attempt
    let t := (s.call name op request attempt).advance ms
    (t.state = s.state ∨ t.state = task.leaves s.state) ∧
      ((task.whole s.state).finish ≤ s.now + ms → t.state = task.leaves s.state) := by
  intro task t
  have hcall : (s.call name op request attempt).Leaves task s.state :=
    .underway task (by simp [call, hempty, task]) rfl rfl rfl
  obtain ⟨hleaves, hidle, hnow⟩ := advance_keeps (P := Leaves task s.state)
    (fun _ h => h.poll) (fun _ _ h hidle _ => h.moveTo hidle) hcall ms
  cases hleaves with
  | underway polled htasks hfresh hon hleft =>
    have hpolled : polled.leaves s.state = task.leaves s.state := by rw [← hfresh]; rfl
    refine ⟨?_, fun hfinish => ?_⟩
    · have hstate : t.state = polled.stateSoFar s.state := hleft
      rw [hstate, ← hpolled, Task.stateSoFar]
      cases polled.stage <;> simp
    · have hlt := Task.lt_finish_of_waiting hon (hidle polled (by simp [htasks])) s.state
        fun other hother => by rw [hother]
      have hlt' : t.now < (polled.fresh.whole s.state).finish := hlt
      have hnow' : t.now = s.now + ms := hnow
      rw [hfresh] at hlt'
      omega
  | answered htasks hleft => exact ⟨.inr hleft, fun _ => hleft⟩

/-! ## Dispatch -/

/-- One request to some services, with the hooks that were planned around them. -/
def one (services : Services σ) (plans : FlowPlans) (layers : Layers) (capacity : Nat) (state : σ)
    (name : String) (op : Operation) (request : op.Request) : Session σ :=
  (start (.ofPlans plans) layers capacity state).call name op request (services.attempt op request)

/-- The calls that are made for a request and the answer to it. -/
structure Told (services : Services σ) (plans : FlowPlans) (state : σ) (op : Operation)
    (request : op.Request) (calls : List (Invocation op.Request op.Response))
    (result : Except Failure op.Response) : Prop where
  /-- They are those of the operation's own hooks, if it has any, and of its own method. -/
  own :
    let outcome := ((services.attempt op request).finish state).1
    match plans.get? op with
    | some plan => Reference (.ofPlan plan) op.name request outcome calls result
    | none => calls = [.served op.name request outcome] ∧ result = outcome
  response : ∀ response, result = .ok response →
    ((services.attempt op request).finish state).1 = .ok response
  /-- A method that is left as it is by default fails with its operation being unsupported. -/
  unsupported : services = services.leaving op →
    op ∈ [.update, .fetchInstance, .pollInstance, .fetchBinding, .pollBinding] →
    ∀ i ∈ calls, i.call.served?.isSome → i.ending = some (some (.unsupported op.name))

/-- What becomes of a request. -/
structure Dispatched (services : Services σ) (plans : FlowPlans) (capacity : Nat) (state : σ)
    (name : String) (op : Operation) (request : op.Request) : Prop where
  told : ∃ finish calls result, Told services plans state op request calls result ∧
    ∀ ms, ((one services plans .none capacity state name op request).advance ms).reports.map
      Report.told = if finish ≤ ms then [⟨op, calls, result⟩] else []
  /-- Where methods take notes, one method at most does so, and once: the one of the operation, of
  the request. It does if and only if a service call is reported. -/
  noted : ∀ ms,
    let s := (one services plans .none capacity state name op request).advance ms
    let t := (one services.noting plans .none capacity (state, []) name op request).advance ms
    t.reports = s.reports ∧ (t.state.2 = [] ∨ t.state.2 = [⟨op, request⟩]) ∧
      ∀ report ∈ s.reports, t.state.2 =
        (report.log.entries.filterMap (·.call.served?)).map fun r => ⟨report.op, r⟩
  /-- The hooks that are planned for other operations do not matter. -/
  own : ∀ others : FlowPlans, others.get? op = plans.get? op → ∀ layers ms,
    ((one services others layers capacity state name op request).advance ms).reports =
      ((one services plans layers capacity state name op request).advance ms).reports
  /-- The span of the request and the span of the operation agree. -/
  spans : ∀ broker ms,
    ∀ report ∈ ((one services plans (.full broker) capacity state name op request).advance
      ms).reports, (∀ n, report.admission ≠ .rejected n) →
      ∃ outer inner, report.log.spans = [outer, inner] ∧
        outer.scope.name = "broker_request" ∧ inner.scope.name = "broker_operation" ∧
        outer.IsAbout op request ∧ inner.IsAbout op request

section

variable (services : Services σ) (plans : FlowPlans) (capacity : Nat) (state : σ) (name : String)
  (op : Operation) (request : op.Request)

theorem told_run (start : Nat) :
    let attempt := services.attempt op request
    let run := Orchestrator.run op ((FlowRegistries.ofPlans plans).get? op) request attempt.delay
      (attempt.finish state).1 start
    Told services plans state op request (run.entries.map Entry.invocation) run.result := by
  intro attempt run
  have hunsupported : services = services.leaving op →
      op ∈ [.update, .fetchInstance, .pollInstance, .fetchBinding, .pollBinding] →
      (attempt.finish state).1 = .error (.unsupported op.name) := by
    intro hleft hop
    have hattempt : attempt = .unsupported op.name := by
      rw [← services.attempt_leaving hop request, ← hleft]
    rw [hattempt]
    rfl
  have hrun : run = Orchestrator.run op ((plans.get? op).map .ofPlan) request attempt.delay
      (attempt.finish state).1 start := by
    rw [← FlowRegistries.get?_ofPlans]
  rw [hrun]
  cases hplan : plans.get? op with
  | none =>
    exact {
      own := by
        rw [hplan]
        exact ⟨rfl, rfl⟩
      response := fun response h => h
      unsupported := fun hleft hop i hi _ => by
        cases List.mem_singleton.1 hi
        change some (Failure.ofResult? (attempt.finish state).1) = _
        rw [hunsupported hleft hop]
        rfl }
  | some plan =>
    have hreference := Orchestrator.reference_run (.ofPlan plan) request attempt.delay
      (attempt.finish state).1 start
    exact {
      own := by
        rw [hplan]
        exact hreference
      response := fun response h => hreference.response h
      unsupported := fun hleft hop i hi hserved => by
        rw [hreference.eq_served hi hserved]
        change some (Failure.ofResult? (attempt.finish state).1) = _
        rw [hunsupported hleft hop]
        rfl }

/-- The run of the orchestrator that the request comes to. -/
def oneRun : Run op.Request op.Response :=
  Orchestrator.run op ((FlowRegistries.ofPlans plans).get? op) request
    (services.attempt op request).delay ((services.attempt op request).finish state).1 0

theorem reports_one (ms : Nat) :
    ((one services plans .none capacity state name op request).advance ms).reports =
      let run := oneRun services plans state op request
      if run.finish ≤ ms then
        [⟨0, name, op, request, 0, .exempt, run.finish, run.result,
          ⟨run.entries, run.emissions, [.ofOperation op request]⟩⟩]
      else [] :=
  reports_unlayered ..

theorem oneRun_noting :
    oneRun services.noting plans (state, []) op request =
      oneRun services plans state op request := by
  rw [oneRun, services.attempt_noting]
  rfl

/-- A note is taken when the service call ends, if there is one. -/
theorem notes_one (ms : Nat) :
    let t := (one services.noting plans .none capacity (state, []) name op request).advance ms
    let run := oneRun services plans state op request
    let notes := (run.entries.filterMap (·.call.served?)).map fun r => (⟨op, r⟩ : Note)
    (t.state.2 = [] ∨ t.state.2 = [⟨op, request⟩]) ∧ (run.finish ≤ ms → t.state.2 = notes) := by
  intro t run notes
  let first := start (.ofPlans plans) .none capacity (state, ([] : List Note))
  let task := first.newTask name op request (services.noting.attempt op request)
  have hexempt : ∀ n, task.admission ≠ .rejected n := by simp [task, first, newTask, receive, start]
  have hwhole : task.whole (state, []) = run := by
    rw [Task.whole_eq_run hexempt]
    exact oneRun_noting ..
  have hnotes : notes = if task.reaches then [⟨op, request⟩] else [] := by
    have hserved : run.entries.filterMap (·.call.served?) =
        if task.reaches then [request] else [] := by
      rw [Task.reaches_eq hexempt]
      exact Orchestrator.served?_run ..
    simp only [notes, hserved]
    split <;> rfl
  have hleaves : (task.leaves (state, [])).2 = notes := by
    have hattempt : task.attempt = (services.attempt op request).noting ⟨op, request⟩ :=
      services.attempt_noting op request
    rw [Task.leaves, hattempt, hnotes]
    split <;> rfl
  obtain ⟨hstate, hover⟩ : (t.state = (state, []) ∨ t.state = task.leaves (state, [])) ∧
      ((task.whole (state, [])).finish ≤ 0 + ms → t.state = task.leaves (state, [])) :=
    state_alone rfl name op request (services.noting.attempt op request) ms
  refine ⟨?_, fun hfinish => ?_⟩
  · rcases hstate with h | h
    · exact .inl (by rw [h])
    · rw [h, hleaves, hnotes]
      split <;> simp
  · rw [hover (by rw [hwhole]; omega), hleaves]

/-- A request is dispatched by its operation, whatever its service and its hooks do. -/
theorem dispatched : Dispatched services plans capacity state name op request where
  told := by
    refine ⟨(oneRun services plans state op request).finish, _, _,
      told_run services plans state op request 0, fun ms => ?_⟩
    rw [reports_one, apply_ite (List.map Report.told)]
    rfl
  noted := by
    intro ms s t
    obtain ⟨hnotes, hover⟩ := notes_one services plans capacity state name op request ms
    have hreports := reports_one services plans capacity state name op request ms
    refine ⟨?_, hnotes, fun report hreport => ?_⟩
    · simp only [s, t, reports_one, oneRun_noting]
    · rw [hreports] at hreport
      dsimp only at hreport
      split at hreport
      · next hfinish =>
        cases List.mem_singleton.1 hreport
        exact hover hfinish
      · cases hreport
  own := by
    intro others hothers layers ms
    let first := start (.ofPlans plans) layers capacity state
    let task := first.newTask name op request (services.attempt op request)
    have hget : (FlowRegistries.ofPlans others).get? op =
        (FlowRegistries.ofPlans plans).get? op := by
      rw [FlowRegistries.get?_ofPlans, FlowRegistries.get?_ofPlans, hothers]
    have hother : (start (.ofPlans others) layers capacity state).newTask name op request
        (services.attempt op request) = task.rewired (.ofPlans others) := rfl
    have hone := reports_alone (s := start (.ofPlans others) layers capacity state) rfl rfl name op
      request (services.attempt op request) ms
    dsimp only at hone
    rw [hother, Task.whole_rewired hget, Task.settled_rewired hget] at hone
    exact hone.trans (reports_alone (s := first) rfl rfl name op request
      (services.attempt op request) ms).symm
  spans := by
    intro broker ms report hreport hadmission
    rw [one, reports_alone rfl rfl] at hreport
    split at hreport
    · cases List.mem_singleton.1 hreport
      exact Task.spans_settled hadmission broker state
    · cases hreport

end

end Session
end ServiceBroker
