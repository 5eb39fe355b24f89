import ServiceBroker.Admission
import ServiceBroker.Orchestrator

/-!
# Sessions

A session is a broker at work on a clock of its own. Calls are taken on at any instant and make
progress whenever they are polled: all calls under way are polled in the order in which they were
started, each going as far as it can without waiting.

Around the orchestrator there may be layers: the outer one admits or sheds a call when it is made,
the inner one reports its outcome.
-/
namespace ServiceBroker

structure BrokerConfig where
  name : String := "service-broker"
  maxConcurrentOperations : Nat := 1000

/-- What stands between a caller and the orchestrator. -/
inductive Layers where
  | none
  /-- Load shedding, and reports under the name of a broker. -/
  | full (broker : String)

/-- How far a call has come. -/
inductive Stage (op : Operation) where
  | queued
  /-- The service is called once the initialization phase has ended. -/
  | serving (p : Progress op.Request op.Response)
  /-- Everything up to the answer is settled, if not yet due. -/
  | closing (run : Run op.Request op.Response)

/-- A call under way. -/
structure Task (σ : Type) where
  id : Nat
  name : String
  op : Operation
  request : op.Request
  attempt : Attempt σ op.Response
  /-- The hooks of the service that the call goes through. -/
  registries : FlowRegistries
  arrival : Nat
  admission : Admission
  stage : Stage op

/-- What has been recorded of a call. -/
structure Log (op : Operation) where
  entries : List (Entry op.Request op.Response)
  emissions : List Trace.Emission
  spans : List Trace.Span

/-- An answered call: when it was made and how it was taken on, and when and how it was answered. -/
structure Report where
  id : Nat
  name : String
  op : Operation
  request : op.Request
  arrival : Nat
  admission : Admission
  instant : Nat
  result : Except Failure op.Response
  log : Log op

namespace Task

variable {σ : Type}

/-- How far a call comes when it is first polled. -/
def opening (now : Nat) (task : Task σ) : Stage task.op :=
  match task.admission with
  | .rejected inFlight => .closing ⟨[], [], now, .error (shedFailure task.op inFlight)⟩
  | .exempt | .admitted =>
    match Orchestrator.opening task.op (task.registries.get? task.op) task.request now with
    | .ready p => .serving p
    | .answered run => .closing run

def begin (now : Nat) (task : Task σ) : Task σ :=
  match task.stage with
  | .queued => { task with stage := task.opening now }
  | .serving _ | .closing _ => task

def serve (now : Nat) (task : Task σ) (s : σ) : Task σ × σ :=
  match task.stage with
  | .serving p =>
    let due := p.instant + task.attempt.delay
    if due ≤ now then
      let (outcome, s) := task.attempt.finish s
      let run :=
        Orchestrator.closing task.op (task.registries.get? task.op) task.request p due outcome
      ({ task with stage := .closing run }, s)
    else (task, s)
  | .queued | .closing _ => (task, s)

/-- Goes as far as possible without waiting. -/
def poll (now : Nat) (task : Task σ) (s : σ) : Task σ × σ :=
  (task.begin now).serve now s

/-- The instant up to which the call waits. -/
def due? (task : Task σ) : Option Nat :=
  match task.stage with
  | .queued => none
  | .serving p => some (p.instant + task.attempt.delay)
  | .closing run => some run.finish

/-- The answer, once it is due. -/
def result? (now : Nat) (task : Task σ) : Option (Except Failure task.op.Response) :=
  match task.stage with
  | .closing run => if run.finish ≤ now then some run.result else none
  | .queued | .serving _ => none

/-- The calls made by an instant. -/
def entries (now : Nat) (task : Task σ) : List (Entry task.op.Request task.op.Response) :=
  let made :=
    match task.stage with
    | .queued => []
    | .serving p =>
      (p.enter [Orchestrator.serviceEntry task.op task.request p.instant none] p.instant).entries
    | .closing run => run.entries
  (made.filter fun e => e.start ≤ now).map (·.seenAt now)

/-- What is reported of an admitted call, under the layers around the orchestrator. -/
def accounts (layers : Layers) (task : Task σ) : List Trace.Emission :=
  let inner : List Trace.Emission :=
    match task.stage with
    | .queued => []
    | .serving p => p.emissions
    | .closing run => run.emissions
  match layers, task.stage with
  | .none, _ => inner
  | .full _, .closing run =>
    let outcome := Failure.ofResult? run.result
    inner.map (·.within .request) ++ [⟨run.finish, [.request], .complete task.op outcome⟩]
  | .full _, _ => inner.map (·.within .request)

/-- The events reported by an instant. -/
def emissions (layers : Layers) (now : Nat) (task : Task σ) : List Trace.Emission :=
  match task.admission with
  | .rejected inFlight =>
    [⟨task.arrival, [], .shed task.op (task.op.instanceId task.request) inFlight⟩]
  | .exempt | .admitted => (task.accounts layers).filter fun e => e.instant ≤ now

/-- The spans opened by an instant. -/
def spans (layers : Layers) (now : Nat) (task : Task σ) : List Trace.Span :=
  match task.admission with
  | .rejected _ => []
  | .exempt | .admitted =>
    let outer :=
      match layers with
      | .none => []
      | .full broker =>
        let outcome := (task.result? now).map Failure.ofResult?
        [Trace.Span.ofRequest broker task.op task.request outcome]
    let inner :=
      match task.stage with
      | .queued => []
      | .serving _ | .closing _ => [Trace.Span.ofOperation task.op task.request]
    outer ++ inner

def log (layers : Layers) (now : Nat) (task : Task σ) : Log task.op :=
  ⟨task.entries now, task.emissions layers now, task.spans layers now⟩

def report (layers : Layers) (now : Nat) (task : Task σ)
    (result : Except Failure task.op.Response) : Report :=
  ⟨task.id, task.name, task.op, task.request, task.arrival, task.admission, now, result,
    task.log layers now⟩

end Task

structure Session (σ : Type) where
  /-- The hooks of the service that is called at present. -/
  registries : FlowRegistries
  layers : Layers
  budget : Budget
  state : σ
  now : Nat
  /-- How many calls have been made. -/
  calls : Nat
  tasks : List (Task σ)
  /-- The call that a name stands for, the latest one first. -/
  names : List (String × Nat)
  /-- Calls that have been answered since the reports were last taken. -/
  reports : List Report

namespace Session

variable {σ : Type}

def start (registries : FlowRegistries) (layers : Layers) (capacity : Nat) (state : σ) :
    Session σ :=
  ⟨registries, layers, .ofCapacity capacity, state, 0, 0, [], [], []⟩

/-- State-changing calls that hold a permit. -/
def inFlight (s : Session σ) : Nat := s.budget.inFlight

/-- Whether a call of an operation is admitted at present, and the budget after that. -/
def receive (s : Session σ) (op : Operation) : Admission × Budget :=
  match s.layers with
  | .none => (.exempt, s.budget)
  | .full _ => s.budget.acquire op

/-- A call that is made at present. -/
def newTask (s : Session σ) (name : String) (op : Operation) (request : op.Request)
    (attempt : Attempt σ op.Response) : Task σ :=
  ⟨s.calls, name, op, request, attempt, s.registries, s.now, (s.receive op).1, .queued⟩

/-- Turns to another service behind the same layers. -/
def through (s : Session σ) (registries : FlowRegistries) : Session σ := { s with registries }

/-- Makes a call. Whether it is admitted is decided here; it begins when it is first polled. -/
def call (s : Session σ) (name : String) (op : Operation) (request : op.Request)
    (attempt : Attempt σ op.Response) : Session σ :=
  { s with
    budget := (s.receive op).2
    calls := s.calls + 1
    tasks := s.tasks ++ [s.newTask name op request attempt]
    names := (name, s.calls) :: s.names }

/-- Polls one call and keeps it unless it is answered. -/
def pollTask (s : Session σ) (task : Task σ) : Session σ :=
  let (task, state) := task.poll s.now s.state
  match task.result? s.now with
  | some result =>
    { s with
      state
      budget := s.budget.release task.admission
      reports := s.reports ++ [task.report s.layers s.now result] }
  | none => { s with state, tasks := s.tasks ++ [task] }

/-- Polls all calls under way at the present instant. -/
def poll (s : Session σ) : Session σ := s.tasks.foldl pollTask { s with tasks := [] }

theorem now_pollTask (s : Session σ) (task : Task σ) : (s.pollTask task).now = s.now := by
  unfold pollTask
  dsimp only
  split <;> rfl

@[simp]
theorem now_poll (s : Session σ) : s.poll.now = s.now := by
  suffices h : ∀ (tasks : List (Task σ)) (s : Session σ), (tasks.foldl pollTask s).now = s.now from
    h _ _
  intro tasks
  induction tasks with
  | nil => intro s; rfl
  | cons task tasks ih => intro s; rw [List.foldl_cons, ih, now_pollTask]

/-- The next instant at which a call can go on. -/
def nextDue? (s : Session σ) : Option Nat := (s.tasks.filterMap Task.due?).min?

def moveTo (s : Session σ) (now : Nat) : Session σ := { s with now }

/-- Polls at every due instant up to a given one, which then is the present. -/
def advanceTo (s : Session σ) (instant : Nat) : Session σ :=
  match s.nextDue? with
  | some due =>
    if s.now < due ∧ due ≤ instant then advanceTo (s.moveTo due).poll instant
    else s.moveTo instant
  | none => s.moveTo instant
termination_by instant - s.now
decreasing_by
  simp only [now_poll, moveTo]
  omega

/-- Polls now and then lets some time pass. -/
def advance (s : Session σ) (ms : Nat) : Session σ := s.poll.advanceTo (s.now + ms)

def isRunning (s : Session σ) (id : Nat) : Bool := s.tasks.any (·.id == id)

/-- Polls at due instants until a call is answered; each of the given steps takes some call on. -/
def awaitTask (id : Nat) : Nat → Session σ → Session σ
  | 0, s => s
  | steps + 1, s =>
    if s.isRunning id then
      match s.nextDue? with
      | some due => awaitTask id steps (s.moveTo (max s.now due)).poll
      | none => s
    else s

/-- The call that a name stands for. -/
def named? (s : Session σ) (name : String) : Option Nat := s.names.lookup name

/-- Polls now, and then lets time pass until the latest call of a name is answered. -/
def join (s : Session σ) (name : String) : Session σ :=
  match s.named? name with
  | some id => awaitTask id (2 * s.tasks.length) s.poll
  | none => s

/-- Drops the latest call of a name if it is still under way, and gives it as it stands. -/
def cancel (s : Session σ) (name : String) : Option (Task σ) × Session σ :=
  match s.tasks.find? fun task => some task.id == s.named? name with
  | some task =>
    (some task,
      { s with
        budget := s.budget.release task.admission
        tasks := s.tasks.filter (·.id != task.id) })
  | none => (none, s)

/-- Takes the reports of the calls that have been answered. -/
def takeReports (s : Session σ) : List Report × Session σ := (s.reports, { s with reports := [] })

end Session
end ServiceBroker
