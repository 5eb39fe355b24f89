import ServiceBroker.Proofs.Orchestration.Chronicle
import ServiceBroker.Proofs.Session.Alone

/-!
# What is reported of calls

Of a call that reaches the orchestrator the chronicle of its operation is reported. Behind a
pipeline every call has one more line, a warning if it was shed and an account of its answer if not,
so that these lines count the calls.
-/
namespace ServiceBroker
open Trace

def Log.lines {op : Operation} (log : Log op) : List Line := log.emissions.map Emission.line

/-- What an operator reads of an answered call, and the answer. -/
def Report.read (r : Report) : (op : Operation) × List Line × Except Failure op.Response :=
  ⟨r.op, r.log.lines, r.result⟩

namespace Trace.Line

def within (scope : Scope) (l : Line) : Line := { l with scopes := scope :: l.scopes }

/-- The warning that a call is shed. -/
def shed (op : Operation) (instanceId : String) (inFlight : Nat) : Line :=
  ⟨[], .warn, "shedding state-changing operation",
    [("operation", .str op.name), ("service_instance_id", .str instanceId),
      ("in_flight", .num (.int inFlight))]⟩

/-- The account of an answer. -/
def complete {Res : Type} (op : Operation) : Except Failure Res → Line
  | .ok _ =>
    ⟨[.request], .info, "broker request complete",
      [("operation", .str op.name), ("outcome", .str "ok")]⟩
  | .error failure =>
    ⟨[.request], .info, "broker request complete",
      [("operation", .str op.name), ("outcome", .str "error"),
        ("status", .num (.int failure.status)), ("error", .str failure.message)]⟩

def isShed (l : Line) : Bool := l.level == .warn && l.message == "shedding state-changing operation"

def isComplete (l : Line) : Bool := l.level == .info && l.message == "broker request complete"

/-- Neither a warning that a call is shed nor an account of an answer. -/
def IsInner (l : Line) : Prop := l.isShed = false ∧ l.isComplete = false

end Trace.Line

theorem Recovery.isInner {Req : Type} {op : Operation} {hooks : List (Hook (Req × Failure))}
    {request : Req} {failure : Failure} {lines : List Line}
    (h : Recovery op hooks request failure lines) : ∀ l ∈ lines, l.IsInner := by
  intro l hl
  cases h with
  | smooth =>
    rw [List.mem_singleton.1 hl]
    exact ⟨rfl, rfl⟩
  | doubled =>
    simp only [List.mem_cons, List.mem_append, List.mem_map, List.not_mem_nil, or_false] at hl
    rcases hl with rfl | ⟨_, -, rfl⟩ | rfl
    all_goals exact ⟨rfl, rfl⟩

theorem Acknowledged.isInner {op : Operation} {response : op.Response} {lines : List Line}
    (h : Acknowledged op response lines) : ∀ l ∈ lines, l.IsInner := by
  intro l hl
  cases h with
  | silent => simp at hl
  | stray | accepted =>
    rw [List.mem_singleton.1 hl]
    exact ⟨rfl, rfl⟩

theorem Chronicle.isInner {op : Operation} {registry : Orchestrator.Registry op}
    {request : op.Request} {outcome result : Except Failure op.Response} {lines : List Line}
    (h : Chronicle registry request outcome lines result) : ∀ l ∈ lines, l.IsInner := by
  have hfailed : ∀ phase failing, (Line.hookFailed phase failing).IsInner :=
    fun _ _ => ⟨rfl, rfl⟩
  have hsettled : ∀ phase, (Line.phaseSettled op phase).IsInner := fun _ => ⟨rfl, rfl⟩
  cases h with
  | unprepared _ recover => grind [recover.isInner]
  | unserved _ _ recover => grind [recover.isInner]
  | uncompleted _ _ _ recover => grind [recover.isInner]
  | answered _ _ _ acknowledge => grind [acknowledge.isInner]

theorem Orchestrator.isInner_run {op : Operation} (registry : Option (Registry op))
    (request : op.Request) (delay : Nat) (outcome : Except Failure op.Response) (start : Nat) :
    ∀ l ∈ (run op registry request delay outcome start).lines, l.IsInner := by
  cases registry with
  | none =>
    intro l hl
    cases hl
  | some registry => exact (chronicle_run registry request delay outcome start).isInner

/-! ## Spans -/

/-- The span is about an operation, for an instance and, if it is a binding operation, a binding. -/
structure Trace.Span.IsAbout (span : Span) (op : Operation) (request : op.Request) : Prop where
  operation : span.attributes.lookup "operation" = some (.str op.name)
  instanceId : span.attributes.lookup "service_instance_id" = some (.str (op.instanceId request))
  bindingId : span.attributes.lookup "binding_id" = (op.bindingId? request).map .str
  binding : (span.attributes.lookup "binding_id").isSome ↔
    op ∈ [.bind, .unbind, .fetchBinding, .pollBinding]

theorem Operation.bindingId?_isSome (op : Operation) (request : op.Request) :
    (op.bindingId? request).isSome ↔ op ∈ [.bind, .unbind, .fetchBinding, .pollBinding] := by
  cases op <;> simp [bindingId?]

namespace Trace.Span

theorem isAbout_of_lookup {span : Span} {op : Operation} {request : op.Request}
    (h : span.attributes.lookup "operation" = some (.str op.name) ∧
      span.attributes.lookup "service_instance_id" = some (.str (op.instanceId request)) ∧
      span.attributes.lookup "binding_id" = (op.bindingId? request).map .str) :
    span.IsAbout op request where
  operation := h.1
  instanceId := h.2.1
  bindingId := h.2.2
  binding := by rw [h.2.2, Option.isSome_map, op.bindingId?_isSome request]

theorem isAbout_ofRequest (broker : String) (op : Operation) (request : op.Request)
    (outcome : Option (Option Failure)) :
    (ofRequest broker op request outcome).IsAbout op request := by
  refine isAbout_of_lookup ?_
  rcases outcome with _ | _ | _ <;> cases op
  all_goals exact ⟨rfl, rfl, rfl⟩

theorem isAbout_ofOperation (op : Operation) (request : op.Request) :
    (ofOperation op request).IsAbout op request := by
  refine isAbout_of_lookup ?_
  cases op
  all_goals exact ⟨rfl, rfl, rfl⟩

end Trace.Span

/-! ## Calls of a pipeline -/

/-- How an answer is called. -/
def outcomeWord {Res : Type} : Except Failure Res → String
  | .ok _ => "ok"
  | .error _ => "error"

theorem Trace.Span.lookup_outcome (broker : String) (op : Operation) (request : op.Request)
    {Res : Type} (result : Except Failure Res) :
    (ofRequest broker op request (some (Failure.ofResult? result))).attributes.lookup "outcome" =
      some (.str (outcomeWord result)) := by
  cases op <;> cases result
  all_goals rfl

/-- The report of a call that has gone through a pipeline. One that was shed is refused and warned
of; any other is answered by the orchestrator, and all that the pipeline adds is an account of the
answer and a span around it. -/
inductive Task.Accounted {σ : Type} (task : Task σ) : Report → Prop where
  | shed {inFlight : Nat} (rejected : task.admission = .rejected inFlight) {log : Log task.op}
      (lines : log.lines = [.shed task.op (task.op.instanceId task.request) inFlight]) :
      Accounted task ⟨task.id, task.name, task.op, task.request, task.arrival, task.admission,
        task.arrival, .error (shedFailure task.op inFlight), log⟩
  | complete (state : σ) (orchestrated : ∀ n, task.admission ≠ .rejected n)
      {run : Run task.op.Request task.op.Response}
      (hrun : run = Orchestrator.run task.op (task.registries.get? task.op) task.request
        task.attempt.delay (task.attempt.finish state).1 task.arrival)
      {log : Log task.op} (entries : log.entries = run.entries)
      (lines : log.lines =
        run.lines.map (·.within .request) ++ [.complete task.op run.result])
      {span : Span} (spans : log.spans.filter (·.scope.name == "broker_request") = [span])
      (operation : span.attributes.lookup "operation" = some (.str task.op.name))
      (outcome : span.attributes.lookup "outcome" = some (.str (outcomeWord run.result))) :
      Accounted task ⟨task.id, task.name, task.op, task.request, task.arrival, task.admission,
        run.finish, run.result, log⟩

namespace Task

variable {σ : Type}

theorem accounted_settled (broker : String) (task : Task σ) (state : σ) :
    task.Accounted (task.settled (.full broker) state) := by
  by_cases h : ∃ n, task.admission = .rejected n
  · obtain ⟨inFlight, hrejected⟩ := h
    rw [settled_of_rejected hrejected, ← hrejected]
    exact .shed hrejected rfl
  · have horchestrated : ∀ n, task.admission ≠ .rejected n := fun n hn => h ⟨n, hn⟩
    rw [settled_of_orchestrated horchestrated]
    refine .complete state horchestrated rfl rfl ?_ rfl (Span.isAbout_ofRequest ..).operation
      (Span.lookup_outcome ..)
    simp only [Log.lines, Run.lines, List.map_append, List.map_map]
    congr 1
    generalize (Orchestrator.run ..).result = result
    cases result <;> rfl

/-- Every call is either warned of or accounted for, once. -/
theorem Accounted.countP {task : Task σ} {report : Report} (h : task.Accounted report) :
    report.log.lines.countP Line.isShed + report.log.lines.countP Line.isComplete = 1 := by
  cases h with
  | shed _ lines =>
    rw [lines]
    rfl
  | @complete state _ run hrun log _ lines =>
    have hinner : ∀ l ∈ run.lines.map (·.within .request), l.IsInner := by
      intro l hl
      obtain ⟨inner, hinner, rfl⟩ := List.mem_map.1 hl
      exact Orchestrator.isInner_run _ _ _ _ _ inner (hrun ▸ hinner)
    have hshed : (run.lines.map (·.within .request)).countP Line.isShed = 0 :=
      List.countP_eq_zero.2 fun l hl => by simp [(hinner l hl).1]
    have hcomplete : (run.lines.map (·.within .request)).countP Line.isComplete = 0 :=
      List.countP_eq_zero.2 fun l hl => by simp [(hinner l hl).2]
    rw [lines, List.countP_append, List.countP_append, hshed, hcomplete]
    cases run.result <;> rfl

end Task

namespace Session

variable {σ : Type}

/-! ## A call that is alone -/

/-- Without layers, and with no other call, what is reported is a run of the orchestrator. -/
theorem reports_unlayered (registries : FlowRegistries) (capacity : Nat) (state : σ)
    (name : String) (op : Operation) (request : op.Request) (attempt : Attempt σ op.Response)
    (ms : Nat) :
    (((start registries .none capacity state).call name op request attempt).advance ms).reports =
      let run := Orchestrator.run op (registries.get? op) request attempt.delay
        (attempt.finish state).1 0
      if run.finish ≤ ms then
        [⟨0, name, op, request, 0, .exempt, run.finish, run.result,
          ⟨run.entries, run.emissions, [.ofOperation op request]⟩⟩]
      else [] := by
  have hadmission : ∀ n, ((start registries .none capacity state).newTask name op request
      attempt).admission ≠ .rejected n := by simp [newTask, receive, start]
  rw [reports_alone rfl rfl, Task.settled_of_orchestrated hadmission, Task.whole_eq_run hadmission]
  change (if _ ≤ 0 + ms then _ else _) = _
  rw [Nat.zero_add]
  rfl

/-- Where every call that was not shed has been answered, all calls have been, each of them once. -/
theorem Ledger.settled_of_served {layers : Layers} {capacity : Nat} {made : List (Task σ)}
    {s : Session σ} (h : Ledger layers capacity made [] s) (hidle : s.Idle)
    (harrival : ∀ task ∈ made, task.arrival ≤ s.now)
    (hserved : ∀ task ∈ made, (∀ n, task.admission ≠ .rejected n) →
      ∃ report ∈ s.reports, report.id = task.id) :
    s.tasks = [] ∧ s.reports.length = made.length ∧
      ∀ task ∈ made, ∃ state, s.reports.filter (·.id == task.id) = [task.settled layers state] := by
  have hreports : ∀ task ∈ made, s.reports.filter (·.id == task.id) ≠ [] := by
    intro task hmade hnone
    by_cases hrejected : ∃ n, task.admission = .rejected n
    · obtain ⟨n, hn⟩ := hrejected
      have hreport := h.reports_of_rejected hidle hmade (harrival task hmade) hn
      simp [hnone] at hreport
    · obtain ⟨report, hreport, hid⟩ := hserved task hmade fun n hn => hrejected ⟨n, hn⟩
      exact List.filter_eq_nil_iff.1 hnone report hreport (by simpa using hid)
  obtain ⟨answered, hanswered, hperm⟩ := h.accounted
  rw [List.append_nil] at hperm
  have hempty : s.tasks = [] := by
    refine List.eq_nil_iff_forall_not_mem.2 fun polled hpolled => ?_
    have hmade : polled.fresh ∈ made :=
      hperm.subset (List.mem_append_left _ (List.mem_map_of_mem hpolled))
    refine hreports _ hmade (List.filter_eq_nil_iff.2 fun report hreport => ?_)
    simpa using h.apart hpolled hreport
  refine ⟨hempty, ?_, fun task hmade => ?_⟩
  · have hlength := hperm.length_eq
    simpa [hempty, hanswered] using hlength
  · rcases h.reports_of hmade with ⟨_, -, -, hnone⟩ | hreport
    · exact absurd hnone (hreports task hmade)
    · exact hreport

theorem length_of_countP {reports : List Report}
    (h : ∀ report ∈ reports,
      report.log.lines.countP Line.isShed + report.log.lines.countP Line.isComplete = 1) :
    let lines := reports.flatMap (·.log.lines)
    reports.length = lines.countP Line.isShed + lines.countP Line.isComplete := by
  induction reports with
  | nil => rfl
  | cons report reports ih =>
    obtain ⟨hreport, hreports⟩ := List.forall_mem_cons.1 h
    have hlength := ih hreports
    simp only [List.flatMap_cons, List.countP_append, List.length_cons] at hlength ⊢
    omega

/-- Behind a pipeline where every call that was not shed has been answered, every call is answered
once and has either one warning or one account; there are as many of these as calls. -/
theorem all_accounted (registries : FlowRegistries) (broker : String) (capacity : Nat) (state : σ)
    (steps : List (Step σ)) (ms : Nat) :
    let first := start registries (.full broker) capacity state
    let made := first.made steps
    let s := (first.after steps).advance ms
    (∀ task ∈ made, (∀ n, task.admission ≠ .rejected n) →
        ∃ report ∈ s.reports, report.id = task.id) →
      (∀ task ∈ made, ∃ report, s.reports.filter (·.id == task.id) = [report] ∧
        task.Accounted report ∧
        report.log.lines.countP Line.isShed + report.log.lines.countP Line.isComplete = 1) ∧
      s.tasks = [] ∧ s.reports.length = made.length ∧
      let lines := s.reports.flatMap (·.log.lines)
      made.length = lines.countP Line.isShed + lines.countP Line.isComplete := by
  intro first made s hserved
  have hstart : Ledger (.full broker) capacity [] [] first := ledger_start ..
  have hafter := hstart.after steps
  rw [List.nil_append] at hafter
  obtain ⟨h, hidle, hnow⟩ := hafter.advance ms
  have harrival : ∀ task ∈ made, task.arrival ≤ s.now := by
    intro task hmade
    have := arrival_made hstart steps task hmade
    have hs : s.now = (first.after steps).now + ms := hnow
    omega
  obtain ⟨hempty, hlength, hsettled⟩ := h.settled_of_served hidle harrival hserved
  refine ⟨fun task hmade => ?_, hempty, hlength, ?_⟩
  · obtain ⟨other, hreports⟩ := hsettled task hmade
    have haccounted := task.accounted_settled broker other
    exact ⟨_, hreports, haccounted, haccounted.countP⟩
  · have hone : ∀ report ∈ s.reports, report.log.lines.countP Line.isShed +
        report.log.lines.countP Line.isComplete = 1 := by
      intro report hreport
      obtain ⟨task, -, other, rfl⟩ := h.of_report hreport
      exact (task.accounted_settled broker other).countP
    rw [← hlength]
    exact length_of_countP hone

/-- Two requests to a broker with room for one: the second is shed, and the service itself answers
the first that it is unavailable. -/
theorem all_accounted_when_unavailable :
    let request := UnbindRequest.ofIds "instance" "binding" "service" "plan"
    let first := start {} (.full "broker") 1 ()
    let steps : List (Step Unit) :=
      [.call "one" .unbind request (.fixed 7 (.error (.unavailable "down"))), .wait 2,
        .call "two" .unbind request (.fixed 7 (.ok .completed))]
    let s := (first.after steps).advance 9
    (∀ task ∈ first.made steps, (∀ n, task.admission ≠ .rejected n) →
        ∃ report ∈ s.reports, report.id = task.id) ∧
      s.reports.length = 2 ∧
      let lines := s.reports.flatMap (·.log.lines)
      lines.countP Line.isShed = 1 ∧
        2 = lines.countP Line.isShed + lines.countP Line.isComplete := by
  intro request first steps s
  have hids : s.reports.map Report.id = [1, 0] := by decide +kernel
  have hserved : ∀ task ∈ first.made steps, (∀ n, task.admission ≠ .rejected n) →
      ∃ report ∈ s.reports, report.id = task.id := by
    intro task hmade _
    have hid : task.id ∈ (first.made steps).map Task.id := List.mem_map_of_mem hmade
    have hmem : task.id ∈ s.reports.map Report.id := by
      rw [hids]
      have hrange : (first.made steps).map Task.id = [0, 1] := by decide +kernel
      grind
    exact List.mem_map.1 hmem
  obtain ⟨-, -, hlength, hlines⟩ := all_accounted {} "broker" 1 () steps 9 hserved
  exact ⟨hserved, hlength, by decide +kernel, hlines⟩

end Session
end ServiceBroker
