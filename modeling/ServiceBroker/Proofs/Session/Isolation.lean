import ServiceBroker.Proofs.Session.Alone
import ServiceBroker.Proofs.Session.Permits

/-!
# Isolation

Requests that are sent through one pipeline overlap, and yet each that is not shed is treated as if
it were the only one the broker ever received: what is called for it, what is reported of it and
what it is answered are the same, only later.
-/
namespace ServiceBroker

/-! ## Calls and reports that come later -/

/-- What is reported of a call that is made later. -/
def Report.delayed (k : Nat) (r : Report) : Report :=
  { r with
    arrival := r.arrival + k
    instant := r.instant + k
    log := ⟨r.log.entries.map (·.delayed k), r.log.emissions.map (·.delayed k), r.log.spans⟩ }

namespace Task

variable {σ : Type}

/-- The call under another number and made later. -/
def postponed (id k : Nat) (task : Task σ) : Task σ := { task with id, arrival := task.arrival + k }

theorem whole_postponed (id k : Nat) {task : Task σ} (h : ∀ n, task.admission ≠ .rejected n)
    (state : σ) : (task.postponed id k).whole state = (task.whole state).delayed k := by
  have hpostponed : ∀ n, (task.postponed id k).admission ≠ .rejected n := h
  rw [whole_eq_run h, whole_eq_run hpostponed]
  exact Orchestrator.run_add _ _ _ _ _ _

theorem allEmissions_postponed (layers : Layers) (id k : Nat) {task : Task σ}
    (h : ∀ n, task.admission ≠ .rejected n) (run : Run task.op.Request task.op.Response) :
    (task.postponed id k).allEmissions layers (run.delayed k) =
      (task.allEmissions layers run).map (·.delayed k) := by
  have hemissions : ∀ t : Task σ, (∀ n, t.admission ≠ .rejected n) →
      ∀ run, t.allEmissions layers run = (t.closed run).accounts layers := by
    intro t ht run
    rcases hcase : t.admission with _ | _ | n
    case rejected => exact absurd hcase (ht n)
    all_goals simp only [allEmissions, hcase]
  rw [hemissions task h, hemissions (task.postponed id k) h, accounts_closed, accounts_closed]
  cases layers with
  | none => rfl
  | full broker =>
    simp [Run.delayed, Trace.Emission.delayed, Trace.Emission.within, postponed]

theorem spans_postponed (layers : Layers) (id k : Nat) (task : Task σ)
    (run : Run task.op.Request task.op.Response) :
    ((task.postponed id k).closed (run.delayed k)).spans layers (run.delayed k).finish =
      (task.closed run).spans layers run.finish := by
  have hresult : ((task.postponed id k).closed (run.delayed k)).result? (run.delayed k).finish =
      (task.closed run).result? run.finish := by
    simp [result?, closed, Run.delayed, postponed]
  simp only [spans, hresult]
  rfl

theorem settled_postponed (layers : Layers) (id k : Nat) {task : Task σ}
    (h : ∀ n, task.admission ≠ .rejected n) (state : σ) :
    (task.postponed id k).settled layers state =
      { (task.settled layers state).delayed k with id } := by
  rw [settled_eq, settled_eq, whole_postponed id k h]
  have hemissions := allEmissions_postponed layers id k h (task.whole state)
  have hspans := spans_postponed layers id k task (task.whole state)
  have hreport : ∀ {emissions emissions' : List Trace.Emission} {spans spans' : List Trace.Span},
      emissions = emissions' → spans = spans' →
      Report.mk id task.name task.op task.request (task.arrival + k) task.admission
        ((task.whole state).finish + k) (task.whole state).result
        ⟨(task.whole state).entries.map (·.delayed k), emissions, spans⟩ =
      Report.mk id task.name task.op task.request (task.arrival + k) task.admission
        ((task.whole state).finish + k) (task.whole state).result
        ⟨(task.whole state).entries.map (·.delayed k), emissions', spans'⟩ := by
    rintro _ _ _ _ rfl rfl
    rfl
  exact hreport hemissions hspans

end Task

/-! ## Requests through one pipeline -/

/-- What callers do with a pipeline. -/
inductive Visit where
  | send (name : String) (op : Operation) (request : op.Request)
  | pause (ms : Nat)

section

variable {σ : Type} (services : Services σ)

/-- How a service call turns out depends on its arguments alone. -/
def Services.Stateless : Prop :=
  ∀ op request state state', ((services.attempt op request).finish state).1 =
    ((services.attempt op request).finish state').1

def Visit.step : Visit → Session.Step σ
  | .send name op request => .call name op request (services.attempt op request)
  | .pause ms => .wait ms

end

namespace Session

variable {σ : Type} {services : Services σ} {broker : String} {capacity : Nat}
  {made : List (Task σ)} {s first : Session σ}

theorem registries_pollTask (s : Session σ) (task : Task σ) :
    (s.pollTask task).registries = s.registries := by
  unfold Session.pollTask
  dsimp only
  split <;> rfl

theorem registries_poll (s : Session σ) : s.poll.registries = s.registries := by
  suffices h : ∀ (tasks : List (Task σ)) (s : Session σ),
      (tasks.foldl Session.pollTask s).registries = s.registries from h _ { s with tasks := [] }
  intro tasks
  induction tasks with
  | nil => exact fun s => rfl
  | cons task tasks ih => exact fun s => (ih _).trans (registries_pollTask s task)

/-- A call that is not shed is, but for its number and its arrival, the one that is made when it is
the first. -/
theorem newTask_eq_postponed (h : Ledger (.full broker) capacity made [] s) (state : σ)
    (name : String) (op : Operation) (request : op.Request) (attempt : Attempt σ op.Response)
    (hadmission : ∀ n, (s.newTask name op request attempt).admission ≠ .rejected n) :
    s.newTask name op request attempt =
      ((start s.registries (.full broker) capacity state).newTask name op request
        attempt).postponed s.calls s.now := by
  have hstart : Ledger (.full broker) capacity [] [] (start s.registries _ capacity state) :=
    ledger_start ..
  have hreceive : (s.receive op).1 =
      ((start s.registries (.full broker) capacity state).receive op).1 := by
    rcases receive_cases h op with ⟨hkind, heq⟩ | ⟨hkind, hlt, available, -, heq⟩ | ⟨-, -, heq⟩
    · rcases receive_cases hstart op with ⟨-, heq'⟩ | ⟨hkind', -⟩ | ⟨hkind', -⟩
      · rw [heq, heq']
      all_goals simp [hkind] at hkind'
    · rcases receive_cases hstart op with ⟨hkind', -⟩ | ⟨-, -, available', -, heq'⟩ |
        ⟨-, hfull, -⟩
      · simp [hkind] at hkind'
      · rw [heq, heq']
      · simp only [start, inFlight, Budget.inFlight, Budget.ofCapacity, Nat.sub_self] at hfull
        omega
    · exact absurd (by simp only [newTask, heq]) (hadmission capacity)
  simp only [newTask, Task.postponed, hreceive]
  simp only [start, Nat.zero_add]

theorem registries_advance (h : Ledger (.full broker) capacity made [] s) (ms : Nat) :
    (s.advance ms).registries = s.registries :=
  (advance_keeps (P := fun t => Ledger (.full broker) capacity made [] t ∧
      t.registries = s.registries)
    (fun t ht => ⟨⟨ht.1.poll.1, (registries_poll t).trans ht.2⟩, ht.1.poll.2⟩)
    (fun _ _ ht hidle hnow hdue => ⟨ht.1.moveTo hidle hnow hdue, ht.2⟩) ⟨h, rfl⟩ ms).1.2

/-- What is known of a request that was made by an instant, in terms of the first session alone. -/
def Visited (services : Services σ) (first : Session σ) (now : Nat) (task : Task σ) : Prop :=
  task.arrival ≤ now ∧ ((∀ n, task.admission ≠ .rejected n) →
    task = (first.newTask task.name task.op task.request
      (services.attempt task.op task.request)).postponed task.id task.arrival)

theorem visited_made (services : Services σ)
    (h : Ledger (.full broker) capacity made [] s) (state : σ)
    (visits : List Visit) :
    ∀ task ∈ s.made (visits.map (Visit.step services)),
      Visited services (start s.registries (.full broker) capacity state)
        (s.after (visits.map (Visit.step services))).now task := by
  induction visits generalizing s made with
  | nil => simp [Session.made]
  | cons visit visits ih =>
    have hlater := ih (h.apply (visit.step services))
    have hnow := le_now_after h ((visit :: visits).map (Visit.step services))
    cases visit with
    | send name op request =>
      refine List.forall_mem_append.2 ⟨List.forall_mem_singleton.2 ⟨hnow, fun hadmission => ?_⟩,
        hlater⟩
      exact newTask_eq_postponed h state name op request _ hadmission
    | pause ms =>
      have hregistries : (s.apply (.wait ms)).registries = s.registries := registries_advance h ms
      simp only [Visit.step] at hlater
      rw [hregistries] at hlater
      exact hlater

theorem whole_newTask (hstateless : services.Stateless) (first : Session σ) (name : String)
    (op : Operation) (request : op.Request) (other state : σ) :
    (first.newTask name op request (services.attempt op request)).whole other =
      (first.newTask name op request (services.attempt op request)).whole state := by
  unfold Task.whole
  simp only [newTask, hstateless op request other state]

theorem Ledger.reports_postponed {layers : Layers} (h : Ledger layers capacity made [] s)
    (hidle : s.Idle) {task : Task σ} {id k : Nat} (hmade : task.postponed id k ∈ made)
    (hadmission : ∀ n, task.admission ≠ .rejected n) {state : σ}
    (hone : ∀ other, task.whole other = task.whole state) :
    s.reports.filter (·.id == id) =
      if (task.whole state).finish + k ≤ s.now then
        [{ (task.settled layers state).delayed k with id }]
      else [] := by
  have hreports := h.reports_of_idle hidle hmade state fun other => by
    rw [Task.whole_postponed id k hadmission, Task.whole_postponed id k hadmission, hone other]
  rwa [Task.settled_postponed layers id k hadmission, Task.whole_postponed id k hadmission]
    at hreports

/-- Where hooks and services depend on the arguments of their calls alone, each request that is not
shed gets the report that it gets when it is the only one, after the time since its arrival. -/
theorem isolated (services : Services σ) (hstateless : services.Stateless)
    (registries : FlowRegistries) (broker : String) (capacity : Nat) (state : σ)
    (visits : List Visit) (ms : Nat) :
    let first := start registries (.full broker) capacity state
    let steps := visits.map (Visit.step services)
    let s := (first.after steps).advance ms
    ∀ task ∈ first.made steps, (∀ n, task.admission ≠ .rejected n) →
      let only := first.call task.name task.op task.request
        (services.attempt task.op task.request)
      s.reports.filter (·.id == task.id) =
          (only.advance (s.now - task.arrival)).reports.map
            (fun report => { report.delayed task.arrival with id := task.id }) ∧
        ∃ report enough, ∀ later, enough ≤ later → (only.advance later).reports = [report] := by
  intro first steps s task hmade hadmission only
  have hstart : Ledger (.full broker) capacity [] [] first := ledger_start ..
  have hafter := hstart.after steps
  rw [List.nil_append] at hafter
  obtain ⟨h, hidle, hnow⟩ := hafter.advance ms
  obtain ⟨harrival, htask⟩ := visited_made services hstart state visits task hmade
  have htask := htask hadmission
  have honly := fun later => reports_alone (s := first) rfl rfl task.name task.op task.request
    (services.attempt task.op task.request) later
  have hone := fun other => whole_newTask hstateless first task.name task.op task.request other
    first.state
  have hsolo : ∀ n, (first.newTask task.name task.op task.request
      (services.attempt task.op task.request)).admission ≠ .rejected n := by
    intro n hn
    refine hadmission n ?_
    rw [htask]
    exact hn
  refine ⟨?_, ?_⟩
  · have hreports := h.reports_postponed hidle (htask ▸ hmade) hsolo hone
    have hnow' : task.arrival ≤ s.now := by
      have hs : s.now = (first.after steps).now + ms := hnow
      have harrival' : task.arrival ≤ (first.after steps).now := harrival
      omega
    have hover : ∀ finish, finish + task.arrival ≤ s.now ↔
        finish ≤ first.now + (s.now - task.arrival) := by
      intro finish
      have hfirst : first.now = 0 := rfl
      omega
    rw [hreports, honly]
    by_cases hfinish : ((first.newTask task.name task.op task.request
        (services.attempt task.op task.request)).whole first.state).finish + task.arrival ≤ s.now
    · rw [if_pos hfinish, if_pos ((hover _).1 hfinish)]
      rfl
    · rw [if_neg hfinish, if_neg (mt (hover _).2 hfinish)]
      rfl
  · exact ⟨_, _, fun later hlater => by rw [honly, if_pos (by simpa [first, start] using hlater)]⟩

/-- Two requests that overlap: the second arrives while the first is under way. -/
theorem isolated_overlapping :
    let request := UnbindRequest.ofIds "instance" "binding" "service" "plan"
    let services : Services Unit :=
      ⟨{ provision := fun _ => .unsupported "create_service_instance"
         deprovision := fun _ => .unsupported "delete_service_instance" },
        { bind := fun _ => .unsupported "create_service_instance_binding"
          unbind := fun _ => .fixed 7 (.ok .completed) }⟩
    let first := start {} (.full "broker") 3 ()
    let steps := [Visit.send "one" .unbind request, .pause 2, .send "two" .unbind request].map
      (Visit.step services)
    let s := (first.after steps).advance 9
    let task := ((first.call "one" .unbind request (services.attempt .unbind request)).advance
      2).newTask "two" .unbind request (services.attempt .unbind request)
    services.Stateless ∧ task ∈ first.made steps ∧ (∀ n, task.admission ≠ .rejected n) ∧
      s.reports.filter (·.id == 1) =
        ((first.call "two" .unbind request (services.attempt .unbind request)).advance
          9).reports.map (fun report => { report.delayed 2 with id := 1 }) := by
  intro request services first steps s task
  have hstateless : services.Stateless := fun op _ _ _ => by cases op <;> rfl
  have hmade : task ∈ first.made steps := .tail _ (.head _)
  have hadmission : ∀ n, task.admission ≠ .rejected n := by
    intro n
    have hadmitted : task.admission = .admitted := by decide +kernel
    rw [hadmitted]
    exact Admission.noConfusion
  have hisolated := isolated services hstateless {} "broker" 3 () _ 9 task hmade hadmission
  have harrival : task.arrival = 2 := by decide +kernel
  have hid : task.id = 1 := by decide +kernel
  have hnow : s.now - task.arrival = 9 := by decide +kernel
  have hreports := hisolated.1
  rw [hnow, harrival, hid] at hreports
  exact ⟨hstateless, hmade, hadmission, hreports⟩

end Session
end ServiceBroker
