import ServiceBroker.Proofs.Session.Ledger

/-!
# Permits

A broker with room for some state-changing operations counts exactly those that it has admitted and
not answered. One more is admitted as long as there is room, and is shed with the capacity as the
number in flight when there is none; what only reads is always let through and not counted. An
answer gives back the one permit that its call holds, when its whole run is over.
-/
namespace ServiceBroker

/-- How a call may have been taken on by a broker of some capacity. -/
def Task.TakenOn {σ : Type} (capacity : Nat) (task : Task σ) : Prop :=
  match task.admission with
  | .exempt => task.op.isReadOnly = true
  | .admitted => task.op.isReadOnly = false
  | .rejected inFlight => task.op.isReadOnly = false ∧ inFlight = capacity

namespace Session

variable {σ : Type}

/-- The state-changing calls that were admitted and have not been answered. -/
def unsettled (s : Session σ) (made : List (Task σ)) : List (Task σ) :=
  made.filter fun task => task.admission.holdsPermit && s.reports.all (·.id != task.id)

/-- What a broker of some capacity keeps to, after some calls were made. -/
structure KeepsBudget (capacity : Nat) (made : List (Task σ)) (s : Session σ) : Prop where
  takenOn : ∀ task ∈ made, task.TakenOn capacity
  counted : s.inFlight = (s.unsettled made).length
  /-- There are never more permits than at the beginning. -/
  bounded : s.budget.available ≤ s.budget.capacity ∧ s.inFlight ≤ capacity
  exempts : ∀ name op (request : op.Request) (attempt : Attempt σ op.Response),
    op.isReadOnly = true → (s.newTask name op request attempt).admission = .exempt ∧
      (s.call name op request attempt).inFlight = s.inFlight
  admits : ∀ name op (request : op.Request) (attempt : Attempt σ op.Response),
    op.isReadOnly = false →
      ((s.newTask name op request attempt).admission = .admitted ↔ s.inFlight < capacity)
  takes : ∀ name op (request : op.Request) (attempt : Attempt σ op.Response),
    (s.newTask name op request attempt).admission = .admitted →
      (s.call name op request attempt).inFlight = s.inFlight + 1
  /-- A call that is not admitted leaves the budget alone, and both what is reported of it and its
  answer give the capacity. -/
  sheds : ∀ name op (request : op.Request) (attempt : Attempt σ op.Response) (ms : Nat),
    op.isReadOnly = false → (s.newTask name op request attempt).admission ≠ .admitted →
      (s.call name op request attempt).budget = s.budget ∧
      ∃ report, ((s.call name op request attempt).advance ms).reports.filter
          (·.id == s.calls) = [report] ∧
        report.result = .error (.unavailable
          (toString capacity ++ " operations in flight, rejected " ++ op.name)) ∧
        report.log.emissions = [⟨s.now, [], .shed op (op.instanceId request) capacity⟩]
  /-- As time passes, each answer gives back what its call holds. -/
  returns : ∀ ms, ∃ settled, (s.advance ms).reports = s.reports ++ settled ∧
    s.inFlight = (s.advance ms).inFlight + settled.countP (·.admission.holdsPermit)
  /-- A call that was not shed is answered once its whole run is over. -/
  whole : ∀ report ∈ s.reports, ∃ task ∈ made, report.id = task.id ∧
    ((∀ n, task.admission ≠ .rejected n) → ∃ outcome,
      let run := Orchestrator.run task.op (task.registries.get? task.op) task.request
        task.attempt.delay outcome task.arrival
      report = (task.closed run).report s.layers run.finish run.result ∧
        run.Over ∧ run.finish ≤ s.now)

section

variable {broker : String} {capacity : Nat} {made : List (Task σ)} {s : Session σ}

theorem available_le (h : Ledger (.full broker) capacity made [] s) :
    s.budget.available ≤ s.budget.capacity := by
  have hheld := h.held
  have hsize := h.size
  omega

theorem inFlight_eq_countP (h : Ledger (.full broker) capacity made [] s) :
    s.inFlight = s.tasks.countP (·.admission.holdsPermit) := by
  have hheld := h.held
  have hsize := h.size
  rw [List.append_nil] at hheld
  simp only [inFlight, Budget.inFlight]
  omega

/-- There are three ways to be taken on, and room decides between the last two. -/
theorem receive_cases (h : Ledger (.full broker) capacity made [] s) (op : Operation) :
    (op.isReadOnly = true ∧ s.receive op = (.exempt, s.budget)) ∨
      (op.isReadOnly = false ∧ s.inFlight < capacity ∧ ∃ available,
        s.budget.available = available + 1 ∧
        s.receive op = (.admitted, { s.budget with available })) ∨
      (op.isReadOnly = false ∧ s.inFlight = capacity ∧
        s.receive op = (.rejected capacity, s.budget)) := by
  have hle := available_le h
  have hsize := h.size
  simp only [receive, h.outer, inFlight, Budget.inFlight]
  rcases s.budget.acquire_cases op with ⟨hkind, heq⟩ | ⟨hkind, available, havailable, heq⟩ |
    ⟨hkind, havailable, heq⟩
  · exact .inl ⟨hkind, heq⟩
  · exact .inr (.inl ⟨hkind, by omega, available, havailable, heq⟩)
  · have hfull : s.budget.inFlight = capacity := by
      simp only [Budget.inFlight]
      omega
    exact .inr (.inr ⟨hkind, by omega, by rw [heq, hfull]⟩)

theorem takenOn_newTask (h : Ledger (.full broker) capacity made [] s) (name : String)
    (op : Operation) (request : op.Request) (attempt : Attempt σ op.Response) :
    (s.newTask name op request attempt).TakenOn capacity := by
  simp only [Task.TakenOn, newTask]
  rcases receive_cases h op with ⟨hkind, heq⟩ | ⟨hkind, -, available, -, heq⟩ | ⟨hkind, -, heq⟩
  all_goals simp [heq, hkind]

theorem takenOn_made (h : Ledger (.full broker) capacity made [] s) (steps : List (Step σ)) :
    ∀ task ∈ s.made steps, task.TakenOn capacity := by
  induction steps generalizing s made with
  | nil => simp [Session.made]
  | cons step steps ih =>
    refine List.forall_mem_append.2 ⟨?_, ih (h.apply step)⟩
    cases step with
    | call name op request attempt =>
      exact List.forall_mem_singleton.2 (takenOn_newTask h name op request attempt)
    | turn registries => simp [makes]
    | wait ms => simp [makes]

/-- The calls under way that hold a permit are those that were admitted and are not answered. -/
theorem countP_tasks (h : Ledger (.full broker) capacity made [] s) :
    s.tasks.countP (·.admission.holdsPermit) = (s.unsettled made).length := by
  obtain ⟨answered, hreports, hperm⟩ := h.accounted
  rw [List.append_nil] at hperm
  have hunder : ∀ task ∈ s.tasks, s.reports.all (·.id != task.id) = true := fun task htask =>
    List.all_eq_true.2 fun report hreport => by simpa using h.apart htask hreport
  have hover : ∀ a ∈ answered, s.reports.all (·.id != a.1.id) = false := by
    intro a ha
    have hmem : a.1.settled (.full broker) a.2 ∈ s.reports := hreports ▸ List.mem_map_of_mem ha
    simpa using ⟨_, hmem, rfl⟩
  rw [unsettled, ← List.countP_eq_length_filter, ← hperm.countP_eq, List.countP_append,
    List.countP_map, List.countP_map]
  have hnone : answered.countP ((fun task => task.admission.holdsPermit &&
      s.reports.all (·.id != task.id)) ∘ Prod.fst) = 0 :=
    List.countP_eq_zero.2 fun a ha => by simp [hover a ha]
  rw [hnone, Nat.add_zero]
  refine List.countP_congr ?_
  intro task htask
  simp only [Function.comp_apply, Task.admission_fresh, Task.id_fresh, hunder task htask,
    Bool.and_true]

theorem exempts (h : Ledger (.full broker) capacity made [] s) (name : String)
    (op : Operation) (request : op.Request) (attempt : Attempt σ op.Response)
    (hkind : op.isReadOnly = true) :
    (s.newTask name op request attempt).admission = .exempt ∧
      (s.call name op request attempt).inFlight = s.inFlight := by
  rcases receive_cases h op with ⟨-, heq⟩ | ⟨hkind', -⟩ | ⟨hkind', -⟩
  · simp [newTask, call, inFlight, heq]
  all_goals simp [hkind] at hkind'

theorem admits (h : Ledger (.full broker) capacity made [] s) (name : String)
    (op : Operation) (request : op.Request) (attempt : Attempt σ op.Response)
    (hkind : op.isReadOnly = false) :
    (s.newTask name op request attempt).admission = .admitted ↔ s.inFlight < capacity := by
  rcases receive_cases h op with ⟨hkind', -⟩ | ⟨-, hlt, available, -, heq⟩ | ⟨-, hfull, heq⟩
  · simp [hkind] at hkind'
  · simp [newTask, heq, hlt]
  · simp [newTask, heq, hfull]

theorem takes (h : Ledger (.full broker) capacity made [] s) (name : String)
    (op : Operation) (request : op.Request) (attempt : Attempt σ op.Response)
    (hadmitted : (s.newTask name op request attempt).admission = .admitted) :
    (s.call name op request attempt).inFlight = s.inFlight + 1 := by
  have hle := available_le h
  rcases receive_cases h op with ⟨-, heq⟩ | ⟨-, -, available, havailable, heq⟩ | ⟨-, -, heq⟩
  · simp [newTask, heq] at hadmitted
  · simp only [call, inFlight, Budget.inFlight, heq]
    omega
  · simp [newTask, heq] at hadmitted

theorem sheds (h : Ledger (.full broker) capacity made [] s) (name : String)
    (op : Operation) (request : op.Request) (attempt : Attempt σ op.Response) (ms : Nat)
    (hkind : op.isReadOnly = false)
    (hadmitted : (s.newTask name op request attempt).admission ≠ .admitted) :
    (s.call name op request attempt).budget = s.budget ∧
      ∃ report, ((s.call name op request attempt).advance ms).reports.filter
          (·.id == s.calls) = [report] ∧
        report.result = .error (.unavailable
          (toString capacity ++ " operations in flight, rejected " ++ op.name)) ∧
        report.log.emissions = [⟨s.now, [], .shed op (op.instanceId request) capacity⟩] := by
  have heq : s.receive op = (.rejected capacity, s.budget) := by
    rcases receive_cases h op with ⟨hkind', -⟩ | ⟨-, -, available, -, heq⟩ | ⟨-, -, heq⟩
    · simp [hkind] at hkind'
    · simp [newTask, heq] at hadmitted
    · exact heq
  refine ⟨by simp [call, heq], ?_⟩
  obtain ⟨hnext, hidle, hnow⟩ := (h.call name op request attempt).advance ms
  have hrejected : (s.newTask name op request attempt).admission = .rejected capacity := by
    simp [newTask, heq]
  have hreports := hnext.reports_of_rejected hidle
    (List.mem_append_right _ (List.mem_singleton_self _))
    (by rw [hnow]; exact Nat.le_add_right _ _) hrejected
  refine ⟨_, hreports, ?_⟩
  rw [Task.settled_of_rejected hrejected]
  exact ⟨rfl, rfl⟩

theorem returns (h : Ledger (.full broker) capacity made [] s) (ms : Nat) :
    ∃ settled, (s.advance ms).reports = s.reports ++ settled ∧
      s.inFlight = (s.advance ms).inFlight + settled.countP (·.admission.holdsPermit) := by
  obtain ⟨settled, hsettled⟩ := h.prefix_advance ms
  refine ⟨settled, hsettled.symm, ?_⟩
  have hnext := (h.advance ms).1
  have hmade := h.countP_made
  have hmade' := hnext.countP_made
  have hsize := h.size
  have hsize' := hnext.size
  have hle := available_le h
  have hle' := available_le hnext
  rw [← hsettled, List.countP_append] at hmade'
  simp only [inFlight, Budget.inFlight]
  omega

theorem whole (h : Ledger (.full broker) capacity made [] s) {report : Report}
    (hreport : report ∈ s.reports) :
    ∃ task ∈ made, report.id = task.id ∧
      ((∀ n, task.admission ≠ .rejected n) → ∃ outcome,
        let run := Orchestrator.run task.op (task.registries.get? task.op) task.request
          task.attempt.delay outcome task.arrival
        report = (task.closed run).report s.layers run.finish run.result ∧
          run.Over ∧ run.finish ≤ s.now) := by
  obtain ⟨task, hmade, state, rfl⟩ := h.of_report hreport
  refine ⟨task, hmade, rfl, fun hadmission => ⟨(task.attempt.finish state).1, ?_⟩⟩
  have hwhole := Task.whole_eq_run hadmission state
  have hfinish := h.answered _ hreport
  rw [Task.instant_settled] at hfinish
  rw [← hwhole, h.outer]
  exact ⟨rfl, (task.over_whole state).1, hfinish⟩

end

/-- Whatever calls are made through whichever services behind one budget, and however long one waits
between them: the budget is kept. -/
theorem keepsBudget_after (registries : FlowRegistries) (broker : String) (capacity : Nat)
    (state : σ) (steps : List (Step σ)) :
    let s := start registries (.full broker) capacity state
    (s.after steps).KeepsBudget capacity (s.made steps) := by
  intro s
  have hstart : Ledger (.full broker) capacity [] [] s := ledger_start ..
  have h := hstart.after steps
  rw [List.nil_append] at h
  have hcount := inFlight_eq_countP h
  refine {
    takenOn := takenOn_made hstart steps
    counted := hcount.trans (countP_tasks h)
    bounded := ⟨available_le h, ?_⟩
    exempts := fun name op request attempt => exempts h name op request attempt
    admits := fun name op request attempt => admits h name op request attempt
    takes := fun name op request attempt => takes h name op request attempt
    sheds := fun name op request attempt ms => sheds h name op request attempt ms
    returns := returns h
    whole := fun report hreport => whole h hreport }
  have hheld := h.held
  rw [List.append_nil] at hheld
  omega

end Session
end ServiceBroker
