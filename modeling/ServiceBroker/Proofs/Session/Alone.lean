import ServiceBroker.Proofs.Orchestration.Reference
import ServiceBroker.Proofs.Session.Ledger

/-!
# A call that is alone

In a session where one call is made and nothing else, the service call ends in the shared state that
was there at first. The call is answered when its run is over, and this is the only answer. What was
called for it and what it is answered are those of the reference run.
-/
namespace ServiceBroker

/-- The operation of an answered call, the calls made for it and the answer. -/
def Report.told (r : Report) : (op : Operation) × List (Invocation op.Request op.Response) ×
    Except Failure op.Response :=
  ⟨r.op, r.log.entries.map Entry.invocation, r.result⟩

theorem Task.told_settled {σ : Type} (layers : Layers) (task : Task σ) (state : σ) :
    (task.settled layers state).told =
      ⟨task.op, (task.whole state).entries.map Entry.invocation, (task.whole state).result⟩ := by
  rw [Task.settled_eq]
  rfl

/-- The seven operations that are not fetches have hooks. -/
theorem FlowRegistries.get?_eq_some (registries : FlowRegistries) {op : Operation}
    (hop : op ≠ .fetchInstance ∧ op ≠ .fetchBinding) :
    ∃ registry, registries.get? op = some registry := by
  cases op <;> simp_all [get?]

namespace Session

variable {σ : Type}

/-- One call, made in some shared state, and nothing else: it is under way or has been answered. -/
inductive Alone (layers : Layers) (task : Task σ) (state : σ) (s : Session σ) : Prop where
  | underway (polled : Task σ) (outer : s.layers = layers) (tasks : s.tasks = [polled])
      (reports : s.reports = []) (fresh : polled.fresh = task)
      (onTime : polled.OnTime (· = state) s.now) (untouched : ¬ polled.Served → s.state = state)
  | answered (outer : s.layers = layers) (tasks : s.tasks = [])
      (reports : s.reports = [task.settled layers state])
      (finished : (task.whole state).finish ≤ s.now)

variable {layers : Layers} {task : Task σ} {state : σ} {s : Session σ}

theorem alone_call (hempty : s.tasks = []) (hreports : s.reports = []) (name : String)
    (op : Operation) (request : op.Request) (attempt : Attempt σ op.Response) :
    (s.call name op request attempt).Alone s.layers (s.newTask name op request attempt) s.state :=
  .underway (s.newTask name op request attempt) rfl (by simp [call, hempty]) hreports rfl rfl
    fun _ => rfl

theorem Alone.poll (h : s.Alone layers task state) :
    s.poll.Alone layers task state ∧ s.poll.Idle := by
  cases h with
  | underway polled houter htasks hreports hfresh hon huntouched =>
    have hpoll : s.poll = Session.pollTask { s with tasks := [] } polled := by
      rw [Session.poll, htasks]
      rfl
    rw [hpoll]
    rcases pollTask_cases { s with tasks := [] } hon huntouched with
      ⟨current, next, hnext, honNext, hwaiting, hcurrent, heq⟩ |
      ⟨current, ended, hended, hinstant, heq⟩
    · rw [heq]
      have huntouchedNext : ¬ next.Served → current = state := by
        intro hserved
        obtain ⟨hpolled, hcurrent⟩ := hcurrent hserved
        rw [hcurrent, huntouched hpolled]
      exact ⟨.underway next houter rfl hreports (hnext.trans hfresh) honNext huntouchedNext,
        by simpa [Idle] using hwaiting⟩
    · rw [heq]
      subst hfresh hended houter
      exact ⟨.answered rfl rfl (by simp [hreports]) (Nat.le_of_eq hinstant), by simp [Idle]⟩
  | answered houter htasks hreports hover =>
    have hpoll : s.poll = { s with tasks := [] } := by
      rw [Session.poll, htasks]
      rfl
    rw [hpoll]
    exact ⟨.answered houter rfl hreports hover, by simp [Idle]⟩

theorem Alone.moveTo (h : s.Alone layers task state) (hidle : s.Idle) {instant : Nat}
    (hnow : s.now ≤ instant)
    (hdue : ∀ task ∈ s.tasks, ∀ due, task.due? = some due → instant ≤ due) :
    (s.moveTo instant).Alone layers task state := by
  cases h with
  | underway polled houter htasks hreports hfresh hon huntouched =>
    have hmem : polled ∈ s.tasks := by simp [htasks]
    exact .underway polled houter htasks hreports hfresh
      (hon.later (hidle polled hmem) (hdue polled hmem)) huntouched
  | answered houter htasks hreports hover =>
    exact .answered houter htasks hreports (Nat.le_trans hover hnow)

/-- A call that is alone is answered once, when its run is over. -/
theorem Alone.reports_of_idle (h : s.Alone layers task state) (hidle : s.Idle) :
    s.reports =
      if (task.whole state).finish ≤ s.now then [task.settled layers state] else [] := by
  cases h with
  | underway polled houter htasks hreports hfresh hon huntouched =>
    have hlt := Task.lt_finish_of_waiting hon (hidle polled (by simp [htasks])) state
      fun other hother => by rw [hother]
    have hlt' : s.now < (polled.fresh.whole state).finish := hlt
    rw [hreports, ← hfresh, if_neg (Nat.not_le.2 hlt')]
  | answered houter htasks hreports hover => rw [hreports, if_pos hover]

theorem reports_alone (hempty : s.tasks = []) (hreports : s.reports = []) (name : String)
    (op : Operation) (request : op.Request) (attempt : Attempt σ op.Response) (ms : Nat) :
    let task := s.newTask name op request attempt
    ((s.call name op request attempt).advance ms).reports =
      if (task.whole s.state).finish ≤ s.now + ms then [task.settled s.layers s.state] else [] := by
  intro task
  obtain ⟨halone, hidle, hnow⟩ := advance_keeps (P := Alone s.layers task s.state)
    (fun _ h => h.poll) (fun _ _ h hidle => h.moveTo hidle)
    (alone_call hempty hreports name op request attempt) ms
  rw [halone.reports_of_idle hidle, hnow]
  rfl

/-- A request to one of the seven operations with hooks leads to the calls and the answer of its one
reference run, whatever its hooks and the service do. -/
theorem told_iff_reference (registries : FlowRegistries) (capacity : Nat) (state : σ)
    (name : String) (op : Operation) (hop : op ≠ .fetchInstance ∧ op ≠ .fetchBinding)
    (request : op.Request) (attempt : Attempt σ op.Response) :
    ∃ registry, registries.get? op = some registry ∧
      (∃ calls result, Reference registry op.name request (attempt.finish state).1 calls result) ∧
      ∀ calls result, Reference registry op.name request (attempt.finish state).1 calls result ↔
        ∃ finish, ∀ ms,
          (((start registries .none capacity state).call name op request attempt).advance
            ms).reports.map Report.told = if finish ≤ ms then [⟨op, calls, result⟩] else [] := by
  obtain ⟨registry, hregistry⟩ := registries.get?_eq_some hop
  have hreference := Orchestrator.reference_run registry request attempt.delay
    (attempt.finish state).1 0
  have hreports : ∀ ms, (((start registries .none capacity state).call name op request
      attempt).advance ms).reports.map Report.told =
      let run := Orchestrator.run op (some registry) request attempt.delay
        (attempt.finish state).1 0
      if run.finish ≤ ms then [⟨op, run.entries.map Entry.invocation, run.result⟩] else [] := by
    intro ms
    have hwhole : ((start registries .none capacity state).newTask name op request attempt).whole
        state = Orchestrator.run op (some registry) request attempt.delay
          (attempt.finish state).1 0 := by
      simp only [Task.whole, newTask, receive, start, hregistry]
    have hsettled := ((start registries .none capacity state).newTask name op request
      attempt).told_settled .none state
    rw [hwhole] at hsettled
    have halone := reports_alone (s := start registries .none capacity state) rfl rfl name op
      request attempt ms
    rw [halone, apply_ite (List.map Report.told)]
    change (if (Task.whole _ state).finish ≤ 0 + ms then
      [((newTask _ name op request attempt).settled .none state).told] else []) = _
    rw [hwhole, hsettled, Nat.zero_add]
    rfl
  refine ⟨registry, hregistry, ⟨_, _, hreference⟩, fun calls result => ⟨fun h => ?_, ?_⟩⟩
  · obtain ⟨rfl, rfl⟩ := h.unique hreference
    exact ⟨_, hreports⟩
  · rintro ⟨finish, h⟩
    have hsome := h (max finish (Orchestrator.run op (some registry) request attempt.delay
      (attempt.finish state).1 0).finish)
    rw [hreports, if_pos (Nat.le_max_left _ _)] at hsome
    simp only [Nat.le_max_right, if_true] at hsome
    cases hsome
    exact hreference

/-- A hook that fails keeps the service from being called, and a failing error hook is no answer. -/
theorem told_of_refusal :
    let refusal : Failure := .invalidParameters "refused"
    let registry : FlowRegistry UnbindRequest UnbindResponse :=
      ⟨[⟨"policy", false, fun _ => ⟨3, some refusal⟩⟩], [],
        [⟨"cleanup", false, fun _ => ⟨1, some (.unavailable "down")⟩⟩]⟩
    let request := UnbindRequest.ofIds "instance" "binding" "service" "plan"
    ∃ finish, ∀ ms, (((start { unbind := registry } .none 1 ()).call "one" .unbind request
        (.fixed 5 (.ok .completed))).advance ms).reports.map Report.told =
      if finish ≤ ms then
        [⟨.unbind, [⟨.prepare request, "policy", some (some refusal)⟩,
          ⟨.recover request refusal, "cleanup", some (some (.unavailable "down"))⟩],
          .error refusal⟩]
      else [] := by
  intro refusal registry request
  obtain ⟨_, hregistry, -, hreference⟩ := told_iff_reference { unbind := registry } 1 () "one"
    .unbind ⟨by decide, by decide⟩ request (.fixed 5 (.ok .completed))
  cases hregistry
  refine (hreference _ _).1 (.unprepared ⟨[], _, [], rfl, ?_, rfl⟩)
  simp [Hook.Clean]

end Session
end ServiceBroker
