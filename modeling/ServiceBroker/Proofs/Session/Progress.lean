import ServiceBroker.Proofs.Orchestration.Time
import ServiceBroker.Session

/-!
# The progress of a call

A call that is polled at every instant it waits for is, at every stage, on the way through one run
of the orchestrator that began when the call was made. It is answered at the instant at which this
run is over, and what is reported of it is the whole run.
-/
namespace ServiceBroker

namespace Task

variable {σ : Type}

/-- The call as it was made. -/
def fresh (task : Task σ) : Task σ := { task with stage := .queued }

/-- All that is done for the call, if its service call ends in a given shared state. -/
def whole (task : Task σ) (state : σ) :
    Run task.op.Request task.op.Response :=
  match task.admission with
  | .rejected inFlight => ⟨[], [], task.arrival, .error (shedFailure task.op inFlight)⟩
  | .exempt | .admitted =>
    Orchestrator.run task.op (task.registries.get? task.op) task.request task.attempt.delay
      (task.attempt.finish state).1 task.arrival

theorem over_whole (task : Task σ) (state : σ) :
    (task.whole state).Over ∧
      task.arrival ≤ (task.whole state).finish := by
  unfold whole
  split
  · exact ⟨⟨by simp, by simp⟩, Nat.le_refl _⟩
  all_goals exact Orchestrator.over_run _ _ _ _ _

/-- The call at the end of a run. -/
def closed (task : Task σ) (run : Run task.op.Request task.op.Response) : Task σ :=
  { task with stage := .closing run }

/-- What is done for a call whose service call ends in a shared state. -/
def concluded (task : Task σ) (p : Progress task.op.Request task.op.Response) (state : σ) :
    Run task.op.Request task.op.Response :=
  Orchestrator.closing task.op (task.registries.get? task.op) task.request p
    (p.instant + task.attempt.delay) (task.attempt.finish state).1

/-- A call that is not shed is orchestrated. -/
theorem whole_eq_run {task : Task σ} (h : ∀ n, task.admission ≠ .rejected n) (state : σ) :
    task.whole state = Orchestrator.run task.op (task.registries.get? task.op) task.request
      task.attempt.delay (task.attempt.finish state).1 task.arrival := by
  unfold whole
  split
  · next n hcase => exact absurd hcase (h n)
  all_goals rfl

/-- A call that has come to the service goes on to the end of its whole run. -/
theorem whole_eq_concluded {task : Task σ} {p : Progress task.op.Request task.op.Response}
    (hadmission : ∀ n, task.admission ≠ .rejected n)
    (hopening : Orchestrator.opening task.op (task.registries.get? task.op) task.request
      task.arrival = .ready p) (state : σ) :
    task.whole state = task.concluded p state ∧
      p.instant + task.attempt.delay ≤ (task.whole state).finish := by
  have hwhole : task.whole state = task.concluded p state := by
    simp only [whole_eq_run hadmission, Orchestrator.run, hopening, concluded]
  have hover := Orchestrator.over_opening (task.registries.get? task.op) task.request task.arrival
  rw [hopening] at hover
  have hfinish := (Orchestrator.over_closing (task.registries.get? task.op) task.request hover.1
    (Nat.le_add_right p.instant task.attempt.delay) (task.attempt.finish state).1).2
  exact ⟨hwhole, hwhole ▸ hfinish⟩

/-! ## Stages and the clock -/

/-- The stage of the call is one of its run, and the clock has not passed what it waits for. The
service call may end in some shared states only. -/
def OnTime (ends : σ → Prop) (now : Nat) (task : Task σ) : Prop :=
  match task.stage with
  | .queued => task.arrival = now
  | .serving p =>
    (∀ n, task.admission ≠ .rejected n) ∧
      Orchestrator.opening task.op (task.registries.get? task.op) task.request task.arrival =
        .ready p ∧ now ≤ p.instant + task.attempt.delay
  | .closing run => (∃ state, ends state ∧ run = task.whole state) ∧ now ≤ run.finish

/-- Nothing is asked of the service any more. -/
def Served (task : Task σ) : Prop :=
  match task.stage with
  | .queued | .serving _ => False
  | .closing _ => True

/-- The call waits for an instant to come. -/
def Waiting (now : Nat) (task : Task σ) : Prop := ∃ due, task.due? = some due ∧ now < due

variable {ends : σ → Prop}

/-- Being on time is kept while the clock does not pass what the call waits for. -/
theorem OnTime.later {now later : Nat} {task : Task σ}
    (h : task.OnTime ends now) (hw : task.Waiting now)
    (hdue : ∀ due, task.due? = some due → later ≤ due) : task.OnTime ends later := by
  obtain ⟨due, heq, -⟩ := hw
  unfold OnTime due? at *
  split at h
  · grind
  · next p hp => exact ⟨h.1, h.2.1, hdue _ (by simp [hp])⟩
  · next run hr => exact ⟨h.1, hdue _ (by simp [hr])⟩

/-- A call that waits has not come to the end of its run, where only one run is possible. -/
theorem lt_finish_of_waiting {now : Nat} {task : Task σ} (h : task.OnTime ends now)
    (hw : task.Waiting now) (state : σ)
    (hone : ∀ other, ends other → task.whole other = task.whole state) :
    now < (task.whole state).finish := by
  obtain ⟨due, hdue, hlt⟩ := hw
  unfold OnTime at h
  cases hstage : task.stage with
  | queued => simp [due?, hstage] at hdue
  | serving p =>
    rw [hstage] at h
    obtain ⟨hadmission, hopening, -⟩ := h
    have hfinish := (whole_eq_concluded hadmission hopening state).2
    have hdue' : p.instant + task.attempt.delay = due := by simpa [due?, hstage] using hdue
    omega
  | closing run =>
    rw [hstage] at h
    obtain ⟨⟨other, hother, hrun⟩, -⟩ := h
    have hdue' : run.finish = due := by simpa [due?, hstage] using hdue
    rw [← hone other hother, ← hrun, hdue']
    exact hlt

theorem fresh_begin (now : Nat) (task : Task σ) :
    (task.begin now).fresh = task.fresh := by
  unfold begin
  split <;> rfl

theorem fresh_serve (now : Nat) (task : Task σ) (state : σ) :
    (task.serve now state).1.fresh = task.fresh := by
  unfold serve
  split
  · dsimp only
    split <;> rfl
  all_goals rfl

theorem fresh_poll (now : Nat) (task : Task σ) (state : σ) :
    (task.poll now state).1.fresh = task.fresh := by
  rw [poll, fresh_serve, fresh_begin]

/-! ## Polling -/

theorem onTime_begin {now : Nat} {task : Task σ} (h : task.OnTime ends now) {state : σ}
    (hstate : ¬ task.Served → ends state) :
    (task.begin now).OnTime ends now ∧
      (task.begin now).stage ≠ .queued := by
  obtain ⟨id, name, op, request, attempt, registries, arrival, admission, stage⟩ := task
  cases stage with
  | queued =>
    have harrival : arrival = now := h
    subst harrival
    have hends := hstate (by simp [Served])
    have hover := Orchestrator.over_opening (registries.get? op) request arrival
    cases admission with
    | rejected inFlight => exact ⟨⟨⟨state, hends, rfl⟩, Nat.le_refl _⟩, by simp [begin, opening]⟩
    | exempt | admitted =>
      simp only [begin, opening, OnTime]
      cases heq : Orchestrator.opening op (registries.get? op) request arrival with
      | ready p =>
        rw [heq] at hover
        exact ⟨⟨by simp, rfl, Nat.le_add_right_of_le hover.2⟩, by simp⟩
      | answered run =>
        rw [heq] at hover
        exact ⟨⟨⟨state, hends, by simp [whole, Orchestrator.run, heq]⟩, hover.2⟩, by simp⟩
  | serving p => exact ⟨h, by simp [begin]⟩
  | closing run => exact ⟨h, by simp [begin]⟩

/-- A call whose run is known waits for its end unless that is now. -/
theorem waiting_or_over {now : Nat} {task : Task σ}
    (h : task.OnTime ends now) {run : Run task.op.Request task.op.Response}
    (hrun : task.stage = .closing run) :
    task.Waiting now ∨ ∃ run, task.stage = .closing run ∧ run.finish = now := by
  have hfinish : now ≤ run.finish := by
    unfold OnTime at h
    split at h
    all_goals grind
  rcases Nat.lt_or_eq_of_le hfinish with hlt | heq
  · exact .inl ⟨run.finish, by simp [due?, hrun], hlt⟩
  · exact .inr ⟨run, hrun, heq.symm⟩

/-- The end of the service call takes the call on to the end of its run. -/
theorem onTime_concluded {now : Nat} {task : Task σ}
    (h : task.OnTime ends now) {p : Progress task.op.Request task.op.Response}
    (hp : task.stage = .serving p) {state : σ} (hstate : ends state) :
    (task.closed (task.concluded p state)).OnTime ends now := by
  unfold OnTime at h
  rw [hp] at h
  obtain ⟨hadmission, hopening, hle⟩ := h
  obtain ⟨hwhole, hfinish⟩ := whole_eq_concluded hadmission hopening state
  rw [hwhole] at hfinish
  exact ⟨⟨state, hstate, hwhole.symm⟩, Nat.le_trans hle hfinish⟩

theorem serve_of_due {now : Nat} {task : Task σ} {p : Progress task.op.Request task.op.Response}
    (hp : task.stage = .serving p) (hdue : p.instant + task.attempt.delay ≤ now) (state : σ) :
    (task.serve now state).1 = task.closed (task.concluded p state) := by
  simp only [serve, hp, hdue, if_true]
  rfl

theorem serve_of_not_due {now : Nat} {task : Task σ}
    {p : Progress task.op.Request task.op.Response} (hp : task.stage = .serving p)
    (hdue : ¬ p.instant + task.attempt.delay ≤ now) (state : σ) :
    task.serve now state = (task, state) := by
  simp [serve, hp, hdue]

theorem onTime_serve {now : Nat} {task : Task σ}
    (h : task.OnTime ends now) (hq : task.stage ≠ .queued) {state : σ}
    (hstate : ¬ task.Served → ends state) :
    (task.serve now state).1.OnTime ends now ∧
      ((task.serve now state).1.Waiting now ∨
        ∃ run, (task.serve now state).1.stage = .closing run ∧ run.finish = now) := by
  cases hstage : task.stage with
  | queued => exact absurd hstage hq
  | serving p =>
    by_cases hdue : p.instant + task.attempt.delay ≤ now
    · have hon := onTime_concluded h hstage (hstate (by simp [Served, hstage]))
      rw [serve_of_due hstage hdue]
      exact ⟨hon, waiting_or_over hon rfl⟩
    · rw [serve_of_not_due hstage hdue]
      exact ⟨h, .inl ⟨_, by simp [due?, hstage], Nat.not_le.1 hdue⟩⟩
  | closing run =>
    have hserve : (task.serve now state).1 = task := by simp [serve, hstage]
    rw [hserve]
    exact ⟨h, waiting_or_over h hstage⟩

/-- A call that is polled on time either waits for a later instant or is over right now. -/
theorem onTime_poll {now : Nat} {task : Task σ}
    (h : task.OnTime ends now) {state : σ} (hstate : ¬ task.Served → ends state) :
    (task.poll now state).1.OnTime ends now ∧
      ((task.poll now state).1.Waiting now ∨
        ∃ run, (task.poll now state).1.stage = .closing run ∧ run.finish = now) := by
  obtain ⟨hbegin, hq⟩ := onTime_begin h hstate
  refine onTime_serve hbegin hq fun hserved => hstate fun h => hserved ?_
  unfold begin
  split
  · grind [Served]
  all_goals exact h

theorem poll_of_served {now : Nat} {task : Task σ} (h : task.Served) (state : σ) :
    task.poll now state = (task, state) := by
  cases hstage : task.stage with
  | queued | serving p => simp [Served, hstage] at h
  | closing run =>
    have hbegin : task.begin now = task := by simp [begin, hstage]
    rw [poll, hbegin]
    simp [serve, hstage]

theorem state_serve {now : Nat} {task : Task σ} {state : σ}
    (h : ¬ (task.serve now state).1.Served) : (task.serve now state).2 = state := by
  cases hstage : task.stage with
  | serving p =>
    by_cases hdue : p.instant + task.attempt.delay ≤ now
    · rw [serve_of_due hstage hdue] at h
      exact absurd trivial h
    · rw [serve_of_not_due hstage hdue]
  | queued | closing run => simp [serve, hstage]

/-- The shared state changes only when the service call ends. -/
theorem state_poll {now : Nat} {task : Task σ} {state : σ}
    (h : ¬ (task.poll now state).1.Served) :
    ¬ task.Served ∧ (task.poll now state).2 = state :=
  ⟨fun hserved => h (by rwa [poll_of_served hserved]), state_serve h⟩

/-! ## Answers -/

theorem result?_of_waiting {now : Nat} {task : Task σ} (h : task.Waiting now) :
    task.result? now = none := by
  obtain ⟨due, hdue, hlt⟩ := h
  cases hstage : task.stage with
  | queued => simp [result?, hstage]
  | serving p => simp [result?, hstage]
  | closing run =>
    have hfinish : run.finish = due := by simpa [due?, hstage] using hdue
    simp [result?, hstage, hfinish, hlt]

theorem result?_of_over {now : Nat} {task : Task σ} {run : Run task.op.Request task.op.Response}
    (hrun : task.stage = .closing run) (hnow : run.finish = now) :
    task.result? now = some run.result := by
  simp [result?, hrun, hnow]

/-- What is reported of the call once its run is over. -/
def settled (layers : Layers) (task : Task σ) (state : σ) : Report :=
  let run := task.whole state
  (task.closed run).report layers run.finish run.result

theorem report_eq_settled {now : Nat} {task : Task σ}
    (h : task.OnTime ends now) {run : Run task.op.Request task.op.Response}
    (hrun : task.stage = .closing run) (hnow : run.finish = now) (layers : Layers) :
    ∃ state, ends state ∧
      task.report layers now run.result = task.fresh.settled layers state := by
  obtain ⟨state, hstate, hwhole⟩ : ∃ state, ends state ∧ run = task.whole state := by
    unfold OnTime at h
    rw [hrun] at h
    exact h.1
  subst hwhole hnow
  refine ⟨state, hstate, ?_⟩
  change _ = report layers (task.whole state).finish
    { task with stage := .closing (task.whole state) } (task.whole state).result
  rw [← hrun]

/-- The events that are reported of the call under some layers, if this is its run. -/
def allEmissions (layers : Layers) (task : Task σ) (run : Run task.op.Request task.op.Response) :
    List Trace.Emission :=
  match task.admission with
  | .rejected inFlight =>
    [⟨task.arrival, [], .shed task.op (task.op.instanceId task.request) inFlight⟩]
  | .exempt | .admitted => (task.closed run).accounts layers

theorem entries_closed (task : Task σ) {run : Run task.op.Request task.op.Response}
    (h : run.Over) : (task.closed run).entries run.finish = run.entries := by
  have hstart : run.entries.filter (fun e => e.start ≤ run.finish) = run.entries :=
    List.filter_eq_self.2 fun e he => by simpa using (h.entries e he).1
  have hseen : run.entries.map (·.seenAt run.finish) = run.entries.map fun e => e :=
    List.map_congr_left fun e he => (h.entries e he).seenAt
  change (run.entries.filter fun e => e.start ≤ run.finish).map (·.seenAt run.finish) = run.entries
  rw [hstart, hseen, List.map_id']

theorem accounts_closed (layers : Layers) (task : Task σ)
    (run : Run task.op.Request task.op.Response) :
    (task.closed run).accounts layers =
      match layers with
      | .none => run.emissions
      | .full _ => run.emissions.map (·.within .request) ++
          [⟨run.finish, [.request], .complete task.op (Failure.ofResult? run.result)⟩] := by
  cases layers <;> rfl

theorem emissions_closed (layers : Layers) (task : Task σ)
    {run : Run task.op.Request task.op.Response} (h : run.Over) :
    (task.closed run).emissions layers run.finish = task.allEmissions layers run := by
  unfold emissions allEmissions
  change (match task.admission with | .rejected _ => _ | .exempt | .admitted => _) = _
  split
  · rfl
  all_goals
    refine List.filter_eq_self.2 ?_
    intro e he
    rw [accounts_closed] at he
    cases layers with
    | none => simpa using h.emissions e he
    | full broker =>
      rcases List.mem_append.1 he with he | he
      · obtain ⟨inner, hinner, rfl⟩ := List.mem_map.1 he
        exact decide_eq_true (h.emissions inner hinner)
      · grind

/-- A report holds the whole run. -/
theorem settled_eq (layers : Layers) (task : Task σ) (state : σ) :
    task.settled layers state =
      let run := task.whole state
      ⟨task.id, task.name, task.op, task.request, task.arrival, task.admission, run.finish,
        run.result, run.entries, task.allEmissions layers run,
        (task.closed run).spans layers run.finish⟩ := by
  have hover := (task.over_whole state).1
  have hentries := entries_closed task hover
  have hemissions := emissions_closed layers task hover
  simp only [settled, report, log, hemissions]
  rw [← hentries]
  rfl

/-- Of a call that is not shed the run of the orchestrator is reported, and what the layers add. -/
theorem settled_of_orchestrated {task : Task σ} (h : ∀ n, task.admission ≠ .rejected n)
    (layers : Layers) (state : σ) :
    task.settled layers state =
      let run := Orchestrator.run task.op (task.registries.get? task.op) task.request
        task.attempt.delay (task.attempt.finish state).1 task.arrival
      ⟨task.id, task.name, task.op, task.request, task.arrival, task.admission, run.finish,
        run.result, run.entries,
        match layers with
        | .none => run.emissions
        | .full _ => run.emissions.map (·.within .request) ++
            [⟨run.finish, [.request], .complete task.op (Failure.ofResult? run.result)⟩],
        match layers with
        | .none => [.ofOperation task.op task.request]
        | .full broker =>
          [.ofRequest broker task.op task.request (some (Failure.ofResult? run.result)),
            .ofOperation task.op task.request]⟩ := by
  rw [settled_eq, whole_eq_run h]
  generalize Orchestrator.run task.op (task.registries.get? task.op) task.request
    task.attempt.delay (task.attempt.finish state).1 task.arrival = run
  have hresult : (task.closed run).result? run.finish = some run.result := by
    simp [result?, closed]
  have hclosed : (task.closed run).admission = task.admission := rfl
  cases hadmission : task.admission with
  | rejected n => exact absurd hadmission (h n)
  | exempt | admitted =>
    simp only [allEmissions, spans, hclosed, hadmission, accounts_closed, hresult]
    cases layers <;> rfl

theorem whole_of_rejected {task : Task σ} {inFlight : Nat}
    (h : task.admission = .rejected inFlight) (state : σ) :
    task.whole state = ⟨[], [], task.arrival, .error (shedFailure task.op inFlight)⟩ := by
  simp only [whole, h]

/-- Of a call that is shed nothing is reported but the warning. -/
theorem settled_of_rejected {task : Task σ} {inFlight : Nat}
    (h : task.admission = .rejected inFlight) (layers : Layers) (state : σ) :
    task.settled layers state =
      ⟨task.id, task.name, task.op, task.request, task.arrival, .rejected inFlight, task.arrival,
        .error (shedFailure task.op inFlight),
        ⟨[], [⟨task.arrival, [], .shed task.op (task.op.instanceId task.request) inFlight⟩],
          []⟩⟩ := by
  have hspans : ∀ run, (task.closed run).spans layers task.arrival = [] := by
    intro run
    have hclosed : (task.closed run).admission = .rejected inFlight := h
    simp only [spans, hclosed]
  rw [settled_eq]
  simp only [whole_of_rejected h, allEmissions, h, hspans]

end Task
end ServiceBroker
