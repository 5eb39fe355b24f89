import ServiceBroker.Proofs.Session.Progress

/-!
# The ledger of a session

Calls are made and time passes, in any order. Every call that was made is then either under way and
on time, or has been answered with the report of its whole run; nothing is answered twice and
nothing is lost. The budget counts the permits of the calls under way.
-/
namespace ServiceBroker

namespace Task

variable {σ : Type}

theorem admission_eq_of_fresh {task other : Task σ} (h : task.fresh = other.fresh) :
    task.admission = other.admission := by
  change task.fresh.admission = other.fresh.admission
  rw [h]

@[simp]
theorem id_fresh (task : Task σ) : task.fresh.id = task.id := rfl

@[simp]
theorem admission_fresh (task : Task σ) : task.fresh.admission = task.admission := rfl

@[simp]
theorem id_settled (layers : Layers) (task : Task σ) (state : σ) :
    (task.settled layers state).id = task.id := rfl

@[simp]
theorem admission_settled (layers : Layers) (task : Task σ) (state : σ) :
    (task.settled layers state).admission = task.admission := rfl

@[simp]
theorem instant_settled (layers : Layers) (task : Task σ) (state : σ) :
    (task.settled layers state).instant = (task.whole state).finish := rfl

end Task

namespace Session

variable {σ : Type}

/-! ## Steps -/

/-- What is done with a session from outside. -/
inductive Step (σ : Type) where
  /-- Turns to another service behind the same layers. -/
  | turn (registries : FlowRegistries)
  | call (name : String) (op : Operation) (request : op.Request) (attempt : Attempt σ op.Response)
  /-- Polls now and then lets some time pass. -/
  | wait (ms : Nat)

def apply (s : Session σ) : Step σ → Session σ
  | .turn registries => s.through registries
  | .call name op request attempt => s.call name op request attempt
  | .wait ms => s.advance ms

def after (s : Session σ) (steps : List (Step σ)) : Session σ := steps.foldl apply s

/-- The calls that a step makes. -/
def makes (s : Session σ) : Step σ → List (Task σ)
  | .call name op request attempt => [s.newTask name op request attempt]
  | .turn _ | .wait _ => []

/-- The calls that some steps make, as they were made. -/
def made (s : Session σ) : List (Step σ) → List (Task σ)
  | [] => []
  | step :: steps => s.makes step ++ (s.apply step).made steps

/-! ## One poll -/

/-- Polling a call on time either leaves it waiting for a later instant or answers it with the
report of its whole run. -/
theorem pollTask_cases {ends : σ → Prop} (s : Session σ) {task : Task σ}
    (h : task.OnTime ends s.now) (hstate : ¬ task.Served → ends s.state) :
    (∃ (state : σ) (polled : Task σ), polled.fresh = task.fresh ∧ polled.OnTime ends s.now ∧
      polled.Waiting s.now ∧ (¬ polled.Served → ¬ task.Served ∧ state = s.state) ∧
      s.pollTask task = { s with state, tasks := s.tasks ++ [polled] }) ∨
    ∃ state ended : σ, ends ended ∧ (task.fresh.settled s.layers ended).instant = s.now ∧
      s.pollTask task = { s with
        state
        budget := s.budget.release task.admission
        reports := s.reports ++ [task.fresh.settled s.layers ended] } := by
  obtain ⟨hon, hcase⟩ := Task.onTime_poll h hstate
  have hfresh := Task.fresh_poll s.now task s.state
  rcases hcase with hwaiting | ⟨run, hrun, hfinish⟩
  · refine .inl ⟨(task.poll s.now s.state).2, (task.poll s.now s.state).1, hfresh, hon, hwaiting,
      Task.state_poll, ?_⟩
    simp only [pollTask, Task.result?_of_waiting hwaiting]
  · obtain ⟨ended, hended, hreport⟩ := Task.report_eq_settled hon hrun hfinish s.layers
    refine .inr ⟨(task.poll s.now s.state).2, ended, hended, ?_, ?_⟩
    · rw [← hfresh, ← hreport]
      rfl
    · simp only [pollTask, Task.result?_of_over hrun hfinish, hreport, hfresh,
        Task.admission_eq_of_fresh hfresh]

/-! ## The ledger -/

/-- The books of a session after some calls were made, some of which are still to be polled at the
present instant. -/
structure Ledger (layers : Layers) (capacity : Nat) (made pending : List (Task σ))
    (s : Session σ) : Prop where
  outer : s.layers = layers
  size : s.budget.capacity = capacity
  held : s.budget.available + (s.tasks ++ pending).countP (·.admission.holdsPermit) = capacity
  ids : made.map Task.id = List.range s.calls
  tasks : ∀ task ∈ s.tasks, task.OnTime (fun _ => True) s.now
  due : ∀ task ∈ pending, task.OnTime (fun _ => True) s.now
  /-- Every call is under way or answered, and not both. -/
  accounted : ∃ answered : List (Task σ × σ),
    s.reports = answered.map (fun a => a.1.settled layers a.2) ∧
      ((s.tasks ++ pending).map Task.fresh ++ answered.map Prod.fst).Perm made
  answered : ∀ report ∈ s.reports, report.instant ≤ s.now

/-- Every call under way waits for an instant to come. -/
def Idle (s : Session σ) : Prop := ∀ task ∈ s.tasks, task.Waiting s.now

variable {layers : Layers} {capacity : Nat} {made pending : List (Task σ)} {s : Session σ}

theorem ledger_start (registries : FlowRegistries) (layers : Layers) (capacity : Nat) (state : σ) :
    Ledger layers capacity [] [] (start registries layers capacity state) where
  outer := rfl
  size := rfl
  held := Nat.add_zero _
  ids := rfl
  tasks := by simp [start]
  due := by simp
  accounted := ⟨[], rfl, .refl _⟩
  answered := by simp [start]

theorem Ledger.pollTask {task : Task σ} (h : Ledger layers capacity made (task :: pending) s)
    (hidle : s.Idle) :
    Ledger layers capacity made pending (s.pollTask task) ∧ (s.pollTask task).Idle := by
  obtain rfl := h.outer
  obtain ⟨answered, hreports, hperm⟩ := h.accounted
  obtain ⟨htask, hlater⟩ := List.forall_mem_cons.1 h.due
  have hheld := h.held
  rw [List.countP_append, List.countP_cons] at hheld
  rcases s.pollTask_cases htask fun _ => trivial with
    ⟨state, polled, hfresh, hon, hwaiting, -, heq⟩ | ⟨state, ended, -, hinstant, heq⟩
  · have hadmission := Task.admission_eq_of_fresh hfresh
    rw [heq]
    refine ⟨{ h with
      held := ?_, tasks := ?_, due := hlater, accounted := ⟨answered, hreports, ?_⟩ }, ?_⟩
    · simp only [List.countP_append, List.countP_cons, List.countP_nil, hadmission]
      omega
    · exact List.forall_mem_append.2 ⟨h.tasks, by simpa using hon⟩
    · simpa [hfresh] using hperm
    · exact List.forall_mem_append.2 ⟨hidle, by simpa using hwaiting⟩
  · rw [heq]
    refine ⟨{ h with
      size := by simpa using h.size, held := ?_, due := hlater
      accounted := ⟨answered ++ [(task.fresh, ended)], ?_, ?_⟩, answered := ?_ }, hidle⟩
    · simp only [Budget.available_release, List.countP_append]
      cases hholds : task.admission.holdsPermit <;> grind
    · simp [hreports]
    · refine .trans ?_ hperm
      simp only [List.map_append, List.map_cons, List.map_nil, List.append_assoc]
      refine .append_left _ ?_
      rw [← List.append_assoc]
      exact List.perm_append_singleton _ _
    · exact List.forall_mem_append.2 ⟨h.answered, by simpa using Nat.le_of_eq hinstant⟩

theorem Ledger.foldl_pollTask {tasks : List (Task σ)} (h : Ledger layers capacity made tasks s)
    (hidle : s.Idle) :
    Ledger layers capacity made [] (tasks.foldl Session.pollTask s) ∧
      (tasks.foldl Session.pollTask s).Idle := by
  induction tasks generalizing s with
  | nil => exact ⟨h, hidle⟩
  | cons task tasks ih =>
    obtain ⟨hnext, hidle⟩ := h.pollTask hidle
    exact ih hnext hidle

/-- Before all calls are polled, each of them is still to be polled. -/
theorem Ledger.unpolled (h : Ledger layers capacity made [] s) :
    Ledger layers capacity made s.tasks { s with tasks := [] } := by
  have hheld := h.held
  have haccounted := h.accounted
  rw [List.append_nil] at hheld haccounted
  exact { h with
    held := hheld, tasks := by simp, due := h.tasks, accounted := haccounted }

/-- Once all calls are polled they wait, whatever each of them had to do. -/
theorem Ledger.poll (h : Ledger layers capacity made [] s) :
    Ledger layers capacity made [] s.poll ∧ s.poll.Idle :=
  h.unpolled.foldl_pollTask (by simp [Idle])

/-! ## Time -/

/-- Time may pass up to the next instant at which a call can go on. -/
theorem Ledger.moveTo (h : Ledger layers capacity made [] s) (hidle : s.Idle) {instant : Nat}
    (hnow : s.now ≤ instant)
    (hdue : ∀ task ∈ s.tasks, ∀ due, task.due? = some due → instant ≤ due) :
    Ledger layers capacity made [] (s.moveTo instant) where
  outer := h.outer
  size := h.size
  held := h.held
  ids := h.ids
  tasks := fun task htask => (h.tasks task htask).later (hidle task htask) (hdue task htask)
  due := by simp
  accounted := h.accounted
  answered := fun report hreport => Nat.le_trans (h.answered report hreport) hnow

theorem nextDue?_some {due : Nat} (h : s.nextDue? = some due) :
    (∃ task ∈ s.tasks, task.due? = some due) ∧
      ∀ task ∈ s.tasks, ∀ later, task.due? = some later → due ≤ later := by
  obtain ⟨hmem, hle⟩ := List.min?_eq_some_iff.1 h
  refine ⟨List.mem_filterMap.1 hmem, fun task htask later hlater => hle later ?_⟩
  exact List.mem_filterMap.2 ⟨task, htask, hlater⟩

theorem nextDue?_none (h : s.nextDue? = none) : ∀ task ∈ s.tasks, task.due? = none := by
  have hnil : s.tasks.filterMap Task.due? = [] := List.min?_eq_none_iff.1 h
  exact List.filterMap_eq_nil_iff.1 hnil

/-- Every instant at which a call can go on is polled, so that what polls and the passing of time
keep is kept, and at the end all calls wait. -/
theorem advanceTo_keeps {P : Session σ → Prop} (poll : ∀ s, P s → P s.poll ∧ s.poll.Idle)
    (moveTo : ∀ s instant, P s → s.Idle → s.now ≤ instant →
      (∀ task ∈ s.tasks, ∀ due, task.due? = some due → instant ≤ due) → P (s.moveTo instant))
    (h : P s) (hidle : s.Idle) {instant : Nat} (hnow : s.now ≤ instant) :
    P (s.advanceTo instant) ∧ (s.advanceTo instant).Idle ∧ (s.advanceTo instant).now = instant := by
  fun_induction Session.advanceTo s instant with
  | case1 s due hnext hbetween ih =>
    obtain ⟨hpolled, hpolledIdle⟩ :=
      poll _ (moveTo s due h hidle (Nat.le_of_lt hbetween.1) (nextDue?_some hnext).2)
    exact ih hpolled hpolledIdle (by simpa [Session.moveTo] using hbetween.2)
  | case2 s due hnext hbetween =>
    obtain ⟨⟨task, htask, hdue⟩, hfirst⟩ := nextDue?_some hnext
    have hlater : s.now < due := by
      obtain ⟨due', hdue', hlt⟩ := hidle task htask
      grind
    have hinstant : instant < due := by omega
    refine ⟨moveTo s instant h hidle hnow fun t ht later hlater' => ?_, fun t ht => ?_, rfl⟩
    · have := hfirst t ht later hlater'
      omega
    · obtain ⟨later, hlater', -⟩ := hidle t ht
      exact ⟨later, hlater', Nat.lt_of_lt_of_le hinstant (hfirst t ht later hlater')⟩
  | case3 s hnext =>
    have hnone := nextDue?_none hnext
    have hempty : ∀ t ∈ s.tasks, False := by
      intro t ht
      obtain ⟨due, hdue, -⟩ := hidle t ht
      simp [hnone t ht] at hdue
    exact ⟨moveTo s instant h hidle hnow fun t ht => (hempty t ht).elim,
      fun t ht => (hempty t ht).elim, rfl⟩

theorem advance_keeps {P : Session σ → Prop} (poll : ∀ s, P s → P s.poll ∧ s.poll.Idle)
    (moveTo : ∀ s instant, P s → s.Idle → s.now ≤ instant →
      (∀ task ∈ s.tasks, ∀ due, task.due? = some due → instant ≤ due) → P (s.moveTo instant))
    (h : P s) (ms : Nat) :
    P (s.advance ms) ∧ (s.advance ms).Idle ∧ (s.advance ms).now = s.now + ms := by
  obtain ⟨hpolled, hidle⟩ := poll s h
  exact advanceTo_keeps poll moveTo hpolled hidle (by simp)

theorem Ledger.advance (h : Ledger layers capacity made [] s) (ms : Nat) :
    Ledger layers capacity made [] (s.advance ms) ∧ (s.advance ms).Idle ∧
      (s.advance ms).now = s.now + ms :=
  advance_keeps (P := Ledger layers capacity made []) (fun _ h => h.poll)
    (fun _ _ h hidle => h.moveTo hidle) h ms

/-! ## Calls -/

theorem capacity_receive (s : Session σ) (op : Operation) :
    (s.receive op).2.capacity = s.budget.capacity := by
  unfold receive
  split
  · rfl
  · exact s.budget.capacity_acquire op

theorem available_receive (s : Session σ) (op : Operation) :
    (s.receive op).2.available + (s.receive op).1.holdsPermit.toNat = s.budget.available := by
  unfold receive
  split
  · rfl
  · exact s.budget.available_acquire op

theorem Ledger.call (h : Ledger layers capacity made [] s) (name : String) (op : Operation)
    (request : op.Request) (attempt : Attempt σ op.Response) :
    Ledger layers capacity (made ++ [s.newTask name op request attempt]) []
      (s.call name op request attempt) where
  outer := h.outer
  size := (capacity_receive s op).trans h.size
  held := by
    have hheld := h.held
    have havailable := available_receive s op
    simp only [Session.call, newTask, List.append_nil, List.countP_append] at hheld ⊢
    cases hholds : (s.receive op).1.holdsPermit <;> grind
  ids := by simp [h.ids, Session.call, newTask, List.range_succ]
  tasks := List.forall_mem_append.2 ⟨h.tasks, List.forall_mem_singleton.2 rfl⟩
  due := by simp
  accounted := by
    obtain ⟨answered, hreports, hperm⟩ := h.accounted
    refine ⟨answered, hreports, ?_⟩
    rw [List.append_nil] at hperm
    simp only [Session.call, List.append_nil, List.map_append, List.append_assoc]
    refine .trans (.append_left _ List.perm_append_comm) ?_
    rw [← List.append_assoc]
    exact hperm.append_right _
  answered := h.answered

theorem Ledger.apply (h : Ledger layers capacity made [] s) (step : Step σ) :
    Ledger layers capacity (made ++ s.makes step) [] (s.apply step) := by
  cases step with
  | turn registries =>
    rw [makes, List.append_nil]
    exact { h with }
  | call name op request attempt => exact h.call name op request attempt
  | wait ms =>
    rw [makes, List.append_nil]
    exact (h.advance ms).1

/-- The ledger is kept over any steps. -/
theorem Ledger.after (h : Ledger layers capacity made [] s) (steps : List (Step σ)) :
    Ledger layers capacity (made ++ s.made steps) [] (s.after steps) := by
  induction steps generalizing s made with
  | nil => simpa [Session.made, Session.after] using h
  | cons step steps ih =>
    have hnext := ih (h.apply step)
    rwa [List.append_assoc] at hnext

theorem le_now_after (h : Ledger layers capacity made [] s) (steps : List (Step σ)) :
    s.now ≤ (s.after steps).now := by
  induction steps generalizing s made with
  | nil => exact Nat.le_refl _
  | cons step steps ih =>
    have hstep : s.now ≤ (s.apply step).now := by
      cases step with
      | turn registries => exact Nat.le_refl _
      | call name op request attempt => exact Nat.le_refl _
      | wait ms =>
        have hnow : (s.apply (.wait ms)).now = s.now + ms := (h.advance ms).2.2
        omega
    exact Nat.le_trans hstep (ih (h.apply step))

theorem arrival_made (h : Ledger layers capacity made [] s) (steps : List (Step σ)) :
    ∀ task ∈ s.made steps, task.arrival ≤ (s.after steps).now := by
  induction steps generalizing s made with
  | nil => simp [Session.made]
  | cons step steps ih =>
    refine List.forall_mem_append.2 ⟨fun task htask => ?_, ih (h.apply step)⟩
    have hnow := le_now_after h (step :: steps)
    cases step with
    | call name op request attempt =>
      rw [List.mem_singleton.1 htask]
      exact hnow
    | turn _ | wait _ => simp [makes] at htask

/-! ## What the ledger says -/

theorem Ledger.nodup (h : Ledger layers capacity made pending s) : (made.map Task.id).Nodup := by
  rw [h.ids]
  exact List.nodup_range

/-- Calls under way have different numbers. -/
theorem Ledger.nodup_underWay (h : Ledger layers capacity made pending s) :
    ((s.tasks ++ pending).map Task.id).Nodup := by
  obtain ⟨answered, -, hperm⟩ := h.accounted
  have hnodup := (hperm.map Task.id).nodup_iff.2 h.nodup
  rw [List.map_append, List.map_map] at hnodup
  exact (List.nodup_append.1 hnodup).1

/-- What is under way has not been answered. -/
theorem Ledger.apart (h : Ledger layers capacity made [] s) {task : Task σ} (htask : task ∈ s.tasks)
    {report : Report} (hreport : report ∈ s.reports) : report.id ≠ task.id := by
  obtain ⟨answered, hreports, hperm⟩ := h.accounted
  have hnodup := (hperm.map Task.id).nodup_iff.2 h.nodup
  rw [List.append_nil, List.map_append, List.nodup_append] at hnodup
  rw [hreports] at hreport
  obtain ⟨other, hother, rfl⟩ := List.mem_map.1 hreport
  exact (hnodup.2.2 task.fresh.id (List.mem_map_of_mem (List.mem_map_of_mem htask)) other.1.id
    (List.mem_map_of_mem (List.mem_map_of_mem hother))).symm

/-- A call is under way and not answered yet, or it is answered once, with the report of its whole
run. -/
theorem Ledger.reports_of (h : Ledger layers capacity made [] s) {task : Task σ}
    (hmade : task ∈ made) :
    (∃ polled ∈ s.tasks, polled.fresh = task ∧ s.reports.filter (·.id == task.id) = []) ∨
      ∃ state, s.reports.filter (·.id == task.id) = [task.settled layers state] := by
  obtain ⟨answered, hreports, hperm⟩ := h.accounted
  have hnodup := (hperm.map Task.id).nodup_iff.2 h.nodup
  rw [List.append_nil] at hperm hnodup
  rcases List.mem_append.1 (hperm.mem_iff.2 hmade) with htask | htask
  · obtain ⟨polled, hpolled, rfl⟩ := List.mem_map.1 htask
    refine .inl ⟨polled, hpolled, rfl, List.filter_eq_nil_iff.2 fun report hreport => ?_⟩
    simpa using h.apart hpolled hreport
  · obtain ⟨own, hmem, rfl⟩ := List.mem_map.1 htask
    refine .inr ⟨own.2, ?_⟩
    obtain ⟨before, later, rfl⟩ := List.append_of_mem hmem
    simp only [List.map_append, List.map_cons, List.nodup_append, List.nodup_cons,
      List.mem_cons, forall_eq_or_imp] at hnodup
    obtain ⟨-, ⟨-, ⟨hlater, -⟩, hbefore⟩, -⟩ := hnodup
    have hnone : ∀ others : List (Task σ × σ), (∀ other ∈ others, other.1.id ≠ own.1.id) →
        (others.map fun a => a.1.settled layers a.2).filter (·.id == own.1.id) = [] := by
      intro others hothers
      refine List.filter_eq_nil_iff.2 ?_
      intro report hreport
      obtain ⟨other, hother, rfl⟩ := List.mem_map.1 hreport
      simpa using hothers other hother
    have hbeforeNone := hnone before fun other hother =>
      (hbefore _ (List.mem_map_of_mem (List.mem_map_of_mem hother))).1
    have hlaterNone := hnone later (by
      intro other hother
      have hmem : other.1.id ∈ (later.map Prod.fst).map Task.id :=
        List.mem_map_of_mem (List.mem_map_of_mem hother)
      grind)
    rw [hreports, List.map_append, List.map_cons, List.filter_append,
      List.filter_cons_of_pos (by simp), hbeforeNone, hlaterNone, List.nil_append]

theorem Ledger.of_report (h : Ledger layers capacity made [] s) {report : Report}
    (hreport : report ∈ s.reports) :
    ∃ task ∈ made, ∃ state, report = task.settled layers state := by
  obtain ⟨answered, hreports, hperm⟩ := h.accounted
  rw [hreports] at hreport
  obtain ⟨⟨task, state⟩, hmem, rfl⟩ := List.mem_map.1 hreport
  exact ⟨task, hperm.subset (List.mem_append_right _ (List.mem_map_of_mem hmem)), state, rfl⟩

/-- A call of which only one run is possible is answered once this run is over, and not before. -/
theorem Ledger.reports_of_idle (h : Ledger layers capacity made [] s) (hidle : s.Idle)
    {task : Task σ} (hmade : task ∈ made) (state : σ)
    (hone : ∀ other, task.whole other = task.whole state) :
    s.reports.filter (·.id == task.id) =
      if (task.whole state).finish ≤ s.now then [task.settled layers state] else [] := by
  rcases h.reports_of hmade with ⟨polled, hpolled, rfl, hnone⟩ | ⟨other, hreport⟩
  · have hlt : s.now < (polled.fresh.whole state).finish :=
      Task.lt_finish_of_waiting (h.tasks polled hpolled) (hidle polled hpolled)
        state fun other _ => hone other
    rw [hnone, if_neg (Nat.not_le.2 hlt)]
  · have hmem : task.settled layers other ∈ s.reports :=
      (List.mem_filter.1 (hreport ▸ List.mem_singleton_self _)).1
    have hfinish := h.answered _ hmem
    have hsettled : task.settled layers other = task.settled layers state := by
      unfold Task.settled
      rw [hone other]
    rw [hsettled, Task.instant_settled] at hfinish
    rw [hreport, hsettled, if_pos hfinish]

/-- A call that is shed is answered at once. -/
theorem Ledger.reports_of_rejected (h : Ledger layers capacity made [] s) (hidle : s.Idle)
    {task : Task σ} (hmade : task ∈ made) (harrival : task.arrival ≤ s.now) {inFlight : Nat}
    (hrejected : task.admission = .rejected inFlight) :
    s.reports.filter (·.id == task.id) = [task.settled layers s.state] := by
  have hwhole := Task.whole_of_rejected hrejected
  rw [h.reports_of_idle hidle hmade s.state fun other => by rw [hwhole, hwhole], if_pos]
  rw [hwhole]
  exact harrival

/-- The permits of all calls that were admitted are held or have been given back. -/
theorem Ledger.countP_made (h : Ledger layers capacity made [] s) :
    s.budget.available + made.countP (·.admission.holdsPermit) =
      capacity + s.reports.countP (·.admission.holdsPermit) := by
  obtain ⟨answered, hreports, hperm⟩ := h.accounted
  have hheld := h.held
  rw [List.append_nil] at hheld hperm
  rw [← hperm.countP_eq, List.countP_append, hreports, List.countP_map, List.countP_map,
    List.countP_map, ← hheld]
  simp only [Function.comp_def, Task.admission_settled, Task.admission_fresh]
  omega

/-! ## Reports stay -/

theorem prefix_pollTask (s : Session σ) (task : Task σ) :
    s.reports <+: (s.pollTask task).reports := by
  unfold Session.pollTask
  dsimp only
  split
  · exact List.prefix_append _ _
  · exact List.prefix_rfl

theorem prefix_poll (s : Session σ) : s.reports <+: s.poll.reports := by
  suffices h : ∀ (tasks : List (Task σ)) (s : Session σ),
      s.reports <+: (tasks.foldl Session.pollTask s).reports from h s.tasks { s with tasks := [] }
  intro tasks
  induction tasks with
  | nil => exact fun s => List.prefix_rfl
  | cons task tasks ih => exact fun s => (prefix_pollTask s task).trans (ih _)

theorem Ledger.prefix_advance (h : Ledger layers capacity made [] s) (ms : Nat) :
    s.reports <+: (s.advance ms).reports :=
  (advance_keeps (P := fun t => Ledger layers capacity made [] t ∧ s.reports <+: t.reports)
    (fun t ht => ⟨⟨ht.1.poll.1, ht.2.trans (prefix_poll t)⟩, ht.1.poll.2⟩)
    (fun _ _ ht hidle hnow hdue => ⟨ht.1.moveTo hidle hnow hdue, ht.2⟩)
    ⟨h, List.prefix_rfl⟩ ms).1.2

end Session
end ServiceBroker
