import Mathlib.Data.Nat.Count
import ServiceBroker.Proofs.Session.Isolation

/-!
# Requests that leave no trace

A request that is shed comes to nothing but a warning and a refusal, and one that only reads takes
nothing from the budget. If some of these had never been sent, all other requests would have been
taken on, served and reported as they were.
-/
namespace ServiceBroker

/-- The visits without the requests of some numbers, the first request having a given number. -/
def Visit.without (dropped : Nat → Bool) : Nat → List Visit → List Visit
  | _, [] => []
  | number, .pause ms :: visits => .pause ms :: without dropped number visits
  | number, .send name op request :: visits =>
    if dropped number then without dropped (number + 1) visits
    else .send name op request :: without dropped (number + 1) visits

/-- The number that a request has among those that are left. -/
def rank (dropped : Nat → Bool) (number : Nat) : Nat :=
  Nat.count (fun other => dropped other = false) number

theorem rank_succ (dropped : Nat → Bool) (number : Nat) :
    rank dropped (number + 1) = rank dropped number + if dropped number = false then 1 else 0 :=
  Nat.count_succ _ _

namespace Task

variable {σ : Type}

def renumbered (id : Nat) (task : Task σ) : Task σ := { task with id }

@[simp]
theorem admission_renumbered (id : Nat) (task : Task σ) :
    (task.renumbered id).admission = task.admission := rfl

@[simp]
theorem whole_renumbered (id : Nat) (task : Task σ) (state : σ) :
    (task.renumbered id).whole state = task.whole state := rfl

theorem settled_renumbered (layers : Layers) (id : Nat) (task : Task σ) (state : σ) :
    (task.renumbered id).settled layers state = { task.settled layers state with id } := by
  cases layers with
  | none => rfl
  | full broker => rfl

/-- The calls that are left without some. -/
def left (dropped : Nat → Bool) (made : List (Task σ)) : List (Task σ) :=
  (made.filter fun task => !dropped task.id).map fun task =>
    task.renumbered (rank dropped task.id)

theorem left_append (dropped : Nat → Bool) (made more : List (Task σ)) :
    left dropped (made ++ more) = left dropped made ++ left dropped more := by
  simp [left]

/-- Where calls without a permit are dropped, all permits are left. -/
theorem countP_left {dropped : Nat → Bool} {made : List (Task σ)} {p : Task σ → Bool}
    (hid : ∀ id task, p (renumbered id task) = p task)
    (hdropped : ∀ task ∈ made, dropped task.id = true → p task = false) :
    (left dropped made).countP p = made.countP p := by
  rw [left, List.countP_map, List.countP_filter]
  refine List.countP_congr fun task htask => ?_
  cases hdrop : dropped task.id with
  | true => simp [hid, hdropped task htask hdrop]
  | false => simp [hid]

end Task

namespace Session

variable {σ : Type} {services : Services σ} {broker : String} {capacity : Nat}
  {dropped : Nat → Bool} {made : List (Task σ)} {s t : Session σ}

/-! ## Shed requests -/

theorem Ledger.calls_eq (h : Ledger (.full broker) capacity made [] s) : s.calls = made.length := by
  have hids := congrArg List.length h.ids
  simpa using hids.symm

/-- When all calls wait, permits are held by the calls whose runs are not over. -/
theorem Ledger.available_of_idle (h : Ledger (.full broker) capacity made [] s) (hidle : s.Idle)
    (state : σ) (hone : ∀ task ∈ made, ∀ other, task.whole other = task.whole state) :
    s.budget.available + made.countP (fun task =>
      task.admission.holdsPermit && decide (s.now < (task.whole state).finish)) = capacity := by
  have hheld := h.held
  rw [List.append_nil, countP_tasks h, unsettled, ← List.countP_eq_length_filter] at hheld
  rw [← hheld]
  congr 1
  refine List.countP_congr fun task htask => ?_
  have hreports := h.reports_of_idle hidle htask state (hone task htask)
  have hall : s.reports.all (·.id != task.id) = true ↔ s.reports.filter (·.id == task.id) = [] := by
    simp [List.filter_eq_nil_iff]
  have hopen : s.reports.all (·.id != task.id) = true ↔ s.now < (task.whole state).finish := by
    rw [hall, hreports]
    split
    · simp_all
    · simp_all
  simp [hopen]

/-! ## Two sessions -/

/-- Two sessions that have made the same calls but for some that were dropped in the second one. -/
structure Aligned (broker : String) (capacity : Nat) (dropped : Nat → Bool) (made : List (Task σ))
    (s t : Session σ) : Prop where
  ledger : Ledger (.full broker) capacity made [] s
  ledgerLeft : Ledger (.full broker) capacity (Task.left dropped made) [] t
  now : t.now = s.now
  registries : t.registries = s.registries
  available : t.budget.available = s.budget.available
  calls : t.calls = rank dropped s.calls
  /-- Only one run of each call is possible. -/
  determined : ∀ task ∈ made, ∀ state state', task.whole state = task.whole state'
  /-- What is dropped does not count against the budget. -/
  harmless : ∀ task ∈ made, dropped task.id = true → task.admission.holdsPermit = false

theorem aligned_start (registries : FlowRegistries) (broker : String) (capacity : Nat)
    (dropped : Nat → Bool) (state : σ) :
    Aligned broker capacity dropped [] (start registries (.full broker) capacity state)
      (start registries (.full broker) capacity state) where
  ledger := ledger_start ..
  ledgerLeft := ledger_start ..
  now := rfl
  registries := rfl
  available := rfl
  calls := rfl
  determined := by simp
  harmless := by simp

theorem Aligned.budget (h : Aligned broker capacity dropped made s t) : t.budget = s.budget := by
  have hsize := h.ledger.size.trans h.ledgerLeft.size.symm
  have havailable := h.available
  cases hs : s.budget
  cases ht : t.budget
  simp_all

theorem Aligned.receive (h : Aligned broker capacity dropped made s t) (op : Operation) :
    t.receive op = s.receive op := by
  simp only [Session.receive, h.ledger.outer, h.ledgerLeft.outer, h.budget]

/-- Calls come to the same as time passes, since the permits that are given back are the same. -/
theorem Aligned.advance (h : Aligned broker capacity dropped made s t) (ms : Nat) :
    Aligned broker capacity dropped made (s.advance ms) (t.advance ms) ∧ (s.advance ms).Idle ∧
      (t.advance ms).Idle := by
  obtain ⟨hledger, hidle, hnow⟩ := h.ledger.advance ms
  obtain ⟨hledgerLeft, hidleLeft, hnowLeft⟩ := h.ledgerLeft.advance ms
  have hnow' : (t.advance ms).now = (s.advance ms).now := by rw [hnow, hnowLeft, h.now]
  have hone : ∀ task ∈ made, ∀ other, task.whole other = task.whole s.state :=
    fun task htask other => h.determined task htask other s.state
  have honeLeft : ∀ task ∈ Task.left dropped made, ∀ other,
      task.whole other = task.whole s.state := by
    intro task htask other
    obtain ⟨original, horiginal, rfl⟩ := List.mem_map.1 htask
    exact hone original (List.mem_filter.1 horiginal).1 other
  have hpermits := hledger.available_of_idle hidle s.state hone
  have hpermitsLeft := hledgerLeft.available_of_idle hidleLeft s.state honeLeft
  rw [hnow', Task.countP_left (fun _ _ => rfl) fun task htask hdropped => by
    rw [h.harmless task htask hdropped, Bool.false_and]] at hpermitsLeft
  refine ⟨{ h with
    ledger := hledger, ledgerLeft := hledgerLeft, now := hnow', available := by omega
    registries := ?_, calls := ?_ }, hidle, hidleLeft⟩
  · rw [registries_advance h.ledger, registries_advance h.ledgerLeft, h.registries]
  · rw [hledger.calls_eq, hledgerLeft.calls_eq, ← h.ledger.calls_eq, ← h.ledgerLeft.calls_eq,
      h.calls]

theorem Aligned.keep (h : Aligned broker capacity dropped made s t)
    (hstateless : services.Stateless) (name : String) (op : Operation) (request : op.Request)
    (hkept : dropped s.calls = false) :
    let attempt := services.attempt op request
    Aligned broker capacity dropped (made ++ [s.newTask name op request attempt])
        (s.call name op request attempt) (t.call name op request attempt) ∧
      [t.newTask name op request attempt] =
        Task.left dropped [s.newTask name op request attempt] := by
  intro attempt
  have hid : (s.newTask name op request attempt).id = s.calls := rfl
  have hleft : [t.newTask name op request attempt] =
      Task.left dropped [s.newTask name op request attempt] := by
    simp only [Task.left, List.filter_cons, List.filter_nil, hid, hkept, Bool.not_false, if_true,
      List.map_cons, List.map_nil, ← h.calls]
    simp only [newTask, Task.renumbered, h.receive, h.now, h.registries]
  refine ⟨?_, hleft⟩
  exact {
    ledger := h.ledger.call name op request attempt
    ledgerLeft := by
      rw [Task.left_append, ← hleft]
      exact h.ledgerLeft.call name op request attempt
    now := h.now
    registries := h.registries
    available := by rw [call, call, h.receive]
    calls := by
      have hrank := rank_succ dropped s.calls
      rw [if_pos hkept, ← h.calls] at hrank
      exact hrank.symm
    determined := List.forall_mem_append.2 ⟨h.determined,
      List.forall_mem_singleton.2 (whole_newTask hstateless s name op request)⟩
    harmless := List.forall_mem_append.2 ⟨h.harmless, by simp [hid, hkept]⟩ }

/-- A call that takes nothing from the budget may as well not be made. -/
theorem Aligned.drop (h : Aligned broker capacity dropped made s t)
    (hstateless : services.Stateless) (name : String) (op : Operation) (request : op.Request)
    (hdropped : dropped s.calls = true) :
    let attempt := services.attempt op request
    (op.isReadOnly = true ∨ ∃ n, (s.newTask name op request attempt).admission = .rejected n) →
    Aligned broker capacity dropped (made ++ [s.newTask name op request attempt])
        (s.call name op request attempt) t ∧
      [] = Task.left dropped [s.newTask name op request attempt] := by
  intro attempt hharmless
  have hid : (s.newTask name op request attempt).id = s.calls := rfl
  have hleft : [] = Task.left dropped [s.newTask name op request attempt] := by
    simp [Task.left, hid, hdropped]
  have hnothing : (s.receive op).1.holdsPermit = false ∧ (s.receive op).2 = s.budget := by
    rcases receive_cases h.ledger op with ⟨-, heq⟩ | ⟨hkind, -, available, -, heq⟩ | ⟨-, -, heq⟩
    · rw [heq]
      exact ⟨rfl, rfl⟩
    · rcases hharmless with hreads | ⟨n, hrejected⟩
      · simp [hkind] at hreads
      · simp [newTask, heq] at hrejected
    · rw [heq]
      exact ⟨rfl, rfl⟩
  refine ⟨?_, hleft⟩
  exact {
    ledger := h.ledger.call name op request attempt
    ledgerLeft := by
      rw [Task.left_append, ← hleft, List.append_nil]
      exact h.ledgerLeft
    now := h.now
    registries := h.registries
    available := by rw [call, hnothing.2, h.available]
    calls := by
      have hrank := rank_succ dropped s.calls
      rw [if_neg (by simp [hdropped]), Nat.add_zero, ← h.calls] at hrank
      exact hrank.symm
    determined := List.forall_mem_append.2 ⟨h.determined,
      List.forall_mem_singleton.2 (whole_newTask hstateless s name op request)⟩
    harmless := List.forall_mem_append.2 ⟨h.harmless,
      List.forall_mem_singleton.2 fun _ => hnothing.1⟩ }

theorem Aligned.after (h : Aligned broker capacity dropped made s t)
    (hstateless : services.Stateless) (visits : List Visit)
    (hdropped : ∀ task ∈ s.made (visits.map (Visit.step services)), dropped task.id = true →
      task.op.isReadOnly = true ∨ ∃ n, task.admission = .rejected n) :
    let steps := visits.map (Visit.step services)
    let left := (Visit.without dropped s.calls visits).map (Visit.step services)
    Aligned broker capacity dropped (made ++ s.made steps) (s.after steps) (t.after left) ∧
      t.made left = Task.left dropped (s.made steps) := by
  induction visits generalizing s t made with
  | nil => exact ⟨by simpa [Session.made, Session.after, Visit.without] using h, rfl⟩
  | cons visit visits ih =>
    cases visit with
    | pause ms =>
      have hcalls : (s.advance ms).calls = s.calls := by
        rw [(h.ledger.advance ms).1.calls_eq, h.ledger.calls_eq]
      have hnext := ih (h.advance ms).1 hdropped
      rw [hcalls] at hnext
      exact hnext
    | send name op request =>
      obtain ⟨hfirst, hlater⟩ := List.forall_mem_append.1 hdropped
      cases hdrop : dropped s.calls with
      | false =>
        obtain ⟨hnext, hleft⟩ := h.keep hstateless name op request hdrop
        obtain ⟨hrest, hmade⟩ := ih hnext hlater
        rw [List.append_assoc] at hrest
        simp only [Visit.without, hdrop]
        refine ⟨hrest, ?_⟩
        change [t.newTask name op request _] ++ _ = Task.left dropped ([_] ++ _)
        rw [Task.left_append, ← hleft]
        exact congrArg _ hmade
      | true =>
        obtain ⟨hnext, hleft⟩ := h.drop hstateless name op request hdrop
          (hfirst _ (List.mem_singleton_self _) hdrop)
        obtain ⟨hrest, hmade⟩ := ih hnext hlater
        rw [List.append_assoc] at hrest
        simp only [Visit.without, hdrop, if_true]
        refine ⟨hrest, ?_⟩
        change _ = Task.left dropped ([_] ++ _)
        rw [Task.left_append, ← hleft]
        exact hmade

/-- Where hooks and services depend on the arguments of their calls alone: a request that is shed
comes to nothing but its warning and its refusal, and if some that are shed or only read are not
sent, all others are taken on, served and reported as they were, under the numbers that they then
have. -/
theorem undisturbed (services : Services σ) (hstateless : services.Stateless)
    (registries : FlowRegistries) (broker : String) (capacity : Nat) (state : σ)
    (visits : List Visit) (ms : Nat) :
    let first := start registries (.full broker) capacity state
    let steps := visits.map (Visit.step services)
    let s := (first.after steps).advance ms
    (∀ task ∈ first.made steps, ∀ n, task.admission = .rejected n →
      ∃ report, s.reports.filter (·.id == task.id) = [report] ∧
        report.log.entries = [] ∧ report.log.spans = [] ∧
        (∃ emission, report.log.emissions = [emission] ∧ emission.event.level = .warn ∧
          emission.event = .shed task.op (task.op.instanceId task.request) n) ∧
        report.result = .error (.unavailable
          (toString n ++ " operations in flight, rejected " ++ task.op.name))) ∧
    ∀ dropped : Nat → Bool,
      (∀ task ∈ first.made steps, dropped task.id = true →
        task.op.isReadOnly = true ∨ ∃ n, task.admission = .rejected n) →
      let left := (Visit.without dropped 0 visits).map (Visit.step services)
      let t := (first.after left).advance ms
      first.made left = ((first.made steps).filter fun task => !dropped task.id).map
          (fun task => { task with id := rank dropped task.id }) ∧
        ∀ task ∈ first.made steps, dropped task.id = false →
          t.reports.filter (·.id == rank dropped task.id) =
            (s.reports.filter (·.id == task.id)).map
              fun report => { report with id := rank dropped task.id } := by
  intro first steps s
  have hstart : Ledger (.full broker) capacity [] [] first := ledger_start ..
  constructor
  · intro task hmade n hrejected
    obtain ⟨h, hidle, hnow⟩ := (hstart.after steps).advance ms
    obtain ⟨harrival, -⟩ := visited_made services hstart state visits task hmade
    have hreports := h.reports_of_rejected hidle hmade (by
      rw [hnow]
      exact Nat.le_add_right_of_le harrival) hrejected
    refine ⟨_, hreports, ?_⟩
    rw [Task.settled_of_rejected hrejected]
    exact ⟨rfl, rfl, ⟨_, rfl, rfl, rfl⟩, rfl⟩
  · intro dropped hdropped left t
    obtain ⟨hafter, hmade⟩ := (aligned_start registries broker capacity dropped state).after
      hstateless visits hdropped
    obtain ⟨h, hidle, hidleLeft⟩ := hafter.advance ms
    refine ⟨hmade, fun task htask hkept => ?_⟩
    have hleft : task.renumbered (rank dropped task.id) ∈ Task.left dropped (first.made steps) :=
      List.mem_map_of_mem (List.mem_filter.2 ⟨htask, by simp [hkept]⟩)
    have hone := fun other => h.determined task htask other state
    have hreports := h.ledger.reports_of_idle hidle htask state hone
    have hreportsLeft := h.ledgerLeft.reports_of_idle hidleLeft hleft state hone
    rw [h.now, Task.settled_renumbered] at hreportsLeft
    rw [hreports]
    refine hreportsLeft.trans ?_
    rw [Task.whole_renumbered]
    split <;> rfl

/-- Between two calls that hold the only permit one after the other, a call is shed and another one
only reads. Without these two the last call is the second one. -/
theorem undisturbed_by_two :
    let request := UnbindRequest.ofIds "instance" "binding" "service" "plan"
    let services : Services Unit :=
      ⟨{ provision := fun _ => .unsupported "create_service_instance"
         deprovision := fun _ => .unsupported "delete_service_instance" },
        { bind := fun _ => .unsupported "create_service_instance_binding"
          unbind := fun _ => .fixed 7 (.ok .completed) }⟩
    let visits : List Visit :=
      [.send "one" .unbind request, .pause 2, .send "two" .unbind request,
        .send "look" .fetchBinding (.ofIds "instance" "binding"), .pause 9,
        .send "three" .unbind request]
    let dropped := fun number => number == 1 || number == 2
    let first := start {} (.full "broker") 1 ()
    let s := (first.after (visits.map (Visit.step services))).advance 9
    let t := (first.after ((Visit.without dropped 0 visits).map (Visit.step services))).advance 9
    services.Stateless ∧
      (∀ task ∈ first.made (visits.map (Visit.step services)), dropped task.id = true →
        task.op.isReadOnly = true ∨ ∃ n, task.admission = .rejected n) ∧
      (∃ report, s.reports.filter (·.id == 1) = [report] ∧ report.log.entries = []) ∧
      t.reports.filter (·.id == 1) =
        (s.reports.filter (·.id == 3)).map fun report => { report with id := 1 } := by
  intro request services visits dropped first s t
  have hstateless : services.Stateless := fun op _ _ _ => by cases op <;> rfl
  obtain ⟨hshed, hothers⟩ := undisturbed services hstateless {} "broker" 1 () visits 9
  have hall : (first.made (visits.map (Visit.step services))).all (fun task =>
      !dropped task.id || task.op.isReadOnly || task.admission == .rejected 1) = true := by
    decide +kernel
  have hdropped : ∀ task ∈ first.made (visits.map (Visit.step services)),
      dropped task.id = true → task.op.isReadOnly = true ∨ ∃ n, task.admission = .rejected n := by
    intro task htask hdrop
    have htask := List.all_eq_true.1 hall task htask
    simp only [hdrop, Bool.not_true, Bool.false_or, Bool.or_eq_true, beq_iff_eq] at htask
    exact htask.imp id fun h => ⟨1, h⟩
  obtain ⟨-, hreports⟩ := hothers dropped hdropped
  have hsecond : (1, Admission.rejected 1) ∈
      (first.made (visits.map (Visit.step services))).map
        fun task => (task.id, task.admission) := by
    decide +kernel
  have hlast : 3 ∈ (first.made (visits.map (Visit.step services))).map Task.id := by
    decide +kernel
  obtain ⟨second, hmade, hid⟩ := List.mem_map.1 hsecond
  obtain ⟨hid, hrejected⟩ := Prod.mk.inj hid
  obtain ⟨report, hreport, hentries, -⟩ := hshed second hmade 1 hrejected
  obtain ⟨last, hmade', hid'⟩ := List.mem_map.1 hlast
  have hsame := hreports last hmade' (by rw [hid']; rfl)
  rw [hid] at hreport
  rw [hid'] at hsame
  exact ⟨hstateless, hdropped, ⟨report, hreport, hentries⟩, hsame⟩

end Session
end ServiceBroker
