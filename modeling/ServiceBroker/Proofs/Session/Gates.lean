import ServiceBroker.Proofs.Admission.Capacity
import ServiceBroker.Proofs.Session.Ledger

/-!
# A session at its gate

What a session does with its budget is the way of a gate: the gate sees a call when the call is
made, and sees it settle when it is answered. A gate with more permits that sees the same admits
whatever the session admits, however long each call takes.
-/
namespace ServiceBroker

namespace Gate

/-- The calls that a gate sees and the way in which each of them is taken on. -/
def takenOn (g : Gate) : List Move → List (Nat × Operation × Admission)
  | [] => []
  | .call id op :: moves => (id, op, g.admission op) :: (g.apply (.call id op)).takenOn moves
  | .settle id :: moves => (g.apply (.settle id)).takenOn moves

/-- The call that a move settles. -/
def Move.settled? : Move → Option Nat
  | .settle id => some id
  | .call _ _ => none

variable {c c' : Nat} {low high : Gate}

theorem after_concat (g : Gate) (moves : List Move) (move : Move) :
    g.after (moves ++ [move]) = (g.after moves).apply move := List.foldl_append

theorem takenOn_append (g : Gate) (moves moves' : List Move) :
    g.takenOn (moves ++ moves') = g.takenOn moves ++ (g.after moves).takenOn moves' := by
  induction moves generalizing g with
  | nil => rfl
  | cons move moves ih =>
    cases move with
    | call id op => exact congrArg _ (ih _)
    | settle id => exact ih _

/-- A call that settles gives back what it was taken on with, and the others stay. -/
theorem settle_of_perm {g : Gate} {id : Nat} {admission : Admission}
    {others : List (Nat × Admission)} (h : g.unsettled.Perm ((id, admission) :: others))
    (hnodup : (g.unsettled.map Prod.fst).Nodup) :
    (g.apply (.settle id)).budget = g.budget.release admission ∧
      (g.apply (.settle id)).unsettled.Perm others := by
  obtain ⟨before, later, hsplit⟩ := List.append_of_mem (h.mem_iff.2 List.mem_cons_self)
  have hbefore : ∀ call ∈ before, (call.1 == id) = false := by
    rw [hsplit, List.map_append, List.map_cons, List.nodup_append] at hnodup
    intro call hcall
    exact beq_false_of_ne (hnodup.2.2 _ (List.mem_map_of_mem hcall) _ List.mem_cons_self)
  have hfind : g.unsettled.find? (·.1 == id) = some (id, admission) := by
    rw [hsplit, List.find?_eq_some_iff_append]
    exact ⟨by simp, before, later, rfl, by simpa using hbefore⟩
  have herase : g.unsettled.eraseP (·.1 == id) = before ++ later := by
    rw [hsplit, List.eraseP_append_right _ (by simpa using hbefore),
      List.eraseP_cons_of_pos (by simp)]
  rw [hsplit] at h
  simp only [Gate.apply, hfind, herase, true_and]
  exact (List.perm_middle.symm.trans h).cons_inv

/-- Of two gates that see the same, the one with more permits admits what the other one admits. -/
theorem Coupled.takenOn (h : Coupled c c' low high) (hc : c ≤ c') (moves : List Move) :
    List.Forall₂ (fun a b => a.1 = b.1 ∧ a.2.1 = b.2.1 ∧
      (a.2.2 = .admitted → b.2.2 = .admitted)) (low.takenOn moves) (high.takenOn moves) := by
  induction moves generalizing low high with
  | nil => exact .nil
  | cons move moves ih =>
    have hrest := ih (h.apply hc move)
    cases move with
    | call id op => exact .cons ⟨rfl, rfl, h.admits hc⟩ hrest
    | settle id => exact hrest

end Gate

/-- A call as a gate keeps it. -/
def Task.ticket {σ : Type} (task : Task σ) : Nat × Admission := (task.id, task.admission)

/-- A call as a gate takes it on. -/
def Task.entered {σ : Type} (task : Task σ) : Nat × Operation × Admission :=
  (task.id, task.op, task.admission)

theorem Task.ticket_eq_of_fresh {σ : Type} {task other : Task σ} (h : task.fresh = other.fresh) :
    task.ticket = other.ticket := by
  change task.fresh.ticket = other.fresh.ticket
  rw [h]

namespace Session

variable {σ : Type} {layers : Layers} {broker : String} {capacity : Nat}
  {made pending : List (Task σ)} {s : Session σ} {moves : List Gate.Move}

/-- The moves of a gate are what a session did: the gate has taken on the calls that were made, in
the way the session did, has seen those settle that are answered, and is left with the budget of the
session and with the calls under way. -/
structure Tracked (capacity : Nat) (made pending : List (Task σ)) (s : Session σ)
    (moves : List Gate.Move) : Prop where
  takenOn : (Gate.ofCapacity capacity).takenOn moves = made.map Task.entered
  settled : moves.filterMap Gate.Move.settled? = s.reports.map Report.id
  budget : ((Gate.ofCapacity capacity).after moves).budget = s.budget
  unsettled : ((Gate.ofCapacity capacity).after moves).unsettled.Perm
    ((s.tasks ++ pending).map Task.ticket)

/-- A gate goes the way of a session. -/
def Gated (capacity : Nat) (made pending : List (Task σ)) (s : Session σ) : Prop :=
  ∃ moves, Tracked capacity made pending s moves

theorem tracked_start (registries : FlowRegistries) (layers : Layers) (capacity : Nat) (state : σ) :
    Tracked capacity [] [] (start registries layers capacity state) [] :=
  ⟨rfl, rfl, rfl, .refl _⟩

/-- A call comes to the gate when it is made. -/
theorem Tracked.call (h : Tracked capacity made [] s moves) (hlayers : s.layers = .full broker)
    (name : String) (op : Operation) (request : op.Request) (attempt : Attempt σ op.Response) :
    Tracked capacity (made ++ [s.newTask name op request attempt]) []
      (s.call name op request attempt) (moves ++ [.call s.calls op]) := by
  have hreceive : s.receive op = s.budget.acquire op := by simp only [receive, hlayers]
  have hadmission : ((Gate.ofCapacity capacity).after moves).admission op = (s.receive op).1 := by
    rw [Gate.admission, h.budget, hreceive]
  constructor
  · rw [Gate.takenOn_append, h.takenOn, List.map_append]
    simp only [Gate.takenOn, hadmission, List.map_cons, List.map_nil, Task.entered, newTask]
  · rw [List.filterMap_append, h.settled]
    simp [Gate.Move.settled?, Session.call]
  · rw [Gate.after_concat]
    change (((Gate.ofCapacity capacity).after moves).budget.acquire op).2 = (s.receive op).2
    rw [h.budget, hreceive]
  · have hunsettled := h.unsettled
    rw [List.append_nil] at hunsettled
    simp only [Gate.after_concat, Gate.apply, hadmission, Session.call, List.append_nil,
      List.map_append, List.map_cons, List.map_nil]
    -- The gate keeps the latest call first, the session keeps it last.
    exact (hunsettled.cons _).trans (List.perm_append_singleton _ _).symm

/-- A call settles at the gate when it is answered; what waits has not settled there. -/
theorem Tracked.pollTask {task : Task σ}
    (h : Tracked capacity made (task :: pending) s moves)
    (hledger : Ledger layers capacity made (task :: pending) s) :
    Gated capacity made pending (s.pollTask task) := by
  have hunsettled := h.unsettled
  rcases s.pollTask_cases (hledger.due task List.mem_cons_self) fun _ => trivial with
    ⟨state, polled, hfresh, -, -, -, heq⟩ | ⟨state, ended, -, -, heq⟩
  · refine ⟨moves, ?_⟩
    rw [heq]
    refine { h with unsettled := ?_ }
    simpa [Task.ticket_eq_of_fresh hfresh] using hunsettled
  · have hticket : ((Gate.ofCapacity capacity).after moves).unsettled.Perm
        (task.ticket :: (s.tasks ++ pending).map Task.ticket) := by
      refine hunsettled.trans ?_
      rw [← List.map_cons]
      exact List.perm_middle.map _
    have hnodup : (((Gate.ofCapacity capacity).after moves).unsettled.map Prod.fst).Nodup := by
      refine (hunsettled.map Prod.fst).nodup_iff.2 ?_
      rw [List.map_map]
      exact hledger.nodup_underWay
    obtain ⟨hreleased, hothers⟩ := Gate.settle_of_perm hticket hnodup
    refine ⟨moves ++ [.settle task.id], ?_⟩
    rw [heq]
    constructor
    · rw [Gate.takenOn_append, h.takenOn]
      exact List.append_nil _
    · rw [List.filterMap_append, h.settled, List.map_append]
      rfl
    · rw [Gate.after_concat, ← h.budget]
      exact hreleased
    · rw [Gate.after_concat]
      exact hothers

theorem Gated.foldl_pollTask {tasks : List (Task σ)} (h : Gated capacity made tasks s)
    (hledger : Ledger layers capacity made tasks s) (hidle : s.Idle) :
    Gated capacity made [] (tasks.foldl Session.pollTask s) := by
  induction tasks generalizing s with
  | nil => exact h
  | cons task tasks ih =>
    obtain ⟨moves, h⟩ := h
    obtain ⟨hnext, hidle⟩ := hledger.pollTask hidle
    exact ih (h.pollTask hledger) hnext hidle

theorem Gated.poll (h : Gated capacity made [] s) (hledger : Ledger layers capacity made [] s) :
    Gated capacity made [] s.poll := by
  obtain ⟨moves, h⟩ := h
  have hunsettled := h.unsettled
  rw [List.append_nil] at hunsettled
  have hunpolled : Gated capacity made s.tasks { s with tasks := [] } :=
    ⟨moves, { h with unsettled := hunsettled }⟩
  exact hunpolled.foldl_pollTask hledger.unpolled (by simp [Idle])

theorem Gated.advance (h : Gated capacity made [] s) (hledger : Ledger layers capacity made [] s)
    (ms : Nat) : Gated capacity made [] (s.advance ms) :=
  (advance_keeps (P := fun s => Ledger layers capacity made [] s ∧ Gated capacity made [] s)
    (fun _ h => ⟨⟨h.1.poll.1, h.2.poll h.1⟩, h.1.poll.2⟩)
    (fun _ _ h hidle hnow hdue => ⟨h.1.moveTo hidle hnow hdue, h.2.imp fun _ h => { h with }⟩)
    ⟨hledger, h⟩ ms).1.2

theorem Gated.apply (h : Gated capacity made [] s)
    (hledger : Ledger (.full broker) capacity made [] s) (step : Step σ) :
    Gated capacity (made ++ s.makes step) [] (s.apply step) := by
  cases step with
  | turn registries =>
    rw [makes, List.append_nil]
    exact h.imp fun _ h => { h with }
  | call name op request attempt =>
    obtain ⟨moves, h⟩ := h
    exact ⟨_, h.call hledger.outer name op request attempt⟩
  | wait ms =>
    rw [makes, List.append_nil]
    exact h.advance hledger ms

theorem Gated.after (h : Gated capacity made [] s)
    (hledger : Ledger (.full broker) capacity made [] s) (steps : List (Step σ)) :
    Gated capacity (made ++ s.made steps) [] (s.after steps) := by
  induction steps generalizing s made with
  | nil => simpa [Session.made, Session.after] using h
  | cons step steps ih =>
    have hnext := ih (h.apply hledger step) (hledger.apply step)
    rwa [List.append_assoc] at hnext

/-- Whatever is done with a session, its budget goes the way of a gate. -/
theorem gated_after (registries : FlowRegistries) (broker : String) (capacity : Nat) (state : σ)
    (steps : List (Step σ)) :
    let first := start registries (.full broker) capacity state
    Gated capacity (first.made steps) [] (first.after steps) :=
  Gated.after ⟨[], tracked_start registries (.full broker) capacity state⟩ (ledger_start ..) steps

/-- A gate with more permits that sees the calls of a session, and sees them settle when the session
answers them, admits all that the session admitted, and then would admit whatever the session would
admit. -/
theorem tracked_of_more_room {capacity' : Nat} (hc : capacity ≤ capacity')
    (registries : FlowRegistries) (broker : String) (state : σ) (steps : List (Step σ)) :
    let first := start registries (.full broker) capacity state
    ∃ moves, Tracked capacity (first.made steps) [] (first.after steps) moves ∧
      List.Forall₂ (fun task call => call.1 = task.id ∧ call.2.1 = task.op ∧
          (task.admission = .admitted → call.2.2 = .admitted))
        (first.made steps) ((Gate.ofCapacity capacity').takenOn moves) ∧
      ∀ op, ((first.after steps).budget.acquire op).1 = .admitted →
        ((Gate.ofCapacity capacity').after moves).admission op = .admitted := by
  intro first
  obtain ⟨moves, h⟩ := gated_after registries broker capacity state steps
  refine ⟨moves, h, ?_, fun op hadmitted => ?_⟩
  · have hcalls := (Gate.coupled_ofCapacity capacity capacity').takenOn hc moves
    rw [h.takenOn, List.forall₂_map_left_iff] at hcalls
    exact hcalls.imp fun _ _ h => ⟨h.1.symm, h.2.1.symm, h.2.2⟩
  · refine (Gate.coupled_after hc moves).admits hc ?_
    rwa [Gate.admission, h.budget]

end Session
end ServiceBroker
