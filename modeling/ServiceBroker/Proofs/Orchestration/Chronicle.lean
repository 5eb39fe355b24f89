import Mathlib.Data.List.Sort
import ServiceBroker.Proofs.Orchestration.Reference

/-!
# The chronicle of an operation

What an operator reads about an operation: a line for each hook that failed, for each phase that
settled, for the failure that decides, for error hooks that fail on top of it, and at the end for
the answer. The chronicle tells the lines from what hooks and service do, without regard to how the
operation is run, and a run reports exactly these lines.
-/
namespace ServiceBroker

namespace Trace

/-- An event as it is read: the spans around it, how urgent it is, and in what words. -/
structure Line where
  scopes : List Scope
  level : Level
  message : String
  attributes : Attributes

def Event.line (scopes : List Scope) (event : Event) : Line :=
  ⟨scopes, event.level, event.message, event.attributes⟩

def Emission.line (e : Emission) : Line := e.event.line e.scopes

namespace Line

def hookFailed (phase : String) (failing : Nat × Failure) : Line :=
  ⟨[.operation], .debug, "event flow hook failed",
    [("phase", .str phase), ("hook_index", .num (.int failing.1)),
      ("error", .str failing.2.message)]⟩

def phaseSettled (op : Operation) (phase : String) : Line :=
  ⟨[.operation], .debug, "phase settled", [("operation", .str op.name), ("phase", .str phase)]⟩

def runningErrorFlows (op : Operation) (failure : Failure) : Line :=
  ⟨[.operation], .debug, "running error flows",
    [("operation", .str op.name), ("phase", .str "error"), ("error", .str failure.message)]⟩

def doubleFault (op : Operation) (failure hookFailure : Failure) : Line :=
  ⟨[.operation], .warn, "error flow failed while handling operation failure",
    [("operation", .str op.name), ("error", .str failure.message),
      ("hook_error", .str hookFailure.message)]⟩

/-- The answer is reported when the span of the operation has been left. -/
def strayToken (op : Operation) (token : String) : Line :=
  ⟨[], .warn, "synchronous response carries an operation token",
    [("operation", .str op.name), ("token", .str token)]⟩

def accepted (op : Operation) (isAsync : Bool) (token : String) : Line :=
  ⟨[], .debug, "service accepted operation",
    [("operation", .str op.name), ("is_async", .bool isAsync), ("token", .str token)]⟩

end Line
end Trace

/-! ## Failing hooks -/

namespace Hook

variable {α : Type}

/-- All hooks that fail, each with its index and its failure, the lowest index first. -/
structure Failing (hooks : List (Hook α)) (a : α) (failing : List (Nat × Failure)) : Prop where
  increasing : failing.Pairwise fun x y => x.1 < y.1
  mem_iff : ∀ i failure, (i, failure) ∈ failing ↔
    ∃ hook, hooks[i]? = some hook ∧ (hook.react a).failure = some failure

theorem Failing.unique {hooks : List (Hook α)} {a : α} {failing failing' : List (Nat × Failure)}
    (h : Failing hooks a failing) (h' : Failing hooks a failing') : failing = failing' := by
  let before (x y : Nat × Failure) : Prop := x.1 < y.1
  have : Std.Irrefl before := ⟨fun x => Nat.lt_irrefl x.1⟩
  have : Std.Antisymm before := ⟨fun _ _ hxy hyx => absurd hxy (Nat.lt_asymm hyx)⟩
  refine List.Pairwise.eq_of_mem_iff (r := before) h.increasing h'.increasing fun x => ?_
  rw [h.mem_iff, h'.mem_iff]

theorem failing_failures (hooks : List (Hook α)) (a : α) :
    Failing hooks a (failures hooks a) where
  increasing := by
    have hindices : hooks.zipIdx.Pairwise fun x y => x.2 < y.2 := by
      rw [← List.pairwise_map (R := (· < ·)), List.zipIdx_map_snd]
      exact List.pairwise_lt_range' 1
    refine hindices.filterMap _ fun x y hxy => ?_
    simp only [Option.map_eq_some_iff]
    rintro _ ⟨_, -, rfl⟩ _ ⟨_, -, rfl⟩
    exact hxy
  mem_iff i failure := by
    simp only [failures, List.mem_filterMap, Prod.exists, Option.map_eq_some_iff, Prod.mk.injEq]
    constructor
    · rintro ⟨hook, j, hmem, _, hfailure, rfl, rfl⟩
      exact ⟨hook, List.mk_mem_zipIdx_iff_getElem?.1 hmem, hfailure⟩
    · rintro ⟨hook, hget, hfailure⟩
      exact ⟨hook, i, List.mk_mem_zipIdx_iff_getElem?.2 hget, failure, hfailure, rfl, rfl⟩

/-- The failure that surfaces is that of the failing hook with the lowest index. -/
theorem firstFailure?_eq_head? (hooks : List (Hook α)) (a : α) :
    firstFailure? hooks a = (failures hooks a).head?.map Prod.snd := by
  have hfst : hooks = hooks.zipIdx.map Prod.fst := by simp
  rw [failures, List.head?_filterMap, List.map_findSome?, firstFailure?]
  conv_lhs => rw [hfst, List.findSome?_map]
  congr 1
  funext x
  simp [Function.comp_def]

theorem failing_of_firstFailure? {hooks : List (Hook α)} {a : α} {failure : Failure}
    (h : firstFailure? hooks a = some failure) :
    ∃ i others, failures hooks a = (i, failure) :: others ∧
      Failing hooks a ((i, failure) :: others) := by
  rw [firstFailure?_eq_head?] at h
  obtain ⟨⟨i, _⟩, hhead, rfl⟩ := Option.map_eq_some_iff.1 h
  obtain ⟨others, hfailures⟩ := List.head?_eq_some_iff.1 hhead
  exact ⟨i, others, hfailures, hfailures ▸ failing_failures hooks a⟩

theorem failing_of_clean {hooks : List (Hook α)} {a : α} (h : firstFailure? hooks a = none) :
    failures hooks a = [] ∧ Failing hooks a [] := by
  rw [firstFailure?_eq_head?, Option.map_eq_none_iff, List.head?_eq_none_iff] at h
  exact ⟨h, h ▸ failing_failures hooks a⟩

end Hook

/-! ## The chronicle -/

open Trace

/-- What is reported once a failure decides: the failure itself, before any error hook is started,
and then what the error hooks fail with. -/
inductive Recovery {Req : Type} (op : Operation) (hooks : List (Hook (Req × Failure)))
    (request : Req) (failure : Failure) : List Line → Prop where
  | smooth (recover : Hook.Failing hooks (request, failure) []) :
      Recovery op hooks request failure [.runningErrorFlows op failure]
  | doubled {i : Nat} {hookFailure : Failure} {others : List (Nat × Failure)}
      (recover : Hook.Failing hooks (request, failure) ((i, hookFailure) :: others)) :
      Recovery op hooks request failure
        (.runningErrorFlows op failure ::
          (((i, hookFailure) :: others).map (.hookFailed "error") ++
            [.doubleFault op failure hookFailure]))

/-- What is reported of a response. A token that comes with an answer at once is warned of. -/
inductive Acknowledged (op : Operation) (response : op.Response) : List Line → Prop where
  | silent (kind : op.isReadOnly = true) : Acknowledged op response []
  | stray {a : Operation.Acknowledgement} {token : String}
      (acknowledge : op.acknowledgement? response = some a) (sync : a.isAsync = false)
      (carried : a.token = some token) : Acknowledged op response [.strayToken op token]
  | accepted {a : Operation.Acknowledgement}
      (acknowledge : op.acknowledgement? response = some a)
      (fits : a.isAsync = true ∨ a.token = none) :
      Acknowledged op response [.accepted op a.isAsync (a.token.getD "")]

/-- The lines that are reported of a request and the answer to it, where the service call has some
outcome. -/
inductive Chronicle {op : Operation} (registry : Orchestrator.Registry op) (request : op.Request)
    (outcome : Except Failure op.Response) : List Line → Except Failure op.Response → Prop where
  | unprepared {i : Nat} {failure : Failure} {others : List (Nat × Failure)} {recovery : List Line}
      (prepare : Hook.Failing registry.initialization request ((i, failure) :: others))
      (recover : Recovery op registry.error request failure recovery) :
      Chronicle registry request outcome
        (((i, failure) :: others).map (.hookFailed "initialization") ++ recovery) (.error failure)
  | unserved {failure : Failure} {recovery : List Line}
      (prepare : Hook.Failing registry.initialization request [])
      (serve : outcome = .error failure)
      (recover : Recovery op registry.error request failure recovery) :
      Chronicle registry request outcome
        (.phaseSettled op "initialization" :: recovery) (.error failure)
  | uncompleted {response : op.Response} {i : Nat} {failure : Failure}
      {others : List (Nat × Failure)} {recovery : List Line}
      (prepare : Hook.Failing registry.initialization request [])
      (serve : outcome = .ok response)
      (complete : Hook.Failing registry.completion (request, response) ((i, failure) :: others))
      (recover : Recovery op registry.error request failure recovery) :
      Chronicle registry request outcome
        (.phaseSettled op "initialization" ::
          (((i, failure) :: others).map (.hookFailed "completion") ++ recovery)) (.error failure)
  | answered {response : op.Response} {acknowledgement : List Line}
      (prepare : Hook.Failing registry.initialization request [])
      (serve : outcome = .ok response)
      (complete : Hook.Failing registry.completion (request, response) [])
      (acknowledge : Acknowledged op response acknowledgement) :
      Chronicle registry request outcome
        (.phaseSettled op "initialization" :: .phaseSettled op "completion" :: acknowledgement)
        (.ok response)

theorem Recovery.unique {Req : Type} {op : Operation} {hooks : List (Hook (Req × Failure))}
    {request : Req} {failure : Failure} {lines lines' : List Line}
    (h : Recovery op hooks request failure lines) (h' : Recovery op hooks request failure lines') :
    lines = lines' := by
  cases h <;> cases h'
  all_goals grind [Hook.Failing.unique]

/-- The five operations that change state are acknowledged. -/
theorem Operation.acknowledgement?_isSome (op : Operation) (response : op.Response) :
    (op.acknowledgement? response).isSome = !op.isReadOnly := by
  cases op <;> rfl

theorem Operation.violatesContract_eq {op : Operation} {response : op.Response}
    {a : Operation.Acknowledgement} (h : op.acknowledgement? response = some a) :
    a.violatesContract = (!a.isAsync && a.token.isSome) := by
  cases op
  all_goals cases h
  all_goals rfl

theorem Acknowledged.unique {op : Operation} {response : op.Response} {lines lines' : List Line}
    (h : Acknowledged op response lines) (h' : Acknowledged op response lines') :
    lines = lines' := by
  have hsome := op.acknowledgement?_isSome response
  cases h <;> cases h'
  all_goals grind

/-- What hooks and service do decides what is reported and what is answered. -/
theorem Chronicle.unique {op : Operation} {registry : Orchestrator.Registry op}
    {request : op.Request} {outcome result result' : Except Failure op.Response}
    {lines lines' : List Line} (h : Chronicle registry request outcome lines result)
    (h' : Chronicle registry request outcome lines' result') :
    lines = lines' ∧ result = result' := by
  cases h <;> cases h'
  all_goals grind [Hook.Failing.unique, Recovery.unique, Acknowledged.unique]

/-! ## What a run reports -/

namespace Progress

variable {Req Res : Type}

def lines (p : Progress Req Res) : List Line := p.emissions.map Emission.line

theorem lines_emit (p : Progress Req Res) (scopes : List Scope) (events : List Event) :
    (p.emit scopes events).lines = p.lines ++ events.map (·.line scopes) := by
  simp only [lines, emit, List.map_append, List.map_map]
  rfl

theorem lines_through {α : Type} (p : Progress Req Res) (phase : FlowPhase) (call : Call Req Res)
    (hooks : List (Hook α)) (a : α) :
    (p.through phase (.ofHooks call hooks a p.instant)).lines =
      p.lines ++ (Hook.failures hooks a).map (.hookFailed phase.word) := by
  rw [through, lines_emit]
  simp only [PhaseRun.events, PhaseRun.ofHooks, List.map_map]
  rfl

@[simp]
theorem lines_served (p : Progress Req Res) (entry : Entry Req Res) (instant : Nat) :
    (p.served entry instant).lines = p.lines := rfl

end Progress

def Run.lines {Req Res : Type} (run : Run Req Res) : List Line := run.emissions.map Emission.line

namespace Orchestrator

variable {op : Operation} (registry : Registry op) (request : op.Request)

/-- A failure is announced, then every error hook that fails is told of, and at the end the failure
that surfaces from them. -/
theorem lines_recover (p : Progress op.Request op.Response) (failure : Failure) :
    (recover op registry request p failure).lines = p.lines ++
      (.runningErrorFlows op failure ::
        ((Hook.failures registry.error (request, failure)).map (.hookFailed "error") ++
          (Hook.firstFailure? registry.error (request, failure)).toList.map
            (.doubleFault op failure))) := by
  let announced := p.emit [.operation] [.runningErrorFlows op failure]
  let recovered := announced.through .error (registry.runError request failure p.instant)
  have hannounced : announced.lines = p.lines ++ [.runningErrorFlows op failure] :=
    p.lines_emit [.operation] [.runningErrorFlows op failure]
  have hrecovered : recovered.lines = announced.lines ++
      (Hook.failures registry.error (request, failure)).map (.hookFailed "error") :=
    announced.lines_through .error (.recover request failure) registry.error (request, failure)
  have hlines : (recover op registry request p failure).lines = recovered.lines ++
      (Hook.firstFailure? registry.error (request, failure)).toList.map
        (.doubleFault op failure) := by
    refine (recovered.lines_emit [.operation] _).trans (congrArg (recovered.lines ++ ·) ?_)
    have hfailure : ∀ start, (registry.runError request failure start).failure =
        Hook.firstFailure? registry.error (request, failure) := fun _ => rfl
    rw [hfailure]
    cases Hook.firstFailure? registry.error (request, failure) <;> rfl
  simp [hlines, hrecovered, hannounced]

theorem recovery_recover (p : Progress op.Request op.Response) (failure : Failure) :
    ∃ lines, Recovery op registry.error request failure lines ∧
      (recover op registry request p failure).lines = p.lines ++ lines := by
  rw [lines_recover]
  cases hrecover : Hook.firstFailure? registry.error (request, failure) with
  | none =>
    obtain ⟨hfailures, hfailing⟩ := Hook.failing_of_clean hrecover
    exact ⟨_, .smooth hfailing, by simp [hfailures]⟩
  | some hookFailure =>
    obtain ⟨i, others, hfailures, hfailing⟩ := Hook.failing_of_firstFailure? hrecover
    exact ⟨_, .doubled hfailing, by simp [hfailures]⟩

theorem acknowledged_contractEvents (response : op.Response) :
    Acknowledged op response ((contractEvents op response).map (·.line [])) := by
  have hsome := op.acknowledgement?_isSome response
  unfold contractEvents
  cases hack : op.acknowledgement? response with
  | none => exact .silent (by simpa [hack] using hsome)
  | some a =>
    have hviolates := Operation.violatesContract_eq hack
    by_cases h : a.violatesContract
    · obtain ⟨hsync, htoken⟩ := Bool.and_eq_true_iff.1 (hviolates.symm.trans h)
      obtain ⟨token, hcarried⟩ := Option.isSome_iff_exists.1 htoken
      simp only [h, if_true, hcarried]
      exact .stray hack (by simpa using hsync) hcarried
    · simp only [h]
      exact .accepted hack (by grind [Option.isSome_iff_ne_none])

theorem lines_afterInitialization (start : Nat) :
    (afterInitialization registry request start).lines =
      (Hook.failures registry.initialization request).map (.hookFailed "initialization") :=
  (Progress.begin start).lines_through .initialization (.prepare request) registry.initialization
    request

theorem lines_afterService {start delay : Nat} {outcome : Except Failure op.Response}
    (prepare : Hook.firstFailure? registry.initialization request = none) :
    (afterService registry request start delay outcome).lines =
      [.phaseSettled op "initialization"] := by
  have hlines := (afterInitialization registry request start).lines_emit [.operation]
    [.phaseSettled op .initialization]
  rw [lines_afterInitialization, (Hook.failing_of_clean prepare).1] at hlines
  exact hlines

theorem lines_afterCompletion {start delay : Nat} {response : op.Response}
    (prepare : Hook.firstFailure? registry.initialization request = none) :
    (afterCompletion registry request start delay response).lines =
      .phaseSettled op "initialization" ::
        (Hook.failures registry.completion (request, response)).map (.hookFailed "completion") := by
  have hlines := (afterService registry request start delay (.ok response)).lines_through
    .completion (.complete request response) registry.completion (request, response)
  rw [lines_afterService registry request prepare] at hlines
  exact hlines

/-- A run reports the lines of the chronicle, and gives its answer. -/
theorem chronicle_run (delay : Nat) (outcome : Except Failure op.Response) (start : Nat) :
    let run := run op (some registry) request delay outcome start
    Chronicle registry request outcome run.lines run.result := by
  intro run
  have hcourse : Course registry request delay outcome start run := course_run ..
  generalize run = run at hcourse
  cases hcourse with
  | @unprepared failure prepare =>
    obtain ⟨i, others, hfailures, hfailing⟩ := Hook.failing_of_firstFailure? prepare
    obtain ⟨recovery, hrecovery, hlines⟩ := recovery_recover registry request
      (afterInitialization registry request start) failure
    rw [hlines, lines_afterInitialization, hfailures]
    exact .unprepared hfailing hrecovery
  | @unserved failure prepare serve =>
    obtain ⟨recovery, hrecovery, hlines⟩ := recovery_recover registry request
      (afterService registry request start delay outcome) failure
    rw [hlines, lines_afterService registry request prepare]
    exact .unserved (Hook.failing_of_clean prepare).2 serve hrecovery
  | @uncompleted response failure prepare serve complete =>
    obtain ⟨i, others, hfailures, hfailing⟩ := Hook.failing_of_firstFailure? complete
    obtain ⟨recovery, hrecovery, hlines⟩ := recovery_recover registry request
      (afterCompletion registry request start delay response) failure
    rw [hlines, lines_afterCompletion registry request prepare, hfailures]
    exact .uncompleted (Hook.failing_of_clean prepare).2 serve hfailing hrecovery
  | @answered response prepare serve complete =>
    obtain ⟨hfailures, hfailing⟩ := Hook.failing_of_clean complete
    have hsettled := (afterCompletion registry request start delay response).lines_emit
      [.operation] [.phaseSettled op .completion]
    rw [lines_afterCompletion registry request prepare, hfailures] at hsettled
    have hlines := ((afterCompletion registry request start delay response).emit [.operation]
      [.phaseSettled op .completion]).lines_emit [] (contractEvents op response)
    rw [hsettled] at hlines
    change Chronicle registry request outcome (Progress.lines _) _
    rw [hlines]
    exact .answered (Hook.failing_of_clean prepare).2 serve hfailing
      (acknowledged_contractEvents response)

end Orchestrator

/-! ## The order of what is reported -/

/-- A call stands where it belongs among some events: those that were in the log when it was made
had been reported by then, and all others came later. -/
structure Entry.Placed {Req Res : Type} (e : Entry Req Res) (emissions : List Emission) :
    Prop where
  known : e.reported ≤ emissions.length
  earlier : ∀ emission ∈ emissions.take e.reported, emission.instant ≤ e.start
  later : ∀ emission ∈ emissions.drop e.reported, e.start ≤ emission.instant

/-- What was called and reported up to here was called and reported in this order. -/
structure Progress.Ordered {Req Res : Type} (p : Progress Req Res) : Prop where
  order : p.emissions.Pairwise (·.instant ≤ ·.instant)
  past : ∀ e ∈ p.emissions, e.instant ≤ p.instant
  entries : ∀ e ∈ p.entries, e.start ≤ p.instant ∧ e.Placed p.emissions

namespace Entry

variable {Req Res : Type} {e : Entry Req Res} {emissions : List Emission}

theorem Placed.append (h : e.Placed emissions) {more : List Emission}
    (hmore : ∀ emission ∈ more, e.start ≤ emission.instant) : e.Placed (emissions ++ more) where
  known := by
    rw [List.length_append]
    exact Nat.le_add_right_of_le h.known
  earlier := by
    rw [List.take_append_of_le_length h.known]
    exact h.earlier
  later := by
    rw [List.drop_append_of_le_length h.known]
    exact List.forall_mem_append.2 ⟨h.later, hmore⟩

/-- A call that is entered in a log stands behind all that has been reported. -/
theorem placed_behind (hlog : e.reported = 0)
    (hpast : ∀ emission ∈ emissions, emission.instant ≤ e.start) :
    (e.behind emissions.length).Placed emissions := by
  have hreported : (e.behind emissions.length).reported = emissions.length := by
    rw [behind, hlog, Nat.add_zero]
  refine ⟨Nat.le_of_eq hreported, ?_, ?_⟩
  · rw [hreported, List.take_length]
    exact hpast
  · rw [hreported, List.drop_length]
    exact List.forall_mem_nil _

end Entry

namespace Progress

variable {Req Res : Type} {p : Progress Req Res}

theorem Ordered.emit (h : p.Ordered) (scopes : List Scope) (events : List Event) :
    (p.emit scopes events).Ordered := by
  have hnow : ∀ e ∈ events.map fun event => (⟨p.instant, scopes, event⟩ : Emission),
      e.instant = p.instant := by simp
  refine ⟨List.pairwise_append.2 ⟨h.order, ?_, fun e he e' he' => ?_⟩, fun e he => ?_,
    fun e he => ?_⟩
  · exact List.pairwise_map.2 (List.pairwise_of_forall fun _ _ => Nat.le_refl _)
  · rw [hnow e' he']
    exact h.past e he
  · rcases List.mem_append.1 he with he | he
    · exact h.past e he
    · exact Nat.le_of_eq (hnow e he)
  · obtain ⟨hstart, hplaced⟩ := h.entries e he
    refine ⟨hstart, hplaced.append fun emission hemission => ?_⟩
    rw [hnow emission hemission]
    exact hstart

/-- Calls that are made now may be entered in the log. -/
theorem Ordered.enter (h : p.Ordered) {entries : List (Entry Req Res)}
    (hentries : ∀ e ∈ entries, e.start = p.instant ∧ e.reported = 0) {instant : Nat}
    (hp : p.instant ≤ instant) : (p.enter entries instant).Ordered := by
  refine ⟨h.order, fun e he => Nat.le_trans (h.past e he) hp, fun e he => ?_⟩
  rcases List.mem_append.1 he with he | he
  · obtain ⟨hstart, hplaced⟩ := h.entries e he
    exact ⟨Nat.le_trans hstart hp, hplaced⟩
  · obtain ⟨entry, hentry, rfl⟩ := List.mem_map.1 he
    obtain ⟨hstart, hlog⟩ := hentries entry hentry
    exact ⟨Nat.le_trans (Nat.le_of_eq hstart) hp, Entry.placed_behind hlog (hstart ▸ h.past)⟩

theorem Ordered.through {α : Type} (h : p.Ordered) (phase : FlowPhase) (call : Call Req Res)
    (hooks : List (Hook α)) (a : α) :
    (p.through phase (.ofHooks call hooks a p.instant)).Ordered := by
  refine (h.enter (fun e he => ?_) (Hook.le_finish hooks a p.instant)).emit _ _
  obtain ⟨hook, -, rfl⟩ := List.mem_map.1 he
  exact ⟨rfl, rfl⟩

end Progress

namespace Orchestrator

variable {op : Operation} (registry : Registry op) (request : op.Request)

end Orchestrator
end ServiceBroker
