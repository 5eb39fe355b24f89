import ServiceBroker.Orchestrator

/-!
# The time of an orchestrated run

A run is answered when everything done for it is over: every call it made has ended by then and
every event has been reported. A run that starts later is the same run, only later.
-/
namespace ServiceBroker

variable {Req Res : Type}

/-! ## Calls that are over -/

/-- The call was made and has ended by an instant. -/
def Entry.OverBy (e : Entry Req Res) (instant : Nat) : Prop :=
  e.start ≤ instant ∧ ∃ ending, e.ending = some ending ∧ ending.instant ≤ instant

theorem Entry.OverBy.mono {e : Entry Req Res} {i j : Nat} (h : e.OverBy i) (hij : i ≤ j) :
    e.OverBy j := by
  obtain ⟨hstart, ending, he, hi⟩ := h
  exact ⟨by omega, ending, he, by omega⟩

theorem Entry.OverBy.seenAt {e : Entry Req Res} {i : Nat} (h : e.OverBy i) : e.seenAt i = e := by
  obtain ⟨-, ending, he, hi⟩ := h
  cases e
  subst he
  simp [Entry.seenAt, hi]

@[simp]
theorem Entry.overBy_behind (e : Entry Req Res) (events instant : Nat) :
    (e.behind events).OverBy instant ↔ e.OverBy instant := Iff.rfl

/-- Everything recorded up to here is over. -/
structure Progress.Over (p : Progress Req Res) : Prop where
  entries : ∀ e ∈ p.entries, e.OverBy p.instant
  emissions : ∀ e ∈ p.emissions, e.instant ≤ p.instant

/-- Everything done for the request is over when it is answered. -/
structure Run.Over (run : Run Req Res) : Prop where
  entries : ∀ e ∈ run.entries, e.OverBy run.finish
  emissions : ∀ e ∈ run.emissions, e.instant ≤ run.finish

namespace Hook

variable {α : Type}

/-- The latest of some instants, each an offset from the start. -/
theorem finish_eq (hooks : List (Hook α)) (a : α) (start : Nat) :
    finish hooks a start = (hooks.map fun hook => (hook.react a).delay).foldl max 0 + start := by
  suffices h : ∀ t, hooks.foldl (fun t hook => max t (start + (hook.react a).delay)) (t + start) =
      (hooks.map fun hook => (hook.react a).delay).foldl max t + start by
    simpa [finish] using h 0
  induction hooks with
  | nil => intro t; rfl
  | cons hook hooks ih =>
    intro t
    have hmax : max (t + start) (start + (hook.react a).delay) =
        max t (hook.react a).delay + start := by omega
    simp only [List.foldl_cons, List.map_cons]
    rw [hmax, ih]

theorem le_finish (hooks : List (Hook α)) (a : α) (start : Nat) :
    start ≤ finish hooks a start := by
  rw [finish_eq]
  omega

theorem le_foldl_max (ns : List Nat) (m : Nat) :
    m ≤ ns.foldl max m ∧ ∀ n ∈ ns, n ≤ ns.foldl max m := by
  induction ns generalizing m with
  | nil => simp
  | cons n ns ih =>
    obtain ⟨hm, hns⟩ := ih (max m n)
    refine ⟨by simp only [List.foldl_cons]; omega, fun k hk => ?_⟩
    rcases List.mem_cons.1 hk with rfl | hk
    · simp only [List.foldl_cons]; omega
    · exact hns k hk

/-- No hook takes longer than its phase. -/
theorem delay_le_finish {hooks : List (Hook α)} {hook : Hook α} (h : hook ∈ hooks) (a : α)
    (start : Nat) : start + (hook.react a).delay ≤ finish hooks a start := by
  rw [finish_eq]
  have := (le_foldl_max (hooks.map fun hook => (hook.react a).delay) 0).2 _
    (List.mem_map_of_mem h)
  omega

end Hook

theorem PhaseRun.overBy_ofHooks {α : Type} (call : Call Req Res) (hooks : List (Hook α)) (a : α)
    (start : Nat) :
    ∀ e ∈ (PhaseRun.ofHooks call hooks a start).entries,
      e.OverBy (PhaseRun.ofHooks call hooks a start).finish := by
  intro e he
  obtain ⟨hook, hhook, rfl⟩ := List.mem_map.1 he
  exact ⟨Hook.le_finish hooks a start, _, rfl, Hook.delay_le_finish hhook a start⟩

namespace Progress

theorem over_begin (start : Nat) : (begin start : Progress Req Res).Over :=
  ⟨by simp [begin], by simp [begin]⟩

theorem Over.emit {p : Progress Req Res} (h : p.Over) (scopes : List Trace.Scope)
    (events : List Trace.Event) : (p.emit scopes events).Over := by
  refine ⟨h.entries, fun e he => ?_⟩
  rcases List.mem_append.1 he with he | he
  · exact h.emissions e he
  · obtain ⟨event, -, rfl⟩ := List.mem_map.1 he
    exact Nat.le_refl _

theorem Over.enter {p : Progress Req Res} (h : p.Over) {entries : List (Entry Req Res)}
    {instant : Nat} (hp : p.instant ≤ instant) (hentries : ∀ e ∈ entries, e.OverBy instant) :
    (p.enter entries instant).Over := by
  refine ⟨fun e he => ?_, fun e he => Nat.le_trans (h.emissions e he) hp⟩
  rcases List.mem_append.1 he with he | he
  · exact (h.entries e he).mono hp
  · obtain ⟨entry, hentry, rfl⟩ := List.mem_map.1 he
    exact hentries entry hentry

theorem Over.through {α : Type} {p : Progress Req Res} (h : p.Over) (phase : FlowPhase)
    (call : Call Req Res) (hooks : List (Hook α)) (a : α) :
    (p.through phase (.ofHooks call hooks a p.instant)).Over :=
  (h.enter (Hook.le_finish hooks a p.instant) (PhaseRun.overBy_ofHooks call hooks a _)).emit _ _

theorem Over.served {p : Progress Req Res} (h : p.Over) (entry : Entry Req Res) {instant : Nat}
    (hp : p.instant ≤ instant) (hentry : entry.OverBy instant) : (p.served entry instant).Over :=
  h.enter hp (by simpa using hentry)

theorem Over.answer {p : Progress Req Res} (h : p.Over) (result : Except Failure Res) :
    (p.answer result).Over :=
  ⟨h.entries, h.emissions⟩

end Progress

namespace Orchestrator

variable {op : Operation}

theorem over_recover {p : Progress op.Request op.Response} (h : p.Over) (registry : Registry op)
    (request : op.Request) (failure : Failure) :
    (recover op registry request p failure).Over ∧
      p.instant ≤ (recover op registry request p failure).finish :=
  ⟨(((h.emit _ _).through .error _ registry.error (request, failure)).emit _ _).answer _,
    Hook.le_finish registry.error (request, failure) p.instant⟩

/-- What has been done before the service is called is over by then. -/
def Opening.Over (start : Nat) : Opening op → Prop
  | .ready p => p.Over ∧ start ≤ p.instant
  | .answered run => run.Over ∧ start ≤ run.finish

theorem over_opening (registry : Option (Registry op)) (request : op.Request) (start : Nat) :
    (opening op registry request start).Over start := by
  cases registry with
  | none => exact ⟨Progress.over_begin start, Nat.le_refl _⟩
  | some registry =>
    have hbegin : (Progress.begin start : Progress op.Request op.Response).Over :=
      Progress.over_begin start
    have hp := hbegin.through .initialization (.prepare request) registry.initialization request
    have hle : start ≤ Hook.finish registry.initialization request start := Hook.le_finish _ _ _
    simp only [opening]
    split
    · next failure _ =>
      obtain ⟨hover, hfinish⟩ := over_recover hp registry request failure
      exact ⟨hover, Nat.le_trans hle hfinish⟩
    · exact ⟨hp.emit _ _, hle⟩

theorem over_closing (registry : Option (Registry op)) (request : op.Request)
    {p : Progress op.Request op.Response} (h : p.Over) {instant : Nat} (hp : p.instant ≤ instant)
    (outcome : Except Failure op.Response) :
    (closing op registry request p instant outcome).Over ∧
      instant ≤ (closing op registry request p instant outcome).finish := by
  have hserved := h.served (serviceEntry op request p.instant
    (some ⟨instant, Failure.ofResult? outcome⟩)) hp ⟨hp, _, rfl, Nat.le_refl _⟩
  rcases registry with _ | registry
  · exact ⟨hserved.answer outcome, Nat.le_refl _⟩
  · rcases outcome with failure | response
    · exact over_recover hserved registry request failure
    · have hcompleted := hserved.through .completion (.complete request response)
        registry.completion (request, response)
      have hle : instant ≤ Hook.finish registry.completion (request, response) instant :=
        Hook.le_finish _ _ _
      simp only [closing]
      split
      · next failure _ =>
        obtain ⟨hover, hfinish⟩ := over_recover hcompleted registry request failure
        exact ⟨hover, Nat.le_trans hle hfinish⟩
      · exact ⟨((hcompleted.emit _ _).emit _ _).answer _, hle⟩

theorem over_run (registry : Option (Registry op)) (request : op.Request) (delay : Nat)
    (outcome : Except Failure op.Response) (start : Nat) :
    (run op registry request delay outcome start).Over ∧
      start ≤ (run op registry request delay outcome start).finish := by
  have h := over_opening registry request start
  unfold run
  split
  · next heq => rwa [heq] at h
  · next p heq =>
    rw [heq] at h
    obtain ⟨hover, hfinish⟩ :=
      over_closing registry request h.1 (Nat.le_add_right p.instant delay) outcome
    exact ⟨hover, by have := h.2; omega⟩

end Orchestrator

/-! ## Runs that start later -/

def Ending.delayed (k : Nat) (ending : Ending) : Ending :=
  { ending with instant := ending.instant + k }

def Entry.delayed (k : Nat) (e : Entry Req Res) : Entry Req Res :=
  { e with start := e.start + k, ending := e.ending.map (·.delayed k) }

def Trace.Emission.delayed (k : Nat) (e : Trace.Emission) : Trace.Emission :=
  { e with instant := e.instant + k }

def PhaseRun.delayed (k : Nat) (p : PhaseRun Req Res) : PhaseRun Req Res :=
  { p with entries := p.entries.map (·.delayed k), finish := p.finish + k }

def Progress.delayed (k : Nat) (p : Progress Req Res) : Progress Req Res :=
  ⟨p.entries.map (·.delayed k), p.emissions.map (·.delayed k), p.instant + k⟩

def Run.delayed (k : Nat) (run : Run Req Res) : Run Req Res :=
  ⟨run.entries.map (·.delayed k), run.emissions.map (·.delayed k), run.finish + k, run.result⟩

theorem Hook.finish_add {α : Type} (hooks : List (Hook α)) (a : α) (start k : Nat) :
    finish hooks a (start + k) = finish hooks a start + k := by
  rw [finish_eq, finish_eq, Nat.add_assoc]

theorem PhaseRun.ofHooks_add {α : Type} (call : Call Req Res) (hooks : List (Hook α)) (a : α)
    (start k : Nat) :
    ofHooks call hooks a (start + k) = (ofHooks call hooks a start).delayed k := by
  simp only [ofHooks, delayed, Hook.finish_add, List.map_map]
  congr 1
  refine List.map_congr_left ?_
  intro hook _
  simp [Entry.ofHook, Entry.delayed, Ending.delayed, Nat.add_right_comm]

@[simp]
theorem PhaseRun.failure_delayed (k : Nat) (p : PhaseRun Req Res) :
    (p.delayed k).failure = p.failure := rfl

namespace Progress

@[simp]
theorem instant_emit (p : Progress Req Res) (scopes : List Trace.Scope)
    (events : List Trace.Event) : (p.emit scopes events).instant = p.instant := rfl

@[simp]
theorem instant_served (p : Progress Req Res) (entry : Entry Req Res) (instant : Nat) :
    (p.served entry instant).instant = instant := rfl

@[simp]
theorem begin_add (start k : Nat) :
    (begin (start + k) : Progress Req Res) = (begin start).delayed k := rfl

@[simp]
theorem instant_delayed (k : Nat) (p : Progress Req Res) :
    (p.delayed k).instant = p.instant + k := rfl

@[simp]
theorem delayed_emit (k : Nat) (p : Progress Req Res) (scopes : List Trace.Scope)
    (events : List Trace.Event) :
    (p.delayed k).emit scopes events = (p.emit scopes events).delayed k := by
  simp [emit, delayed, Trace.Emission.delayed]

theorem delayed_enter (k : Nat) (p : Progress Req Res) (entries : List (Entry Req Res))
    (instant : Nat) :
    (p.delayed k).enter (entries.map (·.delayed k)) (instant + k) =
      (p.enter entries instant).delayed k := by
  simp only [enter, delayed, List.map_append, List.map_map, List.length_map]
  rfl

@[simp]
theorem delayed_through (k : Nat) (p : Progress Req Res) (phase : FlowPhase)
    (run : PhaseRun Req Res) :
    (p.delayed k).through phase (run.delayed k) = (p.through phase run).delayed k := by
  have hevents : (run.delayed k).events phase = run.events phase := rfl
  rw [through, through, hevents, ← delayed_emit, ← delayed_enter]
  rfl

@[simp]
theorem delayed_served (k : Nat) (p : Progress Req Res) (entry : Entry Req Res) (instant : Nat) :
    (p.delayed k).served (entry.delayed k) (instant + k) = (p.served entry instant).delayed k :=
  p.delayed_enter k [entry] instant

@[simp]
theorem delayed_answer (k : Nat) (p : Progress Req Res) (result : Except Failure Res) :
    (p.delayed k).answer result = (p.answer result).delayed k := rfl

end Progress

namespace Orchestrator

variable {op : Operation}

theorem recover_delayed (registry : Registry op) (request : op.Request) (k : Nat)
    (p : Progress op.Request op.Response) (failure : Failure) :
    recover op registry request (p.delayed k) failure =
      (recover op registry request p failure).delayed k := by
  have hrun : registry.runError request failure (p.instant + k) =
      (registry.runError request failure p.instant).delayed k := PhaseRun.ofHooks_add _ _ _ _ _
  simp only [recover, Progress.delayed_emit, Progress.instant_delayed, Progress.instant_emit, hrun,
    Progress.delayed_through, PhaseRun.failure_delayed, Progress.delayed_answer]

def Opening.delayed (k : Nat) : Opening op → Opening op
  | .ready p => .ready (p.delayed k)
  | .answered run => .answered (run.delayed k)

theorem opening_add (registry : Option (Registry op)) (request : op.Request) (start k : Nat) :
    opening op registry request (start + k) = (opening op registry request start).delayed k := by
  cases registry with
  | none => rfl
  | some registry =>
    have hrun : registry.runInitialization request (start + k) =
        (registry.runInitialization request start).delayed k := PhaseRun.ofHooks_add _ _ _ _ _
    simp only [opening, hrun, Progress.begin_add, Progress.delayed_through,
      PhaseRun.failure_delayed]
    split
    · rw [recover_delayed]; rfl
    · rw [Progress.delayed_emit]; rfl

theorem closing_delayed (registry : Option (Registry op)) (request : op.Request) (k : Nat)
    (p : Progress op.Request op.Response) (instant : Nat) (outcome : Except Failure op.Response) :
    closing op registry request (p.delayed k) (instant + k) outcome =
      (closing op registry request p instant outcome).delayed k := by
  have hserved : (p.delayed k).served (serviceEntry op request (p.delayed k).instant
      (some ⟨instant + k, Failure.ofResult? outcome⟩)) (instant + k) =
      (p.served (serviceEntry op request p.instant
        (some ⟨instant, Failure.ofResult? outcome⟩)) instant).delayed k :=
    Progress.delayed_served k p
      (serviceEntry op request p.instant (some ⟨instant, Failure.ofResult? outcome⟩)) instant
  simp only [closing, hserved]
  rcases registry with _ | registry
  · rfl
  · rcases outcome with failure | response
    · exact recover_delayed registry request k _ failure
    · have hrun : registry.runCompletion request response (instant + k) =
          (registry.runCompletion request response instant).delayed k :=
        PhaseRun.ofHooks_add _ _ _ _ _
      simp only [Progress.instant_delayed, Progress.instant_served, hrun, Progress.delayed_through,
        PhaseRun.failure_delayed]
      split
      · exact recover_delayed registry request k _ _
      · simp only [Progress.delayed_emit, Progress.delayed_answer]

/-- A run that starts later is the same run, only later. -/
theorem run_add (registry : Option (Registry op)) (request : op.Request) (delay : Nat)
    (outcome : Except Failure op.Response) (start k : Nat) :
    run op registry request delay outcome (start + k) =
      (run op registry request delay outcome start).delayed k := by
  unfold run
  rw [opening_add]
  cases opening op registry request start with
  | answered run => rfl
  | ready p =>
    simp only [Opening.delayed, Progress.instant_delayed]
    rw [Nat.add_right_comm, closing_delayed]

end Orchestrator
end ServiceBroker
