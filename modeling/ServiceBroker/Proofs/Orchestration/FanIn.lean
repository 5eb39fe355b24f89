import Mathlib.Logic.Relation
import ServiceBroker.Proofs.Orchestration.Chronicle

/-!
# Hooks that run side by side

A phase that is under way starts its hooks one after the other and then lets time pass until the
next of them is due. Hooks that are due end in any order. Whichever way a phase goes on, it is over
when no hook is left, and what can be told of it then is what `PhaseRun.ofHooks` tells beforehand.
So the time that each hook takes decides when a phase settles, and nothing else about it.
-/
namespace ServiceBroker

variable {α Req Res : Type}

/-! ## A phase under way -/

/-- A hook that has been started, and how it ended, if it has. -/
structure Launch (α : Type) where
  hook : Hook α
  start : Nat
  ending : Option Ending

/-- A phase under way. -/
structure FanIn (α : Type) where
  instant : Nat
  /-- The hooks that have been started, in the order in which they were. -/
  launches : List (Launch α)
  /-- The hooks that are still to be started. -/
  waiting : List (Hook α)

namespace FanIn

/-- No hook is left, neither to be started nor to end. -/
def Over (s : FanIn α) : Prop := s.waiting = [] ∧ ∀ l ∈ s.launches, l.ending.isSome

/-- What may happen next in a phase whose hooks are given an argument. -/
inductive Step (a : α) : FanIn α → FanIn α → Prop
  | launch {instant : Nat} {launches : List (Launch α)} {hook : Hook α} {waiting : List (Hook α)} :
    Step a ⟨instant, launches, hook :: waiting⟩
      ⟨instant, launches ++ [⟨hook, instant, none⟩], waiting⟩
  /-- A hook ends at the instant at which it is due, whatever the others do. -/
  | settle {instant start : Nat} {before after : List (Launch α)} {hook : Hook α}
      {waiting : List (Hook α)} (due : start + (hook.react a).delay = instant) :
    Step a ⟨instant, before ++ ⟨hook, start, none⟩ :: after, waiting⟩
      ⟨instant, before ++ ⟨hook, start, some ⟨instant, (hook.react a).failure⟩⟩ :: after, waiting⟩
  /-- Time passes while a hook runs, but not beyond an instant at which one is due. -/
  | pass {instant later : Nat} {launches : List (Launch α)}
      (running : ∃ l ∈ launches, l.ending = none) (passes : instant < later)
      (due : ∀ l ∈ launches, l.ending = none → later ≤ l.start + (l.hook.react a).delay) :
    Step a ⟨instant, launches, []⟩ ⟨later, launches, []⟩

/-- The phase can go on from its start until it is over like this. -/
def Settles (hooks : List (Hook α)) (a : α) (start : Nat) (s : FanIn α) : Prop :=
  Relation.ReflTransGen (Step a) ⟨start, [], hooks⟩ s ∧ s.Over

/-! ## What every step keeps -/

/-- What is true of a phase at any time: its hooks started with it and in their order, those that
have ended did so when they were due and in their own way, and no other one is overdue. -/
structure Sound (hooks : List (Hook α)) (a : α) (start : Nat) (s : FanIn α) : Prop where
  hooks_eq : s.launches.map (·.hook) ++ s.waiting = hooks
  start_eq : ∀ l ∈ s.launches, l.start = start
  punctual : s.waiting ≠ [] → s.instant = start
  running : ∀ l ∈ s.launches, l.ending = none → s.instant ≤ start + (l.hook.react a).delay
  ended : ∀ l ∈ s.launches, ∀ ending, l.ending = some ending →
    ending = ⟨start + (l.hook.react a).delay, (l.hook.react a).failure⟩ ∧
      ending.instant ≤ s.instant
  start_le : start ≤ s.instant
  le_finish : s.instant ≤ Hook.finish hooks a start

variable {hooks : List (Hook α)} {a : α} {start : Nat} {s t : FanIn α}

theorem sound_start : Sound hooks a start ⟨start, [], hooks⟩ where
  hooks_eq := rfl
  start_eq := nofun
  punctual _ := rfl
  running := nofun
  ended := nofun
  start_le := Nat.le_refl _
  le_finish := Hook.le_finish hooks a start

theorem Sound.mem_hooks (h : Sound hooks a start s) {l : Launch α} (hl : l ∈ s.launches) :
    l.hook ∈ hooks := by
  rw [← h.hooks_eq]
  exact List.mem_append_left _ (List.mem_map_of_mem hl)

theorem Sound.step (h : Sound hooks a start s) (hstep : Step a s t) : Sound hooks a start t := by
  cases hstep with
  | @launch instant launches hook waiting =>
    have hnow : instant = start := h.punctual (by simp)
    refine ⟨by simpa using h.hooks_eq, ?_, fun _ => hnow, ?_, ?_, h.start_le, h.le_finish⟩
    · intro l hl
      rcases List.mem_append.1 hl with hl | hl
      · exact h.start_eq l hl
      · obtain rfl := List.mem_singleton.1 hl
        exact hnow
    · intro l hl hrunning
      rcases List.mem_append.1 hl with hl | hl
      · exact h.running l hl hrunning
      · exact hnow ▸ Nat.le_add_right _ _
    · intro l hl ending hending
      rcases List.mem_append.1 hl with hl | hl
      · exact h.ended l hl ending hending
      · obtain rfl := List.mem_singleton.1 hl
        exact nomatch hending
  | @settle instant began before after hook waiting due =>
    have hold : ∀ l ∈ before ++ after, l ∈ before ++ ⟨hook, began, none⟩ :: after := by grind
    have hcases : ∀ l ∈ before ++ ⟨hook, began, some ⟨instant, (hook.react a).failure⟩⟩ :: after,
        l ∈ before ++ after ∨ l = ⟨hook, began, some ⟨instant, (hook.react a).failure⟩⟩ := by grind
    have hbegan : began = start := h.start_eq ⟨hook, began, none⟩ (by simp)
    refine ⟨by simpa using h.hooks_eq, ?_, h.punctual, ?_, ?_, h.start_le, h.le_finish⟩
    · intro l hl
      rcases hcases l hl with hl | rfl
      · exact h.start_eq l (hold l hl)
      · exact hbegan
    · intro l hl hrunning
      rcases hcases l hl with hl | rfl
      · exact h.running l (hold l hl) hrunning
      · exact nomatch hrunning
    · intro l hl ending hending
      rcases hcases l hl with hl | rfl
      · exact h.ended l (hold l hl) ending hending
      · cases hending
        exact ⟨by rw [← due, hbegan], Nat.le_refl _⟩
  | @pass instant later launches running passes due =>
    have hdue : ∀ l ∈ launches, l.ending = none → later ≤ start + (l.hook.react a).delay := by
      intro l hl hrunning
      have hl' := due l hl hrunning
      rwa [h.start_eq l hl] at hl'
    have hpasses : instant ≤ later := Nat.le_of_lt passes
    refine ⟨h.hooks_eq, h.start_eq, nofun, hdue, ?_, Nat.le_trans h.start_le hpasses, ?_⟩
    · intro l hl ending hending
      obtain ⟨heq, hle⟩ := h.ended l hl ending hending
      exact ⟨heq, Nat.le_trans hle hpasses⟩
    · -- Some hook still runs, and no hook takes longer than the phase.
      obtain ⟨l, hl, hrunning⟩ := running
      exact Nat.le_trans (hdue l hl hrunning) (Hook.delay_le_finish (h.mem_hooks hl) a start)

theorem Sound.steps (h : Sound hooks a start s) (hsteps : Relation.ReflTransGen (Step a) s t) :
    Sound hooks a start t := by
  induction hsteps with
  | refl => exact h
  | tail _ hstep ih => exact ih.step hstep

/-! ## The end of a phase -/

end FanIn

theorem Hook.finish_le {hooks : List (Hook α)} {a : α} {start instant : Nat} (h : start ≤ instant)
    (hhooks : ∀ hook ∈ hooks, start + (hook.react a).delay ≤ instant) :
    finish hooks a start ≤ instant := by
  suffices hfold : ∀ t ≤ instant,
      hooks.foldl (fun t hook => max t (start + (hook.react a).delay)) t ≤ instant from
    hfold start h
  induction hooks with
  | nil => exact fun _ ht => ht
  | cons hook hooks ih =>
    obtain ⟨hhook, hlater⟩ := List.forall_mem_cons.1 hhooks
    exact fun t ht => ih hlater _ (Nat.max_le.2 ⟨ht, hhook⟩)

namespace FanIn

variable {hooks : List (Hook α)} {a : α} {start : Nat} {s t : FanIn α}

/-- Every hook has been started with the phase and has ended when it was due. -/
def settled (hooks : List (Hook α)) (a : α) (start : Nat) : FanIn α where
  instant := Hook.finish hooks a start
  launches := hooks.map fun hook =>
    ⟨hook, start, some ⟨start + (hook.react a).delay, (hook.react a).failure⟩⟩
  waiting := []

theorem Sound.eq_settled (h : Sound hooks a start s) (hover : s.Over) :
    s = settled hooks a start := by
  obtain ⟨instant, launches, waiting⟩ := s
  obtain ⟨rfl, hended⟩ := hover
  have hhooks : launches.map (·.hook) = hooks := by simpa using h.hooks_eq
  have hlaunch : ∀ l ∈ launches, l =
      ⟨l.hook, start, some ⟨start + (l.hook.react a).delay, (l.hook.react a).failure⟩⟩ ∧
        start + (l.hook.react a).delay ≤ instant := by
    intro l hl
    obtain ⟨ending, hending⟩ := Option.isSome_iff_exists.1 (hended l hl)
    obtain ⟨rfl, hle⟩ := h.ended l hl ending hending
    obtain rfl := h.start_eq l hl
    exact ⟨by rw [← hending], hle⟩
  have hlaunches : launches = hooks.map fun hook =>
      ⟨hook, start, some ⟨start + (hook.react a).delay, (hook.react a).failure⟩⟩ := by
    rw [← hhooks, List.map_map]
    exact (List.map_id _).symm.trans (List.map_congr_left fun l hl => (hlaunch l hl).1)
  have hinstant : instant = Hook.finish hooks a start := by
    refine Nat.le_antisymm h.le_finish (Hook.finish_le h.start_le ?_)
    rw [← hhooks]
    intro hook hhook
    obtain ⟨l, hl, rfl⟩ := List.mem_map.1 hhook
    exact (hlaunch l hl).2
  rw [settled, hinstant, ← hlaunches]

/-- A phase that is not over goes on. -/
theorem Sound.progress (h : Sound hooks a start s) (hover : ¬ s.Over) : ∃ t, Step a s t := by
  obtain ⟨instant, launches, waiting⟩ := s
  cases waiting with
  | cons hook waiting => exact ⟨_, .launch⟩
  | nil =>
    have hrunning : ∃ l ∈ launches, l.ending = none := by
      simpa [Over] using hover
    by_cases hdue : ∃ l ∈ launches, l.ending = none ∧ start + (l.hook.react a).delay = instant
    · obtain ⟨⟨hook, began, ending⟩, hl, rfl, hnow⟩ := hdue
      obtain ⟨before, after, rfl⟩ := List.append_of_mem hl
      have hbegan : began = start := h.start_eq _ hl
      exact ⟨_, .settle (hbegan ▸ hnow)⟩
    · refine ⟨⟨instant + 1, launches, []⟩, .pass hrunning (Nat.lt_succ_self _) ?_⟩
      intro l hl hopen
      have hle : instant ≤ start + (l.hook.react a).delay := h.running l hl hopen
      have hne : start + (l.hook.react a).delay ≠ instant := fun heq => hdue ⟨l, hl, hopen, heq⟩
      rw [h.start_eq l hl]
      omega

/-- How much is left of a phase: hooks to start, hooks to end, and time. -/
def remaining (finish : Nat) (s : FanIn α) : Nat :=
  2 * s.waiting.length + s.launches.countP (·.ending.isNone) + (finish - s.instant)

theorem Step.remaining_lt (hstep : Step a s t) {finish : Nat} (hle : t.instant ≤ finish) :
    t.remaining finish < s.remaining finish := by
  cases hstep with
  | launch => simp [remaining]; omega
  | settle => simp [remaining]
  | @pass instant later launches running passes due =>
    have hle : later ≤ finish := hle
    simp only [remaining]
    omega

theorem Sound.exists_over (h : Sound hooks a start s) :
    ∃ t, Relation.ReflTransGen (Step a) s t ∧ t.Over := by
  induction hn : s.remaining (Hook.finish hooks a start) using Nat.strongRecOn
    generalizing s with
  | ind n ih =>
    by_cases hover : s.Over
    · exact ⟨s, .refl, hover⟩
    · obtain ⟨next, hstep⟩ := h.progress hover
      have hnext := h.step hstep
      obtain ⟨t, hsteps, hover⟩ :=
        ih _ (hn ▸ hstep.remaining_lt hnext.le_finish) hnext rfl
      exact ⟨t, .head hstep hsteps, hover⟩

/-- There is one way for a phase to be over, however it got there, and it gets there. -/
theorem settles_iff : Settles hooks a start s ↔ s = settled hooks a start := by
  constructor
  · rintro ⟨hsteps, hover⟩
    exact (sound_start.steps hsteps).eq_settled hover
  · rintro rfl
    have hsound : Sound hooks a start ⟨start, [], hooks⟩ := sound_start
    obtain ⟨t, hsteps, hover⟩ := hsound.exists_over
    obtain rfl := (hsound.steps hsteps).eq_settled hover
    exact ⟨hsteps, hover⟩

end FanIn

/-! ## What is told of a phase that is over -/

/-- What has been made of the outcomes that were gone through. -/
structure Merged where
  index : Nat
  failures : List (Nat × Failure)
  failure : Option Failure

namespace Merged

/-- Goes on to the next outcome: a failure is noted with its index, and kept if it is the first. -/
def add (m : Merged) : Option Failure → Merged
  | none => { m with index := m.index + 1 }
  | some failure => ⟨m.index + 1, m.failures ++ [(m.index, failure)], m.failure.or (some failure)⟩

def ofOutcomes (outcomes : List (Option Failure)) : Merged := outcomes.foldl add ⟨0, [], none⟩

theorem ofOutcomes_react (hooks : List (Hook α)) (a : α) :
    ofOutcomes (hooks.map fun hook => (hook.react a).failure) =
      ⟨hooks.length, Hook.failures hooks a, Hook.firstFailure? hooks a⟩ := by
  suffices hfold : ∀ m : Merged, (hooks.map fun hook => (hook.react a).failure).foldl add m =
      ⟨m.index + hooks.length,
        m.failures ++ (hooks.zipIdx m.index).filterMap
          (fun p => (p.1.react a).failure.map fun f => (p.2, f)),
        m.failure.or (hooks.findSome? fun hook => (hook.react a).failure)⟩ by
    have h := hfold ⟨0, [], none⟩
    rwa [Nat.zero_add, List.nil_append, Option.none_or] at h
  induction hooks with
  | nil => simp
  | cons hook hooks ih =>
    intro m
    rw [List.map_cons, List.foldl_cons, ih]
    cases hfailure : (hook.react a).failure <;>
      simp [add, hfailure, Nat.add_assoc, Nat.add_comm 1]

end Merged

/-- What is told of a phase once its hooks have ended. -/
def FanIn.toRun (call : Call Req Res) (s : FanIn α) : PhaseRun Req Res :=
  let merged := Merged.ofOutcomes (s.launches.map fun l => l.ending.bind (·.failure))
  { entries := s.launches.map fun l => ⟨call, l.hook.label, l.hook.verbose, l.start, 0, l.ending⟩
    failures := merged.failures
    finish := s.instant
    failure := merged.failure }

theorem FanIn.toRun_settled (call : Call Req Res) (hooks : List (Hook α)) (a : α) (start : Nat) :
    (settled hooks a start).toRun call = .ofHooks call hooks a start := by
  have hmerged := Merged.ofOutcomes_react hooks a
  simp only [toRun, settled, List.map_map, Function.comp_def, Option.bind_some, hmerged]
  rfl

/-! ## The three phases -/

/-- What the hooks of a phase are given. -/
abbrev FlowPhase.Input (Req Res : Type) : FlowPhase → Type
  | .initialization => Req
  | .completion => Req × Res
  | .error => Req × Failure

def Call.ofPhase : (phase : FlowPhase) → phase.Input Req Res → Call Req Res
  | .initialization, request => .prepare request
  | .completion, (request, response) => .complete request response
  | .error, (request, failure) => .recover request failure

namespace Hook

/-- The same hook, but for the time it takes. -/
def lasting (delay : Nat) (hook : Hook α) : Hook α :=
  { hook with react := fun a => { hook.react a with delay } }

/-- The same hooks, but for the time that each takes. -/
def rescheduled (delays : Nat → Nat) (hooks : List (Hook α)) : List (Hook α) :=
  hooks.mapIdx fun i hook => hook.lasting (delays i)

theorem failures_rescheduled (delays : Nat → Nat) (hooks : List (Hook α)) (a : α) :
    failures (rescheduled delays hooks) a = failures hooks a := by
  suffices h : ∀ i, ((hooks.zipIdx i).map fun x => x.1.lasting (delays x.2)).zipIdx i =
      (hooks.zipIdx i).map fun x => (x.1.lasting (delays x.2), x.2) by
    rw [failures, rescheduled, List.mapIdx_eq_zipIdx_map, h 0, List.filterMap_map]
    rfl
  induction hooks with
  | nil => exact fun _ => rfl
  | cons hook hooks ih => intro i; simp [ih]

theorem firstFailure?_rescheduled (delays : Nat → Nat) (hooks : List (Hook α)) (a : α) :
    firstFailure? (rescheduled delays hooks) a = firstFailure? hooks a := by
  rw [firstFailure?_eq_head?, firstFailure?_eq_head?, failures_rescheduled]

/-- A phase takes no time without hooks, and as long as the slowest of them otherwise. -/
theorem finish_cases (hooks : List (Hook α)) (a : α) (start : Nat) :
    hooks = [] ∧ finish hooks a start = start ∨
      ∃ hook ∈ hooks, finish hooks a start = start + (hook.react a).delay ∧
        ∀ other ∈ hooks, (other.react a).delay ≤ (hook.react a).delay := by
  by_cases hnil : hooks = []
  · subst hnil
    exact .inl ⟨rfl, rfl⟩
  · right
    by_contra hnone
    have hearly : ∀ hook ∈ hooks, start + (hook.react a).delay < finish hooks a start := by
      intro hook hhook
      have hle := delay_le_finish hhook a start
      refine Nat.lt_of_le_of_ne hle fun heq => hnone ⟨hook, hhook, heq.symm, ?_⟩
      intro other hother
      have hother' := delay_le_finish hother a start
      omega
    obtain ⟨hook, hhook⟩ := List.exists_mem_of_ne_nil hooks hnil
    have hlt := hearly hook hhook
    -- If all hooks ended earlier, the phase would have.
    have hbefore : finish hooks a start ≤ finish hooks a start - 1 :=
      finish_le (by omega) fun hook hhook => Nat.le_pred_of_lt (hearly hook hhook)
    omega

end Hook

namespace FlowRegistry

/-- The hooks of a phase. -/
def hooks (r : FlowRegistry Req Res) : (phase : FlowPhase) → List (Hook (phase.Input Req Res))
  | .initialization => r.initialization
  | .completion => r.completion
  | .error => r.error

def runPhase (r : FlowRegistry Req Res) :
    (phase : FlowPhase) → phase.Input Req Res → Nat → PhaseRun Req Res
  | .initialization, request, start => r.runInitialization request start
  | .completion, (request, response), start => r.runCompletion request response start
  | .error, (request, failure), start => r.runError request failure start

theorem runPhase_eq (r : FlowRegistry Req Res) (phase : FlowPhase) (input : phase.Input Req Res)
    (start : Nat) :
    r.runPhase phase input start = .ofHooks (.ofPhase phase input) (r.hooks phase) input start := by
  cases phase <;> rfl

def rescheduled (delays : FlowPhase → Nat → Nat) (r : FlowRegistry Req Res) :
    FlowRegistry Req Res where
  initialization := Hook.rescheduled (delays .initialization) r.initialization
  completion := Hook.rescheduled (delays .completion) r.completion
  error := Hook.rescheduled (delays .error) r.error

theorem hooks_rescheduled (delays : FlowPhase → Nat → Nat) (r : FlowRegistry Req Res)
    (phase : FlowPhase) :
    (r.rescheduled delays).hooks phase = Hook.rescheduled (delays phase) (r.hooks phase) := by
  cases phase <;> rfl

theorem failures_runPhase (r : FlowRegistry Req Res) (delays : FlowPhase → Nat → Nat)
    (phase : FlowPhase) (input : phase.Input Req Res) (start : Nat) :
    ((r.rescheduled delays).runPhase phase input start).failures =
        Hook.failures (r.hooks phase) input ∧
      ((r.rescheduled delays).runPhase phase input start).failure =
        Hook.firstFailure? (r.hooks phase) input := by
  rw [runPhase_eq, hooks_rescheduled]
  exact ⟨Hook.failures_rescheduled _ _ _, Hook.firstFailure?_rescheduled _ _ _⟩

/-- A phase surfaces the same failure and reports the same events in the same order, whatever time
its hooks take, and so in whatever order they end. However it goes on from its start until it is
over, this is the run of it: its hooks start at once and in the order of registration, before any of
its events is reported, each of them ends when its own time is up and in its own way, and the phase
settles with the slowest of them. -/
theorem independent_of_schedule (r : FlowRegistry Req Res) (phase : FlowPhase)
    (input : phase.Input Req Res) (start : Nat) :
    (∀ delays delays' : FlowPhase → Nat → Nat,
      let run := (r.rescheduled delays).runPhase phase input start
      let run' := (r.rescheduled delays').runPhase phase input start
      run.failure = run'.failure ∧ run.events phase = run'.events phase) ∧
    (∀ run : PhaseRun Req Res,
      (∃ s, FanIn.Settles (r.hooks phase) input start s ∧ s.toRun (.ofPhase phase input) = run) ↔
        run = r.runPhase phase input start) ∧
    (r.runPhase phase input start).entries = (r.hooks phase).map (fun hook =>
      { call := .ofPhase phase input
        label := hook.label
        verbose := hook.verbose
        start := start
        reported := 0
        ending := some ⟨start + (hook.react input).delay, (hook.react input).failure⟩ }) ∧
    (r.hooks phase = [] ∧ (r.runPhase phase input start).finish = start ∨
      ∃ hook ∈ r.hooks phase,
        (r.runPhase phase input start).finish = start + (hook.react input).delay ∧
          ∀ other ∈ r.hooks phase, (other.react input).delay ≤ (hook.react input).delay) := by
  refine ⟨?_, ?_, ?_, ?_⟩
  · intro delays delays' run run'
    obtain ⟨hfailures, hfailure⟩ := r.failures_runPhase delays phase input start
    obtain ⟨hfailures', hfailure'⟩ := r.failures_runPhase delays' phase input start
    refine ⟨hfailure.trans hfailure'.symm, ?_⟩
    rw [PhaseRun.events, PhaseRun.events, hfailures, hfailures']
  · intro run
    rw [runPhase_eq]
    constructor
    · rintro ⟨s, hsettles, rfl⟩
      rw [FanIn.settles_iff.1 hsettles, FanIn.toRun_settled]
    · rintro rfl
      exact ⟨_, FanIn.settles_iff.2 rfl, FanIn.toRun_settled ..⟩
  · rw [runPhase_eq]
    rfl
  · rw [runPhase_eq]
    exact Hook.finish_cases ..

end FlowRegistry
end ServiceBroker
