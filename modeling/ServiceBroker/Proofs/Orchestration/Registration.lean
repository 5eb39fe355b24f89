import ServiceBroker.Proofs.Orchestration.FanIn

/-!
# Registering hooks in any order

Hooks are registered for the three phases in any mixture, some of them absent. What is frozen of
them is, for each phase, the hooks that were present, in the order in which they were registered.
The index of a hook is the number of hooks that were registered for its phase before it, and that is
the index under which the phase starts it and reports its failure.
-/
namespace ServiceBroker

variable {Req Res : Type}

/-- One of the ways to register a hook: it is added, if it is there at all, or chained to others. -/
inductive Registration (Req Res : Type) where
  | add (phase : FlowPhase) (hook : Option (Hook (phase.Input Req Res)))
  | chain (phase : FlowPhase) (hook : Hook (phase.Input Req Res))

namespace Registration

def phase : Registration Req Res → FlowPhase
  | .add phase _ => phase
  | .chain phase _ => phase

def hook? : (r : Registration Req Res) → Option (Hook (r.phase.Input Req Res))
  | .add _ hook => hook
  | .chain _ hook => some hook

/-- The hook that is registered, if it is for this phase. -/
def hookFor? (phase : FlowPhase) (r : Registration Req Res) : Option (Hook (phase.Input Req Res)) :=
  if h : r.phase = phase then h ▸ r.hook? else none

theorem hookFor?_absent (phase own : FlowPhase) :
    hookFor? phase (.add own none : Registration Req Res) = none := by
  cases phase <;> cases own <;> rfl

/-- The hooks that are registered for a phase, in order. -/
def hooksFor (phase : FlowPhase) (rs : List (Registration Req Res)) :
    List (Hook (phase.Input Req Res)) :=
  rs.filterMap (hookFor? phase)

@[simp]
theorem hooksFor_append (phase : FlowPhase) (before after : List (Registration Req Res)) :
    hooksFor phase (before ++ after) = hooksFor phase before ++ hooksFor phase after :=
  List.filterMap_append

theorem hooksFor_cons (phase : FlowPhase) (r : Registration Req Res)
    (rs : List (Registration Req Res)) :
    hooksFor phase (r :: rs) = (r.hookFor? phase).toList ++ hooksFor phase rs := by
  rw [hooksFor, List.filterMap_cons]
  cases r.hookFor? phase <;> rfl

/-- A hook has as its index the number of hooks before it, wherever it stands in the sequence. -/
theorem getElem?_hooksFor_iff {phase : FlowPhase} {rs : List (Registration Req Res)} {i : Nat}
    {hook : Hook (phase.Input Req Res)} :
    (hooksFor phase rs)[i]? = some hook ↔ ∃ before r after, rs = before ++ r :: after ∧
      r.hookFor? phase = some hook ∧ (hooksFor phase before).length = i := by
  constructor
  · intro h
    obtain ⟨hi, hget⟩ := List.getElem?_eq_some_iff.1 h
    have hsplit : hooksFor phase rs =
        (hooksFor phase rs).take i ++ hook :: (hooksFor phase rs).drop (i + 1) := by
      rw [← hget, List.getElem_cons_drop, List.take_append_drop]
    obtain ⟨first, second, rfl, hfirst, hsecond⟩ := List.filterMap_eq_append_iff.1 hsplit
    obtain ⟨skipped, r, after, rfl, hskipped, hr, -⟩ := List.filterMap_eq_cons_iff.1 hsecond
    refine ⟨first ++ skipped, r, after, (List.append_assoc ..).symm, hr, ?_⟩
    have hnone : hooksFor phase skipped = [] := List.filterMap_eq_nil_iff.2 hskipped
    rw [hooksFor_append, hnone, List.append_nil, hooksFor, hfirst, List.length_take]
    omega
  · rintro ⟨before, r, after, rfl, hr, rfl⟩
    rw [hooksFor_append, List.getElem?_append_right (Nat.le_refl _), hooksFor_cons, hr,
      Nat.sub_self]
    rfl

end Registration

/-! ## Plans -/

namespace FlowPlan

/-- The hooks of a phase before they are frozen. -/
def hooks (p : FlowPlan Req Res) : (phase : FlowPhase) → List (Hook (phase.Input Req Res))
  | .initialization => p.initialization
  | .completion => p.completion
  | .error => p.error

def register (p : FlowPlan Req Res) : Registration Req Res → FlowPlan Req Res
  | .add .initialization hook => p.addInitialization hook
  | .add .completion hook => p.addCompletion hook
  | .add .error hook => p.addError hook
  | .chain .initialization hook => p.withInitialization hook
  | .chain .completion hook => p.withCompletion hook
  | .chain .error hook => p.withError hook

def ofRegistrations (rs : List (Registration Req Res)) : FlowPlan Req Res := rs.foldl register empty

theorem register_absent (p : FlowPlan Req Res) (phase : FlowPhase) :
    p.register (.add phase none) = p := by
  cases phase <;> rfl

/-- It makes no difference in which way a hook that is there is registered. -/
theorem register_present (p : FlowPlan Req Res) (phase : FlowPhase)
    (hook : Hook (phase.Input Req Res)) :
    p.register (.add phase (some hook)) = p.register (.chain phase hook) := by
  cases phase <;> rfl

theorem hooks_register_chain (p : FlowPlan Req Res) (own : FlowPhase)
    (hook : Hook (own.Input Req Res)) (phase : FlowPhase) :
    (p.register (.chain own hook)).hooks phase =
      p.hooks phase ++ (Registration.hookFor? phase (.chain own hook)).toList := by
  cases own <;> cases phase <;>
    simp [register, hooks, withInitialization, withCompletion, withError, Registration.hookFor?,
      Registration.phase, Registration.hook?]

/-- A registration puts its hook behind those of its phase, and leaves the other phases alone. -/
theorem hooks_register (p : FlowPlan Req Res) (r : Registration Req Res) (phase : FlowPhase) :
    (p.register r).hooks phase = p.hooks phase ++ (r.hookFor? phase).toList := by
  cases r with
  | chain own hook => exact p.hooks_register_chain own hook phase
  | add own hook =>
    cases hook with
    | some hook =>
      rw [register_present]
      exact p.hooks_register_chain own hook phase
    | none =>
      rw [register_absent, Registration.hookFor?_absent]
      exact (List.append_nil _).symm

theorem hooks_foldl_register (p : FlowPlan Req Res) (rs : List (Registration Req Res))
    (phase : FlowPhase) :
    (rs.foldl register p).hooks phase = p.hooks phase ++ Registration.hooksFor phase rs := by
  induction rs generalizing p with
  | nil => exact (List.append_nil _).symm
  | cons r rs ih =>
    rw [List.foldl_cons, ih, hooks_register, Registration.hooksFor_cons, List.append_assoc]

theorem hooks_ofRegistrations (rs : List (Registration Req Res)) (phase : FlowPhase) :
    (ofRegistrations rs).hooks phase = Registration.hooksFor phase rs := by
  rw [ofRegistrations, hooks_foldl_register]
  cases phase <;> rfl

theorem ofRegistrations_absent (before after : List (Registration Req Res)) (phase : FlowPhase) :
    ofRegistrations (before ++ .add phase none :: after) = ofRegistrations (before ++ after) := by
  rw [ofRegistrations, ofRegistrations, List.foldl_append, List.foldl_append, List.foldl_cons,
    register_absent]

end FlowPlan

/-! ## Frozen hooks -/

namespace FlowRegistry
open Registration

@[simp]
theorem hooks_ofPlan (p : FlowPlan Req Res) (phase : FlowPhase) :
    (ofPlan p).hooks phase = p.hooks phase := by
  cases phase <;> rfl

theorem counts_eq (r : FlowRegistry Req Res) :
    r.counts = ⟨(r.hooks .initialization).length, (r.hooks .completion).length,
      (r.hooks .error).length⟩ := rfl

/-- A frozen registry has, for each phase, the hooks that were registered for it and were present,
in the order of their registration and with the number of those before them as their index. An
absent hook might as well not have been registered. The counts, the order in which a phase starts
its hooks and the indices under which it reports failures are those of these hooks. -/
theorem keeps_registered (rs : List (Registration Req Res)) :
    let registry := ofPlan (.ofRegistrations rs)
    (∀ phase, registry.hooks phase = hooksFor phase rs) ∧
    (∀ phase i hook, (registry.hooks phase)[i]? = some hook ↔
      ∃ before r after, rs = before ++ r :: after ∧ r.hookFor? phase = some hook ∧
        (hooksFor phase before).length = i) ∧
    (∀ before phase after, rs = before ++ .add phase none :: after →
      registry = ofPlan (.ofRegistrations (before ++ after))) ∧
    registry.counts = ⟨(hooksFor .initialization rs).length, (hooksFor .completion rs).length,
      (hooksFor .error rs).length⟩ ∧
    ∀ (phase : FlowPhase) (input : phase.Input Req Res) (start : Nat),
      (∀ s, Relation.ReflTransGen (FanIn.Step input) ⟨start, [], registry.hooks phase⟩ s →
        s.launches.map (·.hook) ++ s.waiting = hooksFor phase rs) ∧
      (registry.runPhase phase input start).entries = (hooksFor phase rs).map
        (Entry.ofHook (.ofPhase phase input) · input start) ∧
      ∃ failing, Hook.Failing (hooksFor phase rs) input failing ∧
        ((registry.runPhase phase input start).events phase).map (Trace.Event.line [.operation]) =
          failing.map (Trace.Line.hookFailed phase.word) ∧
        (registry.runPhase phase input start).failure = failing.head?.map Prod.snd := by
  intro registry
  have hhooks : ∀ phase, registry.hooks phase = hooksFor phase rs := fun phase => by
    rw [hooks_ofPlan, FlowPlan.hooks_ofRegistrations]
  refine ⟨hhooks, ?_, ?_, ?_, ?_⟩
  · intro phase i hook
    rw [hhooks]
    exact getElem?_hooksFor_iff
  · rintro before phase after rfl
    exact congrArg ofPlan (FlowPlan.ofRegistrations_absent before after phase)
  · rw [counts_eq, hhooks, hhooks, hhooks]
  · intro phase input start
    rw [runPhase_eq, hhooks]
    refine ⟨?_, rfl, Hook.failures (hooksFor phase rs) input, Hook.failing_failures .., ?_,
      Hook.firstFailure?_eq_head? ..⟩
    · intro s hsteps
      exact (FanIn.sound_start.steps hsteps).hooks_eq
    · rw [PhaseRun.events, List.map_map]
      rfl

/-- The policy is the second hook of its phase, whatever is registered between it and the quota, and
is started and reported as such. -/
theorem keeps_registered_of_mixture :
    let hook (α : Type) (label : String) (failure : Option Failure) : Hook α :=
      ⟨label, false, fun _ => ⟨3, failure⟩⟩
    let quota := hook Unit "quota" none
    let denied : Failure := .invalidParameters "size"
    let policy := hook Unit "policy" (some denied)
    let rs : List (Registration Unit Unit) :=
      [.add .initialization none, .chain .error (hook _ "undo" none),
        .add .initialization (some quota), .add .completion (some (hook _ "audit" none)),
        .add .initialization none, .chain .initialization policy]
    let registry := ofPlan (.ofRegistrations rs)
    registry.counts = ⟨2, 1, 1⟩ ∧
      registry.hooks .initialization = [quota, policy] ∧
      registry = ofPlan (.ofRegistrations (rs.take 4 ++ rs.drop 5)) ∧
      (let s : FanIn Unit := ⟨7, [⟨quota, 7, none⟩], [policy]⟩;
        FanIn.Step () ⟨7, [], registry.hooks .initialization⟩ s ∧
          s.launches.map (·.hook) ++ s.waiting = hooksFor .initialization rs) ∧
      ((registry.runPhase .initialization () 7).events .initialization).map
        (Trace.Event.line [.operation]) = [.hookFailed "initialization" (1, denied)] ∧
      (registry.runPhase .initialization () 7).failure = some denied := by
  intro hook quota denied policy rs registry
  obtain ⟨hhooks, -, habsent, hcounts, hphases⟩ := keeps_registered rs
  obtain ⟨hlaunched, -, failing, hfailing, hevents, hfailure⟩ := hphases .initialization () 7
  have hdenied : failing = [(1, denied)] :=
    hfailing.unique (Hook.failing_failures [quota, policy] ())
  rw [hdenied] at hevents hfailure
  exact ⟨hcounts, hhooks .initialization, habsent (rs.take 4) .initialization (rs.drop 5) rfl,
    ⟨.launch, hlaunched _ (.single .launch)⟩, hevents, hfailure⟩

end FlowRegistry
end ServiceBroker
