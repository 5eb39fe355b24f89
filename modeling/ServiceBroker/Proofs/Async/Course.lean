import ServiceBroker.Async.Operation

/-!
# The course of an operation

An operation is driven by calls in any order. The first one that settles it is the last one that is
heard: what comes later is rejected and changes nothing. So the calls that are heard say all about
the operation: how it was settled, and which description it has.
-/
namespace ServiceBroker
namespace AsyncOperation

namespace Event

/-- The state in which a call settles an operation. -/
def settles? : Event → Option OperationState
  | .progress _ => none
  | .succeed _ => some .succeeded
  | .fail _ => some .failed

/-- The description that comes with a call. -/
def text? : Event → Option String
  | .progress description => some description
  | .succeed description | .fail description => description

/-- The calls up to the first one that settles, which is the last of them. -/
def upToSettling : List Event → List Event
  | [] => []
  | call :: later => if call.settles?.isSome then [call] else call :: upToSettling later

/-- The latest description that comes with some calls. -/
def latestText (calls : List Event) : Option String := calls.reverse.findSome? text?

theorem isTerminal_of_settles {call : Event} {state : OperationState}
    (h : call.settles? = some state) : state.isTerminal = true := by
  cases call <;> cases h <;> rfl

theorem latestText_cons (call : Event) (later : List Event) :
    latestText (call :: later) = (latestText later).or call.text? := by
  simp [latestText, List.findSome?_append]

/-- A call is the first that settles if none before it does. -/
theorem findSome?_settles_eq_succeeded {calls : List Event} :
    calls.findSome? settles? = some .succeeded ↔
      ∃ before description later, calls = before ++ .succeed description :: later ∧
        ∀ call ∈ before, call.settles? = none := by
  rw [List.findSome?_eq_some_iff]
  constructor
  · rintro ⟨before, call, later, rfl, hcall, hbefore⟩
    cases call with
    | succeed description => exact ⟨before, description, later, rfl, hbefore⟩
    | progress description => cases hcall
    | fail description => cases hcall
  · rintro ⟨before, description, later, rfl, hbefore⟩
    exact ⟨before, _, later, rfl, rfl, hbefore⟩

end Event

/-! ## One call -/

theorem drive_eq (o : AsyncOperation) (call : Event) :
    o.drive call =
      if o.state.isTerminal then (.error ⟨o.token, o.state⟩, o)
      else (.ok (), { o with
        state := call.settles?.getD o.state
        description := call.text?.or o.description }) := by
  obtain ⟨token, kind, state, description⟩ := o
  cases call with
  | progress text => cases state <;> rfl
  | succeed text | fail text => cases state <;> cases text <;> rfl

/-- The operation after a call. -/
def next (o : AsyncOperation) (call : Event) : AsyncOperation := (o.drive call).2

theorem drive_of_terminal {o : AsyncOperation} (h : o.state.isTerminal = true) (call : Event) :
    o.drive call = (.error ⟨o.token, o.state⟩, o) := by
  rw [drive_eq, if_pos h]

theorem next_of_terminal {o : AsyncOperation} (h : o.state.isTerminal = true) (call : Event) :
    o.next call = o := by
  rw [next, drive_of_terminal h]

theorem next_of_running {o : AsyncOperation} (h : o.state.isTerminal = false) (call : Event) :
    o.drive call = (.ok (), o.next call) ∧
      o.next call = { o with
        state := call.settles?.getD o.state
        description := call.text?.or o.description } := by
  have hdrive := o.drive_eq call
  rw [h] at hdrive
  rw [next, hdrive]
  exact ⟨rfl, rfl⟩

/-! ## Many calls -/

/-- The operation after some calls. -/
def after (o : AsyncOperation) (calls : List Event) : AsyncOperation := calls.foldl next o

@[simp]
theorem after_nil (o : AsyncOperation) : o.after [] = o := rfl

@[simp]
theorem after_cons (o : AsyncOperation) (call : Event) (later : List Event) :
    o.after (call :: later) = (o.next call).after later := rfl

theorem after_append (o : AsyncOperation) (calls more : List Event) :
    o.after (calls ++ more) = (o.after calls).after more := List.foldl_append

theorem after_of_terminal {o : AsyncOperation} (h : o.state.isTerminal = true)
    (calls : List Event) : o.after calls = o := by
  induction calls with
  | nil => rfl
  | cons call later ih => rw [after_cons, next_of_terminal h, ih]

/-- How the operation is settled after some calls; `none` while it runs. -/
def settledAs (o : AsyncOperation) (calls : List Event) : Option OperationState :=
  if o.state.isTerminal then some o.state else calls.findSome? Event.settles?

/-- The calls that are not rejected. -/
def heard (o : AsyncOperation) (calls : List Event) : List Event :=
  if o.state.isTerminal then [] else Event.upToSettling calls

/-- What the calls that are heard make of the operation. -/
def outcome (o : AsyncOperation) (calls : List Event) : AsyncOperation where
  token := o.token
  kind := o.kind
  state := (o.settledAs calls).getD o.state
  description := (Event.latestText (o.heard calls)).or o.description

theorem isTerminal_settledAs {o : AsyncOperation} {calls : List Event} {state : OperationState}
    (h : o.settledAs calls = some state) : state.isTerminal = true := by
  unfold settledAs at h
  split at h
  · next hterminal =>
    cases h
    exact hterminal
  · obtain ⟨call, -, hcall⟩ := List.exists_of_findSome?_eq_some h
    exact Event.isTerminal_of_settles hcall

theorem running_of_settledAs {o : AsyncOperation} {calls : List Event}
    (h : o.settledAs calls = none) : o.state.isTerminal = false := by
  unfold settledAs at h
  split at h
  · cases h
  · next hrunning => exact Bool.not_eq_true _ ▸ hrunning

theorem outcome_of_terminal {o : AsyncOperation} (h : o.state.isTerminal = true)
    (calls : List Event) : o.outcome calls = o := by
  simp [outcome, settledAs, heard, h, Event.latestText]

/-- While the operation runs, a call is heard and the rest goes on from what it leaves. -/
theorem outcome_cons {o : AsyncOperation} (h : o.state.isTerminal = false) (call : Event)
    (later : List Event) : (o.next call).outcome later = o.outcome (call :: later) := by
  rw [(next_of_running h call).2]
  cases hcall : call.settles? with
  | none =>
    simp [outcome, settledAs, heard, Event.upToSettling, h, hcall, Event.latestText_cons,
      Option.or_assoc]
  | some state =>
    have hterminal := Event.isTerminal_of_settles hcall
    simp [outcome, settledAs, heard, Event.upToSettling, h, hcall, hterminal,
      Event.latestText]

theorem after_eq_outcome (o : AsyncOperation) (calls : List Event) :
    o.after calls = o.outcome calls := by
  induction calls generalizing o with
  | nil =>
    have hheard : o.heard [] = [] := by simp [heard, Event.upToSettling]
    have hsettled : (o.settledAs []).getD o.state = o.state := by
      unfold settledAs
      split <;> rfl
    simp only [outcome, hheard, hsettled]
    rfl
  | cons call later ih =>
    cases h : o.state.isTerminal with
    | true => rw [after_of_terminal h, outcome_of_terminal h]
    | false => rw [after_cons, ih, outcome_cons h]

/-- Once the operation is settled, calls are rejected and leave it as it is; until then they are
heard. -/
theorem drive_after (o : AsyncOperation) (calls : List Event) (call : Event) :
    (o.after calls).drive call =
      match o.settledAs calls with
      | some state => (.error ⟨o.token, state⟩, o.after calls)
      | none => (.ok (), o.after (calls ++ [call])) := by
  have hafter := after_eq_outcome o calls
  cases hsettled : o.settledAs calls with
  | some state =>
    have hstate : (o.after calls).state = state := by rw [hafter, outcome, hsettled]; rfl
    have htoken : (o.after calls).token = o.token := by rw [hafter, outcome]
    rw [drive_of_terminal (hstate ▸ isTerminal_settledAs hsettled), hstate, htoken]
  | none =>
    have hstate : (o.after calls).state = o.state := by rw [hafter, outcome, hsettled]; rfl
    have hrunning : (o.after calls).state.isTerminal = false :=
      hstate ▸ running_of_settledAs hsettled
    rw [after_append]
    exact (next_of_running hrunning call).1

theorem after_append_of_settledAs {o : AsyncOperation} {calls : List Event}
    (h : (o.settledAs calls).isSome) (more : List Event) :
    o.after (calls ++ more) = o.after calls := by
  obtain ⟨state, hsettled⟩ := Option.isSome_iff_exists.1 h
  have hstate : (o.after calls).state = state := by
    rw [after_eq_outcome, outcome, hsettled]
    rfl
  rw [after_append, after_of_terminal (hstate ▸ isTerminal_settledAs hsettled)]

theorem isDelete_iff (o : AsyncOperation) :
    o.isDelete = true ↔ o.kind = .deprovision ∨ o.kind = .unbind := by
  unfold isDelete
  cases o.kind <;> decide

/-- The resource is gone from the call on with which its deletion succeeds. -/
theorem isGone_after (o : AsyncOperation) (calls : List Event) :
    (o.after calls).isGone = true ↔ o.isGone = true ∨
      (o.state = .inProgress ∧ (o.kind = .deprovision ∨ o.kind = .unbind) ∧
        calls.findSome? Event.settles? = some .succeeded) := by
  have hdelete : (o.after calls).isDelete = o.isDelete := by rw [after_eq_outcome]; rfl
  have hstate : (o.after calls).state = (o.settledAs calls).getD o.state := by
    rw [after_eq_outcome]
    rfl
  rw [← isDelete_iff]
  simp only [isGone, hdelete, hstate, settledAs]
  cases o.state with
  | succeeded | failed => simp [OperationState.isTerminal]
  | inProgress =>
    cases calls.findSome? Event.settles? with
    | none => simp [OperationState.isTerminal]
    | some state => simp [OperationState.isTerminal]

/-- An operation that was just started runs and has no description yet, so the calls up to the
first settling one are heard and say everything else. -/
theorem after_start_eq (token : String) (kind : AsyncKind) (calls : List Event) :
    (start token kind).after calls = ⟨token, kind,
      (calls.findSome? Event.settles?).getD .inProgress,
      Event.latestText (Event.upToSettling calls)⟩ := by
  rw [after_eq_outcome]
  simp [outcome, settledAs, heard, start, OperationState.isTerminal]

/-- An operation goes the way its calls up to the first settling one have it: whether it runs
already, or is settled, in which case no call is heard, or was just started, with no description. A
call that is rejected says how the operation was settled and leaves it as it is. -/
theorem course (o : AsyncOperation) (calls : List Event) :
    let now := o.after calls
    now = ⟨o.token, o.kind, (o.settledAs calls).getD o.state,
        (Event.latestText (o.heard calls)).or o.description⟩ ∧
      (∀ call, now.drive call =
        match o.settledAs calls with
        | some state => (.error ⟨o.token, state⟩, now)
        | none => (.ok (), o.after (calls ++ [call]))) ∧
      (∀ more, (o.settledAs calls).isSome → o.after (calls ++ more) = now) ∧
      (now.isGone = true ↔ o.isGone = true ∨
        (o.state = .inProgress ∧ (o.kind = .deprovision ∨ o.kind = .unbind) ∧
          ∃ before description later, calls = before ++ .succeed description :: later ∧
            ∀ call ∈ before, call.settles? = none)) ∧
      ∀ token kind,
        (start token kind).settledAs calls = calls.findSome? Event.settles? ∧
        (start token kind).isGone = false ∧
        (start token kind).after calls = ⟨token, kind,
          (calls.findSome? Event.settles?).getD .inProgress,
          Event.latestText (Event.upToSettling calls)⟩ := by
  refine ⟨after_eq_outcome o calls, drive_after o calls,
    fun more h => after_append_of_settledAs h more, ?_, fun token kind => ?_⟩
  · rw [isGone_after, Event.findSome?_settles_eq_succeeded]
  · refine ⟨rfl, ?_, after_start_eq token kind calls⟩
    cases kind <;> rfl

/-- The call that settles need not say anything, and what is said later is not heard. -/
example : (start "op-1" .unbind).after
    [.progress "half", .succeed none, .fail (some "late")] =
      ⟨"op-1", .unbind, .succeeded, some "half"⟩ := rfl

end AsyncOperation
end ServiceBroker
