import ServiceBroker.Proofs.Async.Course
import ServiceBroker.Proofs.Messages

/-!
# What polls tell of an operation

A poll tells the state and the description of an operation as they are, and that the resource is
gone exactly if its deletion has succeeded. Polls for an instance and for a binding tell the same,
also once they have been written and read. The kind of an operation shows in nothing else.
-/
namespace ServiceBroker
open Wire Json

/-! ## Polls are read back -/

/-- A plain message is read back if it has no member that is never written. -/
theorem MessageType.read_back {t : MessageType} {x : t.Carrier} (hunset : t.erase x = x)
    (hplain : t.Plain x) (hnesting : t.nesting x ≤ 127) :
    Message.ofText (Message.toText x) = .ok x ∧ Message.ofJson (Message.toJson x) = .ok x := by
  have htext := Message.ofText_toText t.wellFormed_schema t.exact_schema hplain hnesting
  have hjson := Message.ofJson_toJson t.wellFormed_schema t.exact_schema hplain
  rw [hunset] at htext hjson
  exact ⟨htext, hjson⟩

theorem PollInstanceResponse.nesting_eq_one (poll : PollInstanceResponse) :
    (MessageType.response .pollInstance).nesting poll = 1 := by
  obtain ⟨state, _ | description, gone, _ | usable, _ | repeatable⟩ := poll <;> rfl

theorem PollInstanceResponse.read_back (poll : PollInstanceResponse) :
    Message.ofText (Message.toText poll) = .ok poll ∧
      Message.ofJson (Message.toJson poll) = .ok poll := by
  have hplain : (MessageType.response .pollInstance).Plain poll :=
    ⟨trivial, fun _ _ => trivial, trivial, fun _ _ => trivial, fun _ _ => trivial, trivial⟩
  exact MessageType.read_back (t := .response .pollInstance) rfl hplain
    (by rw [poll.nesting_eq_one]; decide)

theorem PollBindingResponse.nesting_eq_one (poll : PollBindingResponse) :
    (MessageType.response .pollBinding).nesting poll = 1 := by
  obtain ⟨state, _ | description, gone⟩ := poll <;> rfl

theorem PollBindingResponse.read_back (poll : PollBindingResponse) :
    Message.ofText (Message.toText poll) = .ok poll ∧
      Message.ofJson (Message.toJson poll) = .ok poll := by
  have hplain : (MessageType.response .pollBinding).Plain poll :=
    ⟨trivial, fun _ _ => trivial, trivial, trivial⟩
  exact MessageType.read_back (t := .response .pollBinding) rfl hplain
    (by rw [poll.nesting_eq_one]; decide)

namespace AsyncOperation

/-! ## Polls of one operation -/

theorem kind_after (o : AsyncOperation) (calls : List Event) : (o.after calls).kind = o.kind := by
  rw [after_eq_outcome]
  rfl

theorem isGone_iff (o : AsyncOperation) :
    o.isGone = true ↔ (o.kind = .deprovision ∨ o.kind = .unbind) ∧ o.state = .succeeded := by
  rw [isGone, Bool.and_eq_true, isDelete_iff, beq_iff_eq]

theorem isGone_toInstancePoll (o : AsyncOperation) : o.toInstancePoll.isGone = o.isGone := by
  simp only [PollInstanceResponse.isGone, toInstancePoll, isGone, Bool.and_assoc, Bool.and_self]

theorem isGone_toBindingPoll (o : AsyncOperation) : o.toBindingPoll.isGone = o.isGone := by
  simp only [PollBindingResponse.isGone, toBindingPoll, isGone, Bool.and_assoc, Bool.and_self]

/-! ## Polls of operations of different kinds -/

/-- An operation goes the same way whatever its kind. -/
theorem after_start (token : String) (kind other : AsyncKind) (calls : List Event) :
    (start token other).after calls = { (start token kind).after calls with kind := other } := by
  rw [after_eq_outcome, after_eq_outcome]
  rfl

theorem state_after_start (token : String) (kind : AsyncKind) (calls : List Event) :
    ((start token kind).after calls).state = .succeeded ↔
      calls.findSome? Event.settles? = some .succeeded := by
  rw [after_eq_outcome]
  change (calls.findSome? Event.settles?).getD .inProgress = .succeeded ↔ _
  cases calls.findSome? Event.settles? <;> simp

/-- Of two operations that differ in their kind, one is gone and the other is not if they have
succeeded and one of them is a delete. -/
theorem isGone_ne_iff (o : AsyncOperation) (other : AsyncKind) :
    o.isGone ≠ { o with kind := other }.isGone ↔
      o.kind.isDelete ≠ other.isDelete ∧ o.state = .succeeded := by
  simp only [isGone, isDelete]
  by_cases hstate : o.state = .succeeded
  · simp [hstate]
  · simp [beq_false_of_ne hstate, hstate]

/-- Both polls tell the state and the description of the operation, and that the resource is gone
if and only if its deletion has succeeded; and they are read back as they were. Operations that
differ in their kind alone are polled alike, but that one may be gone and the other is not: when the
first call that settles them lets them succeed, and only one of them deletes. -/
theorem polls_faithful (o : AsyncOperation) (calls : List Event) :
    let now := o.after calls
    let instancePoll := now.toInstancePoll
    let bindingPoll := now.toBindingPoll
    (instancePoll.state = now.state ∧ bindingPoll.state = now.state) ∧
    (instancePoll.description = now.description ∧ bindingPoll.description = now.description) ∧
    instancePoll.deleteOperation = bindingPoll.deleteOperation ∧
    (instancePoll.deleteOperation = true ↔
      (o.kind = .deprovision ∨ o.kind = .unbind) ∧ now.state = .succeeded) ∧
    (instancePoll.isGone = now.isGone ∧ bindingPoll.isGone = now.isGone) ∧
    (Message.ofText (Message.toText instancePoll) = .ok instancePoll ∧
      Message.ofJson (Message.toJson instancePoll) = .ok instancePoll) ∧
    (Message.ofText (Message.toText bindingPoll) = .ok bindingPoll ∧
      Message.ofJson (Message.toJson bindingPoll) = .ok bindingPoll) ∧
    ∀ (token : String) (kind other : AsyncKind),
      let a := (start token kind).after calls
      let b := (start token other).after calls
      { a.toInstancePoll with deleteOperation := b.toInstancePoll.deleteOperation } =
        b.toInstancePoll ∧
      { a.toBindingPoll with deleteOperation := b.toBindingPoll.deleteOperation } =
        b.toBindingPoll ∧
      (a.toInstancePoll.deleteOperation ≠ b.toInstancePoll.deleteOperation ↔
        kind.isDelete ≠ other.isDelete ∧ a.state = .succeeded) ∧
      (a.toBindingPoll.deleteOperation ≠ b.toBindingPoll.deleteOperation ↔
        kind.isDelete ≠ other.isDelete ∧ a.state = .succeeded) ∧
      (a.state = .succeeded ↔ ∃ before description later,
        calls = before ++ .succeed description :: later ∧
          ∀ call ∈ before, call.settles? = none) := by
  intro now instancePoll bindingPoll
  have hgone := now.isGone_iff
  rw [kind_after] at hgone
  refine ⟨⟨rfl, rfl⟩, ⟨rfl, rfl⟩, rfl, hgone, ⟨now.isGone_toInstancePoll, now.isGone_toBindingPoll⟩,
    instancePoll.read_back, bindingPoll.read_back, ?_⟩
  intro token kind other a b
  have hb : b = { a with kind := other } := after_start token kind other calls
  have hkind : a.kind = kind := kind_after (start token kind) calls
  have hdiffer : a.isGone ≠ b.isGone ↔ kind.isDelete ≠ other.isDelete ∧ a.state = .succeeded := by
    rw [hb, a.isGone_ne_iff, hkind]
  refine ⟨by rw [hb]; rfl, by rw [hb]; rfl, hdiffer, hdiffer, ?_⟩
  rw [← Event.findSome?_settles_eq_succeeded]
  exact state_after_start token kind calls

/-- A deletion that fails is not gone, and one that succeeds is not gone before. -/
example :
    let o := start "op-1" .unbind
    (o.after [.fail none, .succeed none]).toBindingPoll.deleteOperation = false ∧
      (o.after [.progress "half"]).toBindingPoll.deleteOperation = false ∧
      (o.after [.progress "half", .succeed none]).toBindingPoll.deleteOperation = true :=
  ⟨rfl, rfl, rfl⟩

end AsyncOperation
end ServiceBroker
