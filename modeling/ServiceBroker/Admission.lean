import ServiceBroker.Operation

/-!
# Admission

State-changing operations share a budget. One that finds it spent is rejected; fetches and polls are
always let through, so that a busy broker still answers for what it has accepted.
-/
namespace ServiceBroker

/-- Permits for state-changing operations, some of which may be held at present. -/
structure Budget where
  capacity : Nat
  /-- The permits that nothing holds. -/
  available : Nat
  deriving DecidableEq

inductive Admission where
  /-- A read-only request; holds nothing. -/
  | exempt
  /-- Holds a permit until the request settles. -/
  | admitted
  | rejected (inFlight : Nat)
  deriving DecidableEq, Repr

def Admission.holdsPermit : Admission → Bool
  | .admitted => true
  | .exempt | .rejected _ => false

namespace Budget

def ofCapacity (capacity : Nat) : Budget := ⟨capacity, capacity⟩

/-- State-changing operations that hold a permit. -/
def inFlight (b : Budget) : Nat := b.capacity - b.available

def acquire (b : Budget) (op : Operation) : Admission × Budget :=
  if op.isReadOnly then (.exempt, b)
  else
    match b.available with
    | 0 => (.rejected b.inFlight, b)
    | available + 1 => (.admitted, { b with available })

/-- Takes back what a request holds. -/
def release (b : Budget) (admission : Admission) : Budget :=
  if admission.holdsPermit then { b with available := b.available + 1 } else b

/-- What only reads is exempt; of the rest, what finds a permit is admitted. -/
theorem acquire_cases (b : Budget) (op : Operation) :
    (op.isReadOnly = true ∧ b.acquire op = (.exempt, b)) ∨
      (op.isReadOnly = false ∧ ∃ available, b.available = available + 1 ∧
        b.acquire op = (.admitted, { b with available })) ∨
      (op.isReadOnly = false ∧ b.available = 0 ∧
        b.acquire op = (.rejected b.inFlight, b)) := by
  unfold acquire
  cases op.isReadOnly with
  | true => simp
  | false => cases h : b.available <;> simp

@[simp]
theorem capacity_acquire (b : Budget) (op : Operation) :
    (b.acquire op).2.capacity = b.capacity := by
  rcases b.acquire_cases op with ⟨-, h⟩ | ⟨-, _, -, h⟩ | ⟨-, -, h⟩
  all_goals rw [h]

theorem available_acquire (b : Budget) (op : Operation) :
    (b.acquire op).2.available + (b.acquire op).1.holdsPermit.toNat = b.available := by
  rcases b.acquire_cases op with ⟨-, h⟩ | ⟨-, _, havailable, h⟩ | ⟨-, -, h⟩
  all_goals grind [Admission.holdsPermit]

@[simp]
theorem capacity_release (b : Budget) (admission : Admission) :
    (b.release admission).capacity = b.capacity := by
  unfold release
  split <;> rfl

theorem available_release (b : Budget) (admission : Admission) :
    (b.release admission).available = b.available + admission.holdsPermit.toNat := by
  unfold release
  split <;> grind

end Budget

/-- The failure of a request that is not admitted. -/
def shedFailure (op : Operation) (inFlight : Nat) : Failure :=
  .unavailable (toString inFlight ++ " operations in flight, rejected " ++ op.name)

end ServiceBroker
