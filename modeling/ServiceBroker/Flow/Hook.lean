import ServiceBroker.Failure

/-!
# Hooks and their fan-in

A hook observes what it is given and, after some time, succeeds or fails. The hooks of a phase all
start when the phase begins and run side by side; the phase ends when the slowest of them does.
Which failure it surfaces depends on the order of registration alone.
-/
namespace ServiceBroker

/-- How a call turns out: how long it takes and whether it fails. -/
structure Reaction where
  delay : Nat
  failure : Option Failure
  deriving DecidableEq, Repr

structure Hook (α : Type) where
  label : String
  /-- Whether a log shows what the hook was given. -/
  verbose : Bool
  react : α → Reaction

namespace Hook

/-- The instant at which a phase ends: that of its slowest hook. -/
def finish {α : Type} (hooks : List (Hook α)) (a : α) (start : Nat) : Nat :=
  hooks.foldl (fun t hook => max t (start + (hook.react a).delay)) start

/-- The failures of a phase with the positions of the hooks, in the order of registration. -/
def failures {α : Type} (hooks : List (Hook α)) (a : α) : List (Nat × Failure) :=
  hooks.zipIdx.filterMap fun (hook, i) => (hook.react a).failure.map fun f => (i, f)

/-- The failure that a phase surfaces: that of the hook registered earliest. -/
def firstFailure? {α : Type} (hooks : List (Hook α)) (a : α) : Option Failure :=
  hooks.findSome? fun hook => (hook.react a).failure

end Hook
end ServiceBroker
