import IntentLoop.Duration
import IntentLoop.Schedule
/-!
# Scripted surroundings

A scenario drives a part of the library through a list of steps on a virtual clock. Whatever the part
asks of the outside (a fetch, a token, a rate) is answered by a script: the first call by its first
reply, the second by its second, and every call after the last reply by an empty one, which succeeds
at once with a default.

The answer to a step is what the scenario logged during that step, and each log is a list of its own.
-/

namespace IntentLoop.Scenario

/-- What a scripted collaborator does at one call: wait, act, and then fail or succeed. A failure
wins over a value. -/
structure Reply (α η : Type) where
  after : Option Duration := none
  value : Option α := none
  failure : Option String := none
  hook : Option η := none

abbrev Script (α η : Type) := List (Reply α η)

namespace Script

variable {α η : Type}

/-- The reply to call number `n`, the first call having number 1. -/
def reply (s : Script α η) (n : Nat) : Reply α η := s[n - 1]?.getD {}

end Script

/-- The result that a reply stands for. -/
def Reply.result {α η : Type} (r : Reply α η) (default : α) : Except String α :=
  match r.failure with
  | some e => .error e
  | none => .ok (r.value.getD default)

/-- How long a reply takes; one that does not say takes no time. -/
def Reply.delay {α η : Type} (r : Reply α η) : Duration := r.after.getD 0

/-- A call under way. -/
structure Call where
  number : Nat
  /-- When its reply is there. -/
  due : Duration
  /-- Does the reply take any time? The end of a wait counts against the share of who waited. -/
  takesTime : Bool

/-- A call that is made `now` and has its reply after the given time. -/
def Call.made (number : Nat) (now after : Duration) : Call :=
  { number, due := Run.timer.due now after, takesTime := 0 < after }

/-- Position of the last occurrence of a name. -/
def lastNamed (id : String) (names : List String) : Option Nat :=
  names.zipIdx.foldl (fun found (name, k) => if name == id then some k else found) none

/-- A log line that says that call `number` was made. -/
structure Made where
  number : Nat
  time : Duration

/-- A log line that says that the caller `id` is done. -/
structure Done (ρ : Type) where
  time : Duration
  id : String
  result : ρ

namespace Done

variable {ρ : Type}

/-- Earlier ones first; those of one instant by name. -/
def precedes (a b : Done ρ) : Bool :=
  a.time < b.time || (a.time == b.time && a.id ≤ b.id)

def inOrder (log : List (Done ρ)) : List (Done ρ) := log.mergeSort precedes

end Done

/-- A step of a scenario. A step that does not settle leaves the tasks that it made ready to a later
one. -/
structure Timed (σ : Type) where
  step : σ
  settles : Bool := true

end IntentLoop.Scenario
