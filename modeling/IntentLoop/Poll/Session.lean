import IntentLoop.Duration
import IntentLoop.Poll.Outcome
import IntentLoop.Result
/-!
# A poll session

A session repeats a fetch until a matcher accepts the value, its budget of fetches is used up, or it
is cancelled. All that it has to know of its surroundings is the time and whether its signal has been
raised. Cancelling never interrupts a fetch. A session looks at its signal twice in a round: when it has
a value, before the matcher is asked about it, and in the wait, before it looks at the time. A signal
that is raised just after a look is noticed by the next one.

Every look is an act of its own, and so is the answer of the matcher, which belongs to the surroundings
like a fetch does: between any two of them others may act. An act that does not fit the stage of the
session changes nothing.
-/

namespace IntentLoop.Poll

/-- What all sessions of a poller have in common. -/
structure Terms (α : Type) where
  accepts : α → Bool
  timer : Timer

/-- Where a session stands. -/
inductive Stage (ε α : Type) where
  /-- Its first fetch is still to be made. -/
  | opening
  | fetching
  /-- Its signal was not raised when the value came, and the matcher is asked about it. -/
  | matching (value : α)
  /-- The value did not end the session; the next fetch is made at `due`. -/
  | waiting (value : α) (due : Duration)
  /-- It waits, and its signal was not raised when it looked; it looks at the time next. -/
  | cleared (value : α) (due : Duration)
  | ended (result : Except ε (Outcome α))
  /-- Its caller went away. -/
  | dropped
  deriving DecidableEq

namespace Stage

variable {ε α : Type}

def isLive : Stage ε α → Bool
  | opening | fetching | matching _ | waiting _ _ | cleared _ _ => true
  | ended _ | dropped => false

end Stage

structure Session (ε α : Type) where
  interval : Duration
  /-- The most fetches it may make; at least one. -/
  budget : Nat
  /-- Fetches made so far. -/
  attempts : Nat
  stage : Stage ε α
  deriving DecidableEq

inductive Event (ε α : Type) where
  | started (session : Nat)
  | fetch (session : Nat)
  /-- The matcher was asked about a value, and has answered. -/
  | evaluated (session : Nat) (value : α)
  | ended (session : Nat) (result : Except ε (Outcome α))
  | cancelled
  | dropped (session : Nat)
  deriving DecidableEq

namespace Session

variable {ε α : Type}

def start (interval : Duration) (retries : Nat) : Session ε α :=
  { interval, budget := max 1 retries, attempts := 0, stage := .opening }

def isLive (s : Session ε α) : Bool := s.stage.isLive

/-- Make a fetch. -/
def fetch (i : Nat) (s : Session ε α) : Session ε α × List (Event ε α) :=
  ({ s with stage := .fetching, attempts := s.attempts + 1 }, [.fetch i])

def finish (i : Nat) (result : Except ε (Outcome α)) (s : Session ε α) :
    Session ε α × List (Event ε α) :=
  ({ s with stage := .ended result }, [.ended i result])

/-- Session `i` makes its fetch, if it is time for it. -/
def proceed (now : Duration) (i : Nat) (s : Session ε α) : Session ε α × List (Event ε α) :=
  match s.stage with
  | .opening => s.fetch i
  | .cleared value due =>
    if due ≤ now then s.fetch i else ({ s with stage := .waiting value due }, [])
  | _ => (s, [])

/-- The fetch of session `i` is over. A failure ends the session; when there is a value, it looks at its
signal. -/
def fetched (i : Nat) (result : Except ε α) (raised : Bool) (s : Session ε α) :
    Session ε α × List (Event ε α) :=
  match s.stage, result with
  | .fetching, .error e => s.finish i (.error e)
  | .fetching, .ok value =>
    if raised then s.finish i (.ok (.cancelled value))
    else ({ s with stage := .matching value }, [])
  | _, _ => (s, [])

/-- The outcome of a session whose matcher is asked about `value`, if it ends there. A match wins over the
budget. -/
def verdict (accepts : α → Bool) (value : α) (s : Session ε α) : Option (Outcome α) :=
  if accepts value then some (.final value)
  else if s.budget ≤ s.attempts then some (.timeout value)
  else none

/-- The matcher of session `i` has answered. The signal is not looked at again before the wait. -/
def matched (T : Terms α) (now : Duration) (i : Nat) (s : Session ε α) :
    Session ε α × List (Event ε α) :=
  match s.stage with
  | .matching value =>
    match s.verdict T.accepts value with
    | some o =>
      let (s, ended) := s.finish i (.ok o)
      (s, .evaluated i value :: ended)
    | none => ({ s with stage := .waiting value (T.timer.due now s.interval) }, [.evaluated i value])
  | _ => (s, [])

/-- Session `i` looks at its signal in its wait. -/
def look (i : Nat) (raised : Bool) (s : Session ε α) : Session ε α × List (Event ε α) :=
  match s.stage with
  | .waiting value due =>
    if raised then s.finish i (.ok (.cancelled value)) else ({ s with stage := .cleared value due }, [])
  | _ => (s, [])

/-- The caller of session `i` goes away. -/
def drop (i : Nat) (s : Session ε α) : Session ε α × List (Event ε α) :=
  if s.isLive then ({ s with stage := .dropped }, [.dropped i]) else (s, [])

end Session

end IntentLoop.Poll
