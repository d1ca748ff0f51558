import IntentLoop.Auth.Blocked
import IntentLoop.Auth.Token
import IntentLoop.Reporter
import IntentLoop.Result
/-!
# Access by token

A family of executors shares one stored token. A caller who finds it usable takes it at once. Any
other one needs the turn to fetch: the turn goes to callers in the order of their coming, and whoever
gets it looks at the stored token again before it fetches a new one. An invalidation forgets the
stored token and begins a new epoch; the token of a fetch is stored only if the epoch in which the
fetch was made is still the current one.

With its token, a caller returns it, returns the header made of it, or goes on to a request. When a
header or a request fails with a text that speaks of blocking, the executor through which it went
makes a report. Nothing is retried.

Fetches and requests are answered by the surroundings. `Access.step` is the only way in which the
shared state changes, and every run is a list of `Access.Act`s in any order; an act that does not fit
the stage of its caller changes nothing.

The turn is a lock that callers wait for, and two things are assumed of it: that it hands itself on in the
order in which callers began to wait, past those that have been dropped, and that a caller who holds it
and is dropped hands it on. What a caller does without waiting is one act, as it is where callers share a
thread. The wall clock, by which tokens expire, only goes on.
-/

namespace IntentLoop.Auth

/-- One handle to the shared token. -/
structure Executor where
  reporter : Option Reporter := none
  deriving DecidableEq

/-- What all executors of a family have in common besides the token: how errors `ε` of fetches and
`φ` of requests read, and how an error of a fetch becomes one of a request. -/
structure Family (ε φ : Type) where
  executors : List Executor
  fetchText : ε → String
  requestText : φ → String
  lift : ε → φ

/-- What a caller wants a token for, and through which executor. -/
inductive Purpose where
  | token
  | header (executor : Nat)
  | request (executor : Nat)
  deriving DecidableEq

inductive Result (ε φ α : Type) where
  | token (result : Except ε Token)
  | header (result : Except ε String)
  | request (result : Except φ α)
  deriving DecidableEq

inductive Stage (ε φ α : Type) where
  /-- In line for the turn. -/
  | queued
  /-- It has been given the turn and has not moved since. -/
  | granted
  /-- It has the turn and fetches a token, in this epoch. -/
  | fetching (epoch : Nat)
  | requesting (token : Token)
  | returned (result : Result ε φ α)
  | dropped
  deriving DecidableEq

structure Caller (ε φ α : Type) where
  purpose : Purpose
  stage : Stage ε φ α
  deriving DecidableEq

structure Access (ε φ α : Type) where
  wallClock : Timestamp
  /-- The stored token. -/
  token : Option Token
  /-- Number of invalidations so far. -/
  epoch : Nat
  /-- Who has the turn to fetch. -/
  turn : Option Nat
  /-- Who waits for the turn, the next one first. -/
  line : List Nat
  /-- All callers, in the order in which they came. -/
  callers : List (Caller ε φ α)
  deriving DecidableEq

namespace Access

inductive Act (ε φ α : Type) where
  /-- A new caller, numbered by those before it. -/
  | begin (purpose : Purpose)
  /-- A caller that was given the turn moves. -/
  | resume (caller : Nat)
  /-- The fetch of a caller is over. -/
  | fetched (caller : Nat) (result : Except ε Token)
  /-- The request of a caller is over. -/
  | answered (caller : Nat) (result : Except φ α)
  | drop (caller : Nat)
  | invalidate
  | pass (time : Duration)
  deriving DecidableEq

inductive Event (ε φ α : Type) where
  | began (caller : Nat) (purpose : Purpose)
  | fetch (caller : Nat)
  | fetched (caller : Nat) (result : Except ε Token)
  | obtained (caller : Nat) (token : Token)
  | requested (caller : Nat) (token : Token)
  /-- An executor noticed an error that speaks of blocking. -/
  | blocked (caller : Nat) (text : String)
  | reported (caller : Nat) (reporter : Reporter) (component text : String)
  | returned (caller : Nat) (result : Result ε φ α)
  | dropped (caller : Nat)
  | invalidated
  deriving DecidableEq

variable {ε φ α : Type}

def new (wallClock : Timestamp) : Access ε φ α :=
  { wallClock, token := none, epoch := 0, turn := none, line := [], callers := [] }

/-- The stored token, unless it has expired. -/
def usable (a : Access ε φ α) : Option Token :=
  a.token.filter fun t => !t.isExpiredAt a.wallClock

def hasToken (a : Access ε φ α) : Bool := a.usable.isSome

def stage? (a : Access ε φ α) (caller : Nat) : Option (Stage ε φ α) :=
  (a.callers[caller]?).map (·.stage)

def setStage (caller : Nat) (stage : Stage ε φ α) (a : Access ε φ α) : Access ε φ α :=
  { a with callers := a.callers.modify caller fun c => { c with stage } }

/-! ### The turn -/

/-- The turn goes to the next in line, if there is one. -/
def passTurn (a : Access ε φ α) : Access ε φ α :=
  match a.line with
  | [] => { a with turn := none }
  | next :: line => ({ a with turn := some next, line } : Access ε φ α).setStage next .granted

/-- A caller who needs the turn gets it or goes to the end of the line. -/
def seekTurn (caller : Nat) (a : Access ε φ α) : Access ε φ α :=
  match a.turn with
  | none => ({ a with turn := some caller } : Access ε φ α).setStage caller .granted
  | some _ => ({ a with line := a.line ++ [caller] } : Access ε φ α).setStage caller .queued

/-! ### With a token, or without one -/

/-- The name under which executors report. -/
def component : String := "auth"

/-- What an executor makes of the text of an error. -/
def inspect (F : Family ε φ) (caller executor : Nat) (text : String) : List (Event ε φ α) :=
  if speaksOfBlocking text then
    .blocked caller text ::
      match F.executors[executor]? with
      | some { reporter := some r } => [.reported caller r component (blockedText text)]
      | _ => []
  else []

def conclude (caller : Nat) (result : Result ε φ α) (a : Access ε φ α) :
    Access ε φ α × List (Event ε φ α) :=
  (a.setStage caller (.returned result), [.returned caller result])

/-- The caller has a token. -/
def obtain (caller : Nat) (purpose : Purpose) (t : Token) (a : Access ε φ α) :
    Access ε φ α × List (Event ε φ α) :=
  match purpose with
  | .token =>
    let (a, events) := a.conclude caller (.token (.ok t))
    (a, .obtained caller t :: events)
  | .header _ =>
    let (a, events) := a.conclude caller (.header (.ok t.header))
    (a, .obtained caller t :: events)
  | .request _ => (a.setStage caller (.requesting t), [.obtained caller t, .requested caller t])

/-- The caller's fetch failed. -/
def fail (F : Family ε φ) (caller : Nat) (purpose : Purpose) (e : ε) (a : Access ε φ α) :
    Access ε φ α × List (Event ε φ α) :=
  match purpose with
  | .token => a.conclude caller (.token (.error e))
  | .header executor =>
    let (a, events) := a.conclude caller (.header (.error e))
    (a, inspect F caller executor (F.fetchText e) ++ events)
  | .request executor =>
    let (a, events) := a.conclude caller (.request (.error (F.lift e)))
    (a, inspect F caller executor (F.requestText (F.lift e)) ++ events)

/-! ### Acts -/

def begin (purpose : Purpose) (a : Access ε φ α) : Access ε φ α × List (Event ε φ α) :=
  let caller := a.callers.length
  let joined : Access ε φ α := { a with callers := a.callers ++ [{ purpose, stage := .queued }] }
  match a.usable with
  | some t =>
    let (a, events) := joined.obtain caller purpose t
    (a, .began caller purpose :: events)
  | none => (joined.seekTurn caller, [.began caller purpose])

def resume (caller : Nat) (a : Access ε φ α) : Access ε φ α × List (Event ε φ α) :=
  match a.callers[caller]? with
  | some { purpose, stage := .granted } =>
    match a.usable with
    | some t => a.passTurn.obtain caller purpose t
    | none => (a.setStage caller (.fetching a.epoch), [.fetch caller])
  | _ => (a, [])

def fetched (F : Family ε φ) (caller : Nat) (result : Except ε Token) (a : Access ε φ α) :
    Access ε φ α × List (Event ε φ α) :=
  match a.callers[caller]? with
  | some { purpose, stage := .fetching epoch } =>
    match result with
    | .ok t =>
      let stored : Access ε φ α := if a.epoch = epoch then { a with token := some t } else a
      let (a, events) := stored.passTurn.obtain caller purpose t
      (a, .fetched caller result :: events)
    | .error e =>
      let (a, events) := a.passTurn.fail F caller purpose e
      (a, .fetched caller result :: events)
  | _ => (a, [])

def answered (F : Family ε φ) (caller : Nat) (result : Except φ α) (a : Access ε φ α) :
    Access ε φ α × List (Event ε φ α) :=
  match a.callers[caller]? with
  | some { purpose := .request executor, stage := .requesting _ } =>
    let (a, events) := a.conclude caller (.request result)
    match result with
    | .ok _ => (a, events)
    | .error e => (a, inspect F caller executor (F.requestText e) ++ events)
  | _ => (a, [])

def drop (caller : Nat) (a : Access ε φ α) : Access ε φ α × List (Event ε φ α) :=
  let gone := a.setStage caller .dropped
  match a.stage? caller with
  | some .queued => ({ gone with line := gone.line.filter (· ≠ caller) }, [.dropped caller])
  | some .granted | some (.fetching _) => (gone.passTurn, [.dropped caller])
  | some (.requesting _) => (gone, [.dropped caller])
  | _ => (a, [])

def invalidate (a : Access ε φ α) : Access ε φ α := { a with token := none, epoch := a.epoch + 1 }

def step (F : Family ε φ) (a : Access ε φ α) : Act ε φ α → Access ε φ α × List (Event ε φ α)
  | .begin purpose => a.begin purpose
  | .resume caller => a.resume caller
  | .fetched caller result => a.fetched F caller result
  | .answered caller result => a.answered F caller result
  | .drop caller => a.drop caller
  | .invalidate => (a.invalidate, [.invalidated])
  | .pass d => ({ a with wallClock := a.wallClock.add d }, [])

/-- A run that goes on with one more act, each event of it with its instant. -/
def extend (F : Family ε φ) (past : Access ε φ α × List (Timestamp × Event ε φ α))
    (act : Act ε φ α) : Access ε φ α × List (Timestamp × Event ε φ α) :=
  let (next, events) := past.1.step F act
  (next, past.2 ++ events.map (past.1.wallClock, ·))

/-- A run from a given state: the shared state after a list of acts, and what happened. -/
def runFrom (F : Family ε φ) (a : Access ε φ α) (acts : List (Act ε φ α)) :
    Access ε φ α × List (Timestamp × Event ε φ α) := acts.foldl (extend F) (a, [])

def run (F : Family ε φ) (wallClock : Timestamp) (acts : List (Act ε φ α)) :
    Access ε φ α × List (Timestamp × Event ε φ α) := (new wallClock).runFrom F acts

end Access

end IntentLoop.Auth
