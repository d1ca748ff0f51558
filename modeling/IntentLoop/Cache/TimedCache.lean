import IntentLoop.Cache.Slot
/-!
# The cache of one value

A cache keeps the value of a fetch for a fixed time. Callers that find no fresh value share one fetch.
A fetch is only as alive as its waiters: it begins, and goes on, when one of them moves it. A fetch
that was opened after an invalidation first lets the fetch that it overtook settle, so that those who
wait for the later one move the earlier one too, and so on along the chain.

What a fetch does is up to the surroundings. `TimedCache.step` is the only way in which a cache
changes, and every run of one is a list of `TimedCache.Act`s in any order; an act that nobody is there
to perform, or that does not fit the stage of its fetch or caller, changes nothing.

How a fetch is shared is assumed: it is moved by anyone who waits for it and only then, by one at a time;
its result is kept for all that wait for it, also those who come after it has settled; and it stays as it is
when all of them go away. What is done under the lock that guards the slot is one act.
-/

namespace IntentLoop.Cache

inductive FlightStage (ε α : Type) where
  /-- Its refresh has not been called. -/
  | held
  /-- Its refresh has been called and has not answered. -/
  | running
  | settled (result : Except ε α)
  deriving DecidableEq

/-- A fetch, shared by those who wait for it. -/
structure Flight (ε α : Type) where
  /-- The fetch that has to settle before this one calls its refresh. -/
  overtaken : Option Nat
  stage : FlightStage ε α
  deriving DecidableEq

inductive Caller (ε α : Type) where
  | waiting (ticket : Nat)
  | returned (result : Except ε α)
  | dropped
  deriving DecidableEq

structure TimedCache (ε α : Type) where
  ttl : Duration
  now : Duration
  slot : Slot α
  /-- All fetches, by ticket. -/
  flights : List (Flight ε α)
  /-- All callers of `get`, in the order in which they came. -/
  callers : List (Caller ε α)
  deriving DecidableEq

namespace TimedCache

inductive Act (ε α : Type) where
  /-- A new caller, numbered by those before it. -/
  | get
  /-- The refresh of a fetch is called. -/
  | call (ticket : Nat)
  /-- The refresh of a fetch answers, and those who wait for the fetch are yet to take the result. -/
  | answer (ticket : Nat) (result : Except ε α)
  /-- The refresh of a fetch answers, and the first of those who wait for the fetch returns. -/
  | settle (ticket : Nat) (result : Except ε α)
  /-- A caller takes the result of its fetch and returns. -/
  | finish (caller : Nat)
  | drop (caller : Nat)
  | invalidate
  | pass (time : Duration)
  deriving DecidableEq

inductive Event (ε α : Type) where
  | began (caller : Nat)
  | served (caller : Nat) (value : α)
  | joined (caller ticket : Nat)
  | opened (caller ticket : Nat) (overtaken : Option Nat)
  | called (ticket : Nat)
  | settled (ticket : Nat) (result : Except ε α)
  | returned (caller : Nat) (result : Except ε α)
  | dropped (caller : Nat)
  | invalidated
  deriving DecidableEq

variable {ε α : Type}

/-- A cache without a value, made at `now`. -/
def new (ttl now : Duration) : TimedCache ε α :=
  { ttl, now, slot := .empty, flights := [], callers := [] }

def peek (c : TimedCache ε α) : Option α := c.slot.peek c.ttl c.now

def result? (c : TimedCache ε α) (ticket : Nat) : Option (Except ε α) :=
  match c.flights[ticket]? with
  | some { stage := .settled r, .. } => some r
  | _ => none

/-- The fetch that has to move next for this one to get on: itself, or one along the chain of
unsettled fetches that it waits for. A fetch only waits for one with a smaller ticket. -/
def root (c : TimedCache ε α) : Nat → Nat → Nat
  | 0, ticket => ticket
  | fuel + 1, ticket =>
    match c.flights[ticket]? with
    | some { stage := .held, overtaken := some earlier } =>
      if (c.result? earlier).isSome then ticket else c.root fuel earlier
    | _ => ticket

def rootOf (c : TimedCache ε α) (ticket : Nat) : Nat := c.root ticket ticket

/-- Does some caller wait for the fetch, or for one that waits for it? -/
def isDriven (c : TimedCache ε α) (ticket : Nat) : Bool :=
  c.callers.any fun
    | .waiting t => c.rootOf t == ticket
    | .returned _ | .dropped => false

def get (c : TimedCache ε α) : TimedCache ε α × List (Event ε α) :=
  let caller := c.callers.length
  let (service, slot) := c.slot.serve c.ttl c.now
  let c := { c with slot }
  match service with
  | .served value =>
    ({ c with callers := c.callers ++ [.returned (.ok value)] },
      [.began caller, .served caller value, .returned caller (.ok value)])
  | .joined ticket =>
    ({ c with callers := c.callers ++ [.waiting ticket] }, [.began caller, .joined caller ticket])
  | .opened ticket overtaken =>
    ({ c with
        callers := c.callers ++ [.waiting ticket]
        flights := c.flights ++ [{ overtaken, stage := .held }] },
      [.began caller, .opened caller ticket overtaken])

def setStage (ticket : Nat) (stage : FlightStage ε α) (c : TimedCache ε α) : TimedCache ε α :=
  { c with flights := c.flights.modify ticket fun f => { f with stage } }

def call (ticket : Nat) (c : TimedCache ε α) : TimedCache ε α × List (Event ε α) :=
  match c.flights[ticket]? with
  | some { stage := .held, .. } =>
    if c.isDriven ticket then (c.setStage ticket .running, [.called ticket]) else (c, [])
  | _ => (c, [])

def finish (caller : Nat) (c : TimedCache ε α) : TimedCache ε α × List (Event ε α) :=
  match c.callers[caller]? with
  | some (.waiting ticket) =>
    match c.result? ticket with
    | some result =>
      ({ c with
          slot := c.slot.conclude ticket result c.now
          callers := c.callers.set caller (.returned result) }, [.returned caller result])
    | none => (c, [])
  | _ => (c, [])

/-- The first of those who wait for a fetch. -/
def firstWaiter? (c : TimedCache ε α) (ticket : Nat) : Option Nat :=
  c.callers.findIdx? fun
    | .waiting t => t == ticket
    | .returned _ | .dropped => false

/-- The refresh of a fetch answers. -/
def answer (ticket : Nat) (result : Except ε α) (c : TimedCache ε α) :
    TimedCache ε α × List (Event ε α) :=
  match c.flights[ticket]? with
  | some { stage := .running, .. } =>
    if c.isDriven ticket then (c.setStage ticket (.settled result), [.settled ticket result])
    else (c, [])
  | _ => (c, [])

/-- The refresh of a fetch answers. Whoever has moved it to its end takes the result there and then,
which is the first of those who wait for it, unless only waiters of later fetches do. -/
def settle (ticket : Nat) (result : Except ε α) (c : TimedCache ε α) :
    TimedCache ε α × List (Event ε α) :=
  match c.answer ticket result with
  | (_, []) => (c, [])
  | (settled, answered) =>
    match settled.firstWaiter? ticket with
    | some caller =>
      let (c, returned) := settled.finish caller
      (c, answered ++ returned)
    | none => (settled, answered)

def drop (caller : Nat) (c : TimedCache ε α) : TimedCache ε α × List (Event ε α) :=
  match c.callers[caller]? with
  | some (.waiting _) => ({ c with callers := c.callers.set caller .dropped }, [.dropped caller])
  | _ => (c, [])

def invalidate (c : TimedCache ε α) : TimedCache ε α := { c with slot := c.slot.invalidate }

def step (c : TimedCache ε α) : Act ε α → TimedCache ε α × List (Event ε α)
  | .get => c.get
  | .call ticket => c.call ticket
  | .answer ticket result => c.answer ticket result
  | .settle ticket result => c.settle ticket result
  | .finish caller => c.finish caller
  | .drop caller => c.drop caller
  | .invalidate => (c.invalidate, [.invalidated])
  | .pass d => ({ c with now := c.now + d }, [])

/-- A run that goes on with one more act, each event of it with its instant. -/
def extend (past : TimedCache ε α × List (Duration × Event ε α)) (act : Act ε α) :
    TimedCache ε α × List (Duration × Event ε α) :=
  let (next, events) := past.1.step act
  (next, past.2 ++ events.map (past.1.now, ·))

/-- A run from a given cache: the cache after a list of acts, and what happened. -/
def runFrom (c : TimedCache ε α) (acts : List (Act ε α)) :
    TimedCache ε α × List (Duration × Event ε α) := acts.foldl extend (c, [])

def run (ttl : Duration) (acts : List (Act ε α)) : TimedCache ε α × List (Duration × Event ε α) :=
  (new ttl 0).runFrom acts

/-! ### Moving a caller -/

/-- What stands between a caller and its result. -/
inductive Need where
  /-- It has returned, or is gone. -/
  | nothing
  /-- A refresh is to be called. -/
  | call (ticket : Nat)
  /-- A refresh is to answer. -/
  | answer (ticket : Nat)
  /-- The result is there to be taken. -/
  | finish
  deriving DecidableEq

def need (c : TimedCache ε α) (caller : Nat) : Need :=
  match c.callers[caller]? with
  | some (.waiting ticket) =>
    let root := c.rootOf ticket
    match c.flights[root]? with
    | some { stage := .held, .. } => .call root
    | some { stage := .running, .. } => .answer root
    | some { stage := .settled _, .. } => .finish
    | none => .nothing
  | _ => .nothing

/-- The result with which a caller returned. -/
def returned? (c : TimedCache ε α) (caller : Nat) : Option (Except ε α) :=
  match c.callers[caller]? with
  | some (.returned r) => some r
  | _ => none

end TimedCache

end IntentLoop.Cache
