import IntentLoop.Poll.Session
/-!
# The poller

Any number of sessions of a poller may run at once. They share signals: a session takes the signal
that is registered when it starts, and a cancel raises the registered one. A fresh signal is
registered by a session that starts while none is live, or after the registered one was raised, so
that a cancel reaches the sessions that are live and no later one.

Time, fetches, their results and the answers of the matcher belong to the surroundings. `Poller.step` is
the only way in which a poller changes, and every run of one is a list of `Act`s in any order. An act is
what one thread does between two points at which another one may step in: a look at a signal, a look at the
time with the fetch that it leads to, the answer of a matcher, the taking and the raising of signals under
the lock. A session that has its result does nothing more but to leave the count of those that are live, so
both are one act. Callers that share a thread have more order among their acts, and their runs are among
these.
-/

namespace IntentLoop.Poll

/-- A session among others. -/
structure Member (ε α : Type) where
  /-- Number of the signal that the session listens to. -/
  signal : Nat
  session : Session ε α
  deriving DecidableEq

structure Poller (ε α : Type) where
  now : Duration
  /-- Which signals have been raised. -/
  signals : List Bool
  /-- Number of the registered signal. -/
  registered : Nat
  /-- Number of live sessions. -/
  live : Nat
  /-- All sessions, in the order of their starts. -/
  sessions : List (Member ε α)
  deriving DecidableEq

inductive Act (ε α : Type) where
  /-- A new session, numbered by those before it. -/
  | start (interval : Duration) (retries : Nat)
  /-- A session goes on to its next fetch, if it is time for it. -/
  | proceed (session : Nat)
  /-- The fetch of a session is over, and it looks at its signal. -/
  | fetched (session : Nat) (result : Except ε α)
  /-- The matcher that a session asked has answered. -/
  | matched (session : Nat)
  /-- A waiting session looks at its signal. -/
  | look (session : Nat)
  /-- From anyone, be it a fetch or a matcher. -/
  | cancel
  /-- The caller of a session goes away. -/
  | drop (session : Nat)
  | pass (time : Duration)
  deriving DecidableEq

namespace Poller

variable {ε α : Type}

def new : Poller ε α :=
  { now := 0, signals := [false], registered := 0, live := 0, sessions := [] }

def raised (p : Poller ε α) (signal : Nat) : Bool :=
  p.signals[signal]?.getD false

/-- The signal registered for a session that starts now. -/
def register (p : Poller ε α) : Poller ε α :=
  if p.live = 0 ∨ p.raised p.registered then
    { p with signals := p.signals ++ [false], registered := p.signals.length }
  else p

def start (interval : Duration) (retries : Nat) (p : Poller ε α) : Poller ε α :=
  let p := p.register
  { p with
    live := p.live + 1
    sessions := p.sessions ++ [{ signal := p.registered, session := .start interval retries }] }

/-- A session moves, knowing whether its signal was raised. When it is over, however it came to that,
there is one live session less. -/
def onSession (i : Nat) (move : Bool → Session ε α → Session ε α × List (Event ε α))
    (p : Poller ε α) : Poller ε α × List (Event ε α) :=
  match p.sessions[i]? with
  | some m =>
    let (session, events) := move (p.raised m.signal) m.session
    let live := if m.session.isLive && !session.isLive then p.live - 1 else p.live
    ({ p with sessions := p.sessions.set i { m with session }, live }, events)
  | none => (p, [])

def cancel (p : Poller ε α) : Poller ε α :=
  { p with signals := p.signals.set p.registered true }

def step (T : Terms α) (p : Poller ε α) : Act ε α → Poller ε α × List (Event ε α)
  | .start interval retries => (p.start interval retries, [.started p.sessions.length])
  | .proceed i => p.onSession i fun _ => Session.proceed p.now i
  | .fetched i result => p.onSession i (Session.fetched i result)
  | .matched i => p.onSession i fun _ => Session.matched T p.now i
  | .look i => p.onSession i (Session.look i)
  | .cancel => (p.cancel, [.cancelled])
  | .drop i => p.onSession i fun _ => Session.drop i
  | .pass d => ({ p with now := p.now + d }, [])

/-- A run that goes on with one more act, each event of it with its instant. -/
def extend (T : Terms α) (past : Poller ε α × List (Duration × Event ε α)) (act : Act ε α) :
    Poller ε α × List (Duration × Event ε α) :=
  let (next, events) := past.1.step T act
  (next, past.2 ++ events.map (past.1.now, ·))

/-- A run from a given poller: the poller after a list of acts, and what happened. -/
def runFrom (T : Terms α) (p : Poller ε α) (acts : List (Act ε α)) :
    Poller ε α × List (Duration × Event ε α) := acts.foldl (extend T) (p, [])

def run (T : Terms α) (acts : List (Act ε α)) : Poller ε α × List (Duration × Event ε α) :=
  new.runFrom T acts

def session? (p : Poller ε α) (i : Nat) : Option (Session ε α) :=
  p.sessions[i]?.map (·.session)

/-- Is there such a session, and is it live? -/
def isLive (p : Poller ε α) (i : Nat) : Bool :=
  (p.session? i).any (·.isLive)

/-- Was the signal of this session raised? -/
def isCancelled (p : Poller ε α) (i : Nat) : Bool :=
  p.sessions[i]?.any fun m => p.raised m.signal

/-- Where a session stands. -/
def stage? (p : Poller ε α) (i : Nat) : Option (Stage ε α) :=
  (p.session? i).map (·.stage)

/-- The result of a session that has ended. -/
def result? (p : Poller ε α) (i : Nat) : Option (Except ε (Outcome α)) :=
  match p.stage? i with
  | some (.ended r) => some r
  | _ => none

/-- When the wait of a waiting session is over. -/
def due? (p : Poller ε α) (i : Nat) : Option Duration :=
  match p.stage? i with
  | some (.waiting _ due) | some (.cleared _ due) => some due
  | _ => none

/-- Has the wait of this session come to an end, by a cancel or by time? -/
def canWake (p : Poller ε α) (i : Nat) : Bool :=
  match p.due? i with
  | some due => p.isCancelled i || due ≤ p.now
  | none => false

end Poller

end IntentLoop.Poll
