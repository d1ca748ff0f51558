import IntentLoop.Poll.Poller
import IntentLoop.Scenario.Script
/-!
# Scripted poll sessions

One poller of integers, a scripted fetch, and any number of callers that start sessions by name.
-/

namespace IntentLoop.Scenario.Polling

open IntentLoop.Poll

inductive Matcher where
  | equals (n : Int)
  | atLeast (n : Int)
  | always
  | never

def Matcher.accepts : Matcher → Int → Bool
  | equals n, v => v == n
  | atLeast n, v => n ≤ v
  | always, _ => true
  | never, _ => false

def Matcher.terms (m : Matcher) : Terms Int := { accepts := m.accepts, timer := Run.timer }

/-- What a fetch may do besides answering. -/
inductive Hook where
  | cancel

structure Plan where
  matcher : Matcher
  fetches : Script Int Hook
  /-- How long a fetch takes whose reply does not say. -/
  after : Duration := 0

inductive Step where
  | start (id : String) (interval : Duration) (retries : Nat)
  | cancel
  | advance (time : Duration)
  | abort (id : String)

/-- A caller of `start`. Its session has a number once it has begun. -/
structure Client where
  id : String
  interval : Duration
  retries : Nat
  session : Option Nat := none
  call : Option Call := none
  /-- Has it been told to go away? It does so on its next turn. -/
  aborted : Bool := false

structure Log where
  fetches : List Made := []
  evaluated : List Int := []
  done : List (Done (Except String (Outcome Int))) := []

structure World where
  poller : Poller String Int := .new
  clients : List Client := []
  /-- Fetches made so far. -/
  made : Nat := 0
  log : Log := {}

/-- Number of a client in `World.clients`. -/
abbrev Task := Nat

namespace World

def now (w : World) : Duration := w.poller.now

def setClient (k : Task) (f : Client → Client) (w : World) : World :=
  { w with clients := w.clients.modify k f }

/-- Take note of what happened to the session of client `k`. -/
def record (plan : Plan) (k : Task) (w : World) : Event String Int → World
  | .started i => w.setClient k ({ · with session := some i })
  | .fetch _ =>
    let number := w.made + 1
    let call := Call.made number w.now ((plan.fetches.reply number).after.getD plan.after)
    { w.setClient k ({ · with call := some call }) with
      made := number
      log.fetches := w.log.fetches ++ [{ number, time := w.now }] }
  | .evaluated _ v => { w with log.evaluated := w.log.evaluated ++ [v] }
  | .ended _ result =>
    match w.clients[k]? with
    | some c => { w with log.done := w.log.done ++ [{ time := w.now, id := c.id, result }] }
    | none => w
  | .cancelled | .dropped _ => w

def act (plan : Plan) (k : Task) (a : Act String Int) (w : World) : World :=
  let (poller, events) := w.poller.step plan.matcher.terms a
  events.foldl (record plan k) { w with poller }

/-- The stage of the session of client `k`. -/
def stage? (w : World) (k : Task) : Option (Nat × Client × Stage String Int) := do
  let c ← w.clients[k]?
  let i ← c.session
  let stage ← w.poller.stage? i
  return (i, c, stage)

/-- Is the reply to the client's fetch there? -/
def replied (w : World) (c : Client) : Bool :=
  match c.call with
  | some call => call.due ≤ w.now
  | none => false

/-- The fetch of client `k` is over. -/
def answer (plan : Plan) (k i : Nat) (c : Client) (w : World) : World :=
  let number := (c.call.map (·.number)).getD 0
  let reply := plan.fetches.reply number
  let w := match reply.hook with
    | some .cancel => w.act plan k .cancel
    | none => w
  w.act plan k (.fetched i (reply.result number))

def isAborted (w : World) (k : Task) : Bool := w.clients[k]?.any (·.aborted)

/-- The caller of a session goes away. -/
def depart (plan : Plan) (k : Task) (w : World) : World :=
  match w.stage? k with
  | some (i, _, _) => w.act plan k (.drop i)
  | none => w

/-- A move of a caller that stays. -/
def goOn (plan : Plan) (k : Task) (w : World) : World × Turn × List Task :=
  match w.stage? k with
  | none =>
    match w.clients[k]? with
    | some c => (w.act plan k (.start c.interval c.retries), .continues, [])
    | none => (w, .ends, [])
  | some (i, c, .fetching) =>
    if w.replied c then (w.answer plan k i c, .continues, []) else (w, .waits, [])
  | some (i, _, .matching _) => (w.act plan k (.matched i), .continues, [])
  | some (i, _, .waiting _ _) =>
    if w.poller.canWake i then (w.act plan k (.look i), .continues, []) else (w, .waits, [])
  | some (i, _, .opening) | some (i, _, .cleared _ _) => (w.act plan k (.proceed i), .continues, [])
  | some (_, _, .ended _) | some (_, _, .dropped) => (w, .ends, [])

def move (plan : Plan) (k : Task) (w : World) : World × Turn × List Task :=
  if w.isAborted k then (w.depart plan k, .ends, []) else w.goOn plan k

def stirs (w : World) (k : Task) : Bool :=
  w.isAborted k ||
    match w.stage? k with
    | some (_, c, .fetching) => w.replied c
    | some (i, _, .waiting _ _) => w.poller.canWake i
    | _ => true

def alarm (w : World) (k : Task) : Option Duration :=
  match w.stage? k with
  | some (_, c, .fetching) => c.call.map (·.due)
  | some (i, _, .waiting _ _) => w.poller.due? i
  | _ => none

/-- What counts against a session's share is the end of a wait, and any wait for the next fetch, be
it ever so short. -/
def costs (w : World) (k : Task) : Bool :=
  !w.isAborted k &&
    match w.stage? k with
    | some (_, c, .fetching) => c.call.any (·.takesTime)
    | some (_, _, .waiting _ _) => true
    | _ => false

end World

def conduct (plan : Plan) : Conduct World Task where
  clock := World.now
  elapse target w := w.act plan 0 (.pass (target - w.now))
  move := World.move plan
  stirs := World.stirs
  alarm := World.alarm
  costs := World.costs

def perform (plan : Plan) (r : Run World Task) : Step → Run World Task
  | .start id interval retries =>
    let clients := r.world.clients ++ [{ id, interval, retries }]
    { r with world := { r.world with clients } }.spawn [r.world.clients.length]
  | .cancel => r.update (conduct plan) (·.act plan 0 .cancel)
  | .advance time => r.pass (conduct plan) time
  | .abort id =>
    match lastNamed id (r.world.clients.map (·.id)) with
    | some k => r.update (conduct plan) (·.setClient k ({ · with aborted := true }))
    | none => r

structure Answer where
  time : Duration
  log : Log

/-- One step: perform it, let the tasks move, and hand out what was logged. -/
def answer (plan : Plan) (r : Run World Task) (s : Timed Step) : Run World Task × Answer :=
  let r := perform plan { r with world := { r.world with log := {} } } s.step
  let r := if s.settles then r.settle (conduct plan) Run.patience else r
  let log := { r.world.log with done := Done.inOrder r.world.log.done }
  (r, { time := r.world.now, log })

def answers (plan : Plan) (steps : List (Timed Step)) : List Answer :=
  (steps.foldl (fun (r, out) s =>
    let (r, a) := answer plan r s
    (r, out ++ [a])) (({ world := {} } : Run World Task), [])).2

end IntentLoop.Scenario.Polling
