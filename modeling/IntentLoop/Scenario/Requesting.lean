import IntentLoop.Auth.Executors
import IntentLoop.Auth.RequestError
import IntentLoop.Scenario.Logging
import IntentLoop.Scenario.Source
/-!
# Scripted access

A family of executors with a scripted source of tokens, and callers by name that want the token, a
header, or the answer to a request.
-/

namespace IntentLoop.Scenario.Requesting

open IntentLoop.Auth

abbrev Answered := Result String RequestError String

structure Plan where
  source : Source
  executors : List Executor

def Plan.family (plan : Plan) : Family String RequestError where
  executors := plan.executors
  fetchText := id
  requestText := RequestError.text
  lift := .login

/-- What the backend does with a request. -/
structure Exchange where
  reply : Reply String Unit := {}
  /-- Tokens that it turns down. -/
  rejected : List String := []

inductive Step where
  | call (id : String) (purpose : Purpose) (exchange : Exchange)
  | invalidate (via : Handle)
  | hasToken
  | advance (time : Duration)
  | abort (id : String)

/-- A named caller. It has a number once it has begun. -/
structure Client where
  id : String
  purpose : Purpose
  exchange : Exchange
  caller : Option Nat := none
  /-- The fetch or the request that it waits for. -/
  call : Option Call := none
  /-- Has it been told to go away? It does so on its next turn. -/
  aborted : Bool := false

structure RequestLine where
  id : String
  time : Duration
  token : String

structure Log where
  fetches : List Made := []
  requests : List RequestLine := []
  reports : List Report := []
  done : List (Done Answered) := []

structure World where
  access : Access String RequestError String := .new wallClock
  now : Duration := 0
  clients : List Client := []
  /-- Fetches made so far. -/
  made : Nat := 0
  log : Log := {}
  lines : List LogLine := []

/-- Number of a client in `World.clients`. -/
abbrev Task := Nat

/-- The answer of the backend to a request with this token. -/
def Exchange.answer (x : Exchange) (t : Token) : Except RequestError String :=
  if x.rejected.contains t.secret then .error (.request "401 unauthorized")
  else (x.reply.result t.header).mapError .request

namespace World

def setClient (k : Task) (f : Client → Client) (w : World) : World :=
  { w with clients := w.clients.modify k f }

def await (k : Task) (number : Nat) (after : Duration) (w : World) : World :=
  w.setClient k ({ · with call := some (Call.made number w.now after) })

/-- Take note of what happened to client `k`. -/
def record (plan : Plan) (k : Task) (w : World) (e : Access.Event String RequestError String) : World :=
  match w.clients[k]? with
  | none => w
  | some c =>
    match e with
    | .began caller _ => w.setClient k ({ · with caller := some caller })
    | .fetch _ =>
      let number := w.made + 1
      { w.await k number (plan.source.delay number) with
        made := number
        log.fetches := w.log.fetches ++ [{ number, time := w.now }] }
    | .requested _ t =>
      { w.await k 0 (c.exchange.reply.delay) with
        log.requests := w.log.requests ++ [{ id := c.id, time := w.now, token := t.secret }] }
    | .blocked _ text => { w with lines := w.lines ++ [blockedLine text] }
    | .reported _ reporter component text =>
      let (reports, lines) := report reporter component text
      { w with log.reports := w.log.reports ++ reports, lines := w.lines ++ lines }
    | .returned _ result =>
      { w with log.done := w.log.done ++ [{ time := w.now, id := c.id, result }] }
    | .fetched _ _ | .obtained _ _ | .dropped _ | .invalidated => w

def act (plan : Plan) (k : Task) (a : Access.Act String RequestError String) (w : World) : World :=
  let (access, events) := w.access.step plan.family a
  events.foldl (record plan k) { w with access }

/-- Is what the client waits for there? -/
def replied (w : World) (c : Client) : Bool := c.call.any (·.due ≤ w.now)

/-- Where client `k` stands, if it has begun. -/
def stage? (w : World) (k : Task) : Option (Nat × Client × Stage String RequestError String) := do
  let c ← w.clients[k]?
  let caller ← c.caller
  return (caller, c, ← w.access.stage? caller)

def isAborted (w : World) (k : Task) : Bool := w.clients[k]?.any (·.aborted)

/-- A caller goes away. -/
def depart (plan : Plan) (k : Task) (w : World) : World :=
  match w.clients[k]?.bind (·.caller) with
  | some caller => w.act plan k (.drop caller)
  | none => w

/-- A move of a caller that stays. -/
def goOn (plan : Plan) (k : Task) (w : World) : World × Turn × List Task :=
  match w.stage? k with
  | none =>
    match w.clients[k]? with
    | some c => (w.act plan k (.begin c.purpose), .continues, [])
    | none => (w, .ends, [])
  | some (_, _, .queued) => (w, .waits, [])
  | some (caller, _, .granted) => (w.act plan k (.resume caller), .continues, [])
  | some (caller, c, .fetching _) =>
    if w.replied c then
      let number := (c.call.map (·.number)).getD 0
      (w.act plan k (.fetched caller (plan.source.token number)), .continues, [])
    else (w, .waits, [])
  | some (caller, c, .requesting t) =>
    if w.replied c then (w.act plan k (.answered caller (c.exchange.answer t)), .continues, [])
    else (w, .waits, [])
  | some (_, _, .returned _) | some (_, _, .dropped) => (w, .ends, [])

def move (plan : Plan) (k : Task) (w : World) : World × Turn × List Task :=
  if w.isAborted k then (w.depart plan k, .ends, []) else w.goOn plan k

def stirs (w : World) (k : Task) : Bool :=
  w.isAborted k ||
    match w.stage? k with
    | some (_, _, .queued) => false
    | some (_, c, .fetching _) | some (_, c, .requesting _) => w.replied c
    | _ => true

def alarm (w : World) (k : Task) : Option Duration :=
  match w.stage? k with
  | some (_, c, .fetching _) | some (_, c, .requesting _) => c.call.map (·.due)
  | _ => none

end World

def conduct (plan : Plan) : Conduct World Task where
  clock := World.now
  elapse target w := { w with now := target }
  move := World.move plan
  stirs := World.stirs
  alarm := World.alarm
  costs _ _ := false

def abort (plan : Plan) (id : String) (r : Run World Task) : Run World Task :=
  match lastNamed id (r.world.clients.map (·.id)) with
  | none => r
  | some k => r.update (conduct plan) (·.setClient k ({ · with aborted := true }))

/-- Perform a step, and tell whether there was a token if it was one to ask for that. -/
def perform (plan : Plan) (r : Run World Task) : Step → Run World Task × Option Bool
  | .call id purpose exchange =>
    let clients := r.world.clients ++ [{ id, purpose, exchange }]
    ({ r with world := { r.world with clients } }.spawn [r.world.clients.length], none)
  | .invalidate via =>
    (r.update (conduct plan) (·.act plan 0 (Access.Order.invalidate via).act), none)
  | .hasToken => (r, some r.world.access.hasToken)
  | .advance time => (r.pass (conduct plan) time, none)
  | .abort id => (abort plan id r, none)

structure Answer where
  time : Duration
  hasToken : Option Bool
  log : Log

/-- One step: perform it, let the tasks move, and hand out what was found and logged. -/
def answer (plan : Plan) (r : Run World Task) (s : Timed Step) : Run World Task × Answer :=
  let (r, hasToken) := perform plan { r with world := { r.world with log := {} } } s.step
  let r := if s.settles then r.settle (conduct plan) Run.patience else r
  let log := { r.world.log with done := Done.inOrder r.world.log.done }
  (r, { time := r.world.now, hasToken, log })

/-- The answers to all steps, and what the program logged. -/
def answers (plan : Plan) (steps : List (Timed Step)) : List Answer × List LogLine :=
  let (r, out) := steps.foldl (fun (r, out) s =>
    let (r, a) := answer plan r s
    (r, out ++ [a])) (({ world := {} } : Run World Task), [])
  (out, r.world.lines)

end IntentLoop.Scenario.Requesting
