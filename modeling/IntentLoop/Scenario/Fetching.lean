import IntentLoop.Cache.KeyedCache
import IntentLoop.Scenario.Script
/-!
# Scripted caches

One cache of texts with a scripted refresh, for one value or with keys, and callers by name. Both
kinds are driven alike: the cache of one value is the cache with keys in which only one key is used.
The kinds differ in what a refresh answers if its script does not say.
-/

namespace IntentLoop.Scenario.Fetching

open IntentLoop.Cache

/-- What a refresh may do besides answering. -/
inductive Hook where
  /-- Invalidate the value under its key while the refresh is being called. -/
  | invalidateAtStart
  /-- The same when the wait is over. -/
  | invalidateAtEnd
  | invalidateAllAtEnd

/-- How the answer of a refresh is worded by default. -/
inductive Wording where
  /-- By the number of the call, and the value that the cache showed at that time. -/
  | plain
  /-- By the key and the number of the call. -/
  | keyed

structure Plan where
  ttl : Duration
  fetches : Script String Hook
  wording : Wording

/-- A request by a named caller. -/
structure Request where
  id : String
  key : String

inductive Step where
  | get (requests : List Request)
  | advance (time : Duration)
  | invalidate (key : String)
  | invalidateAll
  | peek (keys : List String)
  | abort (id : String)

/-- A caller of `get`. It has a number in the cache of its key once it has begun. -/
structure Client where
  id : String
  key : String
  caller : Option Nat := none
  /-- Has it been told to go away? It does so on its next turn. -/
  aborted : Bool := false

/-- A call of the refresh that has not answered. -/
structure Refresh where
  key : String
  ticket : Nat
  call : Call
  /-- The answer, if the script does not give one. -/
  default : String

structure CallLine where
  number : Nat
  time : Duration
  key : String

structure Log where
  calls : List CallLine := []
  done : List (Done (Except String String)) := []

structure World where
  cache : KeyedCache String String String
  clients : List Client := []
  refreshes : List Refresh := []
  /-- Calls of the refresh so far. -/
  made : Nat := 0
  log : Log := {}

/-- Number of a client in `World.clients`. -/
abbrev Task := Nat

namespace World

def now (w : World) : Duration := w.cache.now

def act (a : KeyedCache.Act String String String) (w : World) : World :=
  { w with cache := (w.cache.step a).1 }

def defaultAnswer (plan : Plan) (key : String) (number : Nat) (w : World) : String :=
  match plan.wording with
  | .plain => "v" ++ toString number ++ ((w.cache.peek key).map ("<" ++ ·)).getD ""
  | .keyed => key ++ "#" ++ toString number

/-- A refresh is called. -/
def call (plan : Plan) (key : String) (ticket : Nat) (w : World) : World :=
  let number := w.made + 1
  let reply := plan.fetches.reply number
  let w := w.act (.on key (.call ticket))
  let default := w.defaultAnswer plan key number
  let w := match reply.hook with
    | some .invalidateAtStart => w.act (.on key .invalidate)
    | _ => w
  let call := Call.made number w.now reply.delay
  { w with
    made := number
    refreshes := w.refreshes ++ [{ key, ticket, call, default }]
    log.calls := w.log.calls ++ [{ number, time := w.now, key }] }

def refresh? (w : World) (key : String) (ticket : Nat) : Option Refresh :=
  w.refreshes.find? fun r => r.key == key && r.ticket == ticket

/-- A refresh answers. -/
def answer (plan : Plan) (r : Refresh) (w : World) : World :=
  let reply := plan.fetches.reply r.call.number
  let w := match reply.hook with
    | some .invalidateAtEnd => w.act (.on r.key .invalidate)
    | some .invalidateAllAtEnd => w.act .invalidateAll
    | _ => w
  w.act (.on r.key (.settle r.ticket (reply.result r.default)))

/-- Take note that a client whose caller has returned is done. -/
def conclude (c : Client) (caller : Nat) (w : World) : World :=
  match (w.cache.cacheOf c.key).returned? caller with
  | some result => { w with log.done := w.log.done ++ [{ time := w.now, id := c.id, result }] }
  | none => w

def setClient (k : Task) (f : Client → Client) (w : World) : World :=
  { w with clients := w.clients.modify k f }

def begin (k : Task) (c : Client) (w : World) : World :=
  let caller := (w.cache.cacheOf c.key).callers.length
  let w := w.act (.on c.key .get)
  w.setClient k ({ · with caller := some caller })

def need (w : World) (c : Client) (caller : Nat) : TimedCache.Need :=
  (w.cache.cacheOf c.key).need caller

/-- Is the answer of the refresh there? -/
def replied (w : World) (key : String) (ticket : Nat) : Bool :=
  (w.refresh? key ticket).any fun r => r.call.due ≤ w.now

/-- A client goes away. -/
def depart (c : Client) (w : World) : World :=
  match c.caller with
  | some caller => w.act (.on c.key (.drop caller))
  | none => w

def move (plan : Plan) (k : Task) (w : World) : World × Turn × List Task :=
  match w.clients[k]? with
  | none => (w, .ends, [])
  | some c =>
    match c.aborted, c.caller with
    | true, _ => (w.depart c, .ends, [])
    | false, none => (w.begin k c, .continues, [])
    | false, some caller =>
      match w.need c caller with
      | .nothing => (w.conclude c caller, .ends, [])
      | .call ticket => (w.call plan c.key ticket, .continues, [])
      | .answer ticket =>
        match w.refresh? c.key ticket with
        | some r => if r.call.due ≤ w.now then (w.answer plan r, .continues, []) else (w, .waits, [])
        | none => (w, .waits, [])
      | .finish => (w.act (.on c.key (.finish caller)), .continues, [])

def stirs (w : World) (k : Task) : Bool :=
  match w.clients[k]? with
  | some c =>
    c.aborted ||
      match c.caller.map (w.need c) with
      | some (.answer ticket) => w.replied c.key ticket
      | _ => true
  | none => true

/-- The call of the refresh that a client waits for. -/
def awaited? (w : World) (k : Task) : Option Call := do
  let c ← w.clients[k]?
  match w.need c (← c.caller) with
  | .answer ticket => return (← w.refresh? c.key ticket).call
  | _ => none

def alarm (w : World) (k : Task) : Option Duration := (w.awaited? k).map (·.due)

/-- Those who wait for an earlier call go first. -/
def rank (w : World) (k : Task) : Nat := ((w.awaited? k).map (·.number)).getD 0

end World

def conduct (plan : Plan) : Conduct World Task where
  clock := World.now
  elapse target w := w.act (.pass (target - w.now))
  move := World.move plan
  stirs := World.stirs
  alarm := World.alarm
  rank := World.rank
  costs _ _ := false

def enlist (q : Request) (r : Run World Task) : Run World Task :=
  let clients := r.world.clients ++ [{ id := q.id, key := q.key }]
  { r with world := { r.world with clients } }.spawn [r.world.clients.length]

def abort (plan : Plan) (id : String) (r : Run World Task) : Run World Task :=
  match lastNamed id (r.world.clients.map (·.id)) with
  | none => r
  | some k => r.update (conduct plan) (·.setClient k ({ · with aborted := true }))

/-- Perform a step, and tell what was seen if it was one to peek. -/
def perform (plan : Plan) (r : Run World Task) :
    Step → Run World Task × Option (List (Option String))
  | .get requests => (requests.foldl (fun r q => enlist q r) r, none)
  | .advance time => (r.pass (conduct plan) time, none)
  | .invalidate key => (r.update (conduct plan) (·.act (.on key .invalidate)), none)
  | .invalidateAll => (r.update (conduct plan) (·.act .invalidateAll), none)
  | .peek keys => (r, some (keys.map r.world.cache.peek))
  | .abort id => (abort plan id r, none)

structure Answer where
  time : Duration
  peeked : Option (List (Option String))
  log : Log

/-- One step: perform it, let the tasks move, and hand out what was found and logged. -/
def answer (plan : Plan) (r : Run World Task) (s : Timed Step) : Run World Task × Answer :=
  let (r, peeked) := perform plan { r with world := { r.world with log := {} } } s.step
  let r := if s.settles then r.settle (conduct plan) Run.patience else r
  let log := { r.world.log with done := Done.inOrder r.world.log.done }
  (r, { time := r.world.now, peeked, log })

def answers (plan : Plan) (steps : List (Timed Step)) : List Answer :=
  (steps.foldl (fun (r, out) s =>
    let (r, a) := answer plan r s
    (r, out ++ [a])) (({ world := { cache := .new plan.ttl } } : Run World Task), [])).2

end IntentLoop.Scenario.Fetching
