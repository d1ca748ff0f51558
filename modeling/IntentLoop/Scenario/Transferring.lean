import IntentLoop.Scenario.Logging
import IntentLoop.Scenario.Source
import IntentLoop.Transfer.Transfer
/-!
# Scripted transfers

All parts together, driven from outside step by step, with scripts for the checks, the rates and the
source of tokens. A check that goes well is worth its status, its token and its rate, parted by
colons; a transfer is settled by a value that begins with the word for it.
-/

namespace IntentLoop.Scenario.Transferring

open IntentLoop.Transfer

structure Scripts where
  interval : Duration
  retries : Nat
  rateTtl : Duration
  checks : Script String Unit
  rates : Script String Unit
  source : Source

def settledMark : String := "SETTLED"

def Scripts.plan (s : Scripts) : Plan where
  interval := s.interval
  retries := s.retries
  terms := { accepts := fun v => settledMark.toList.isPrefixOf v.toList, timer := Run.timer }
  rateTtl := some s.rateTtl
  tellsFailures := true
  executors := [{ reporter := some (.sink "auth") }]

inductive Step where
  | submit
  | reset
  | cancel
  | invalidateToken
  | invalidateRates
  | advance (time : Duration)
  | destroy

structure StateLine where
  time : Duration
  state : State

structure Log where
  checks : List Made := []
  rateCalls : List Made := []
  fetches : List Made := []
  reports : List Report := []
  states : List StateLine := []

/-- What the surroundings know of the check of an effect. -/
structure Checking where
  /-- Number of the check. -/
  number : Nat := 0
  /-- The token fetch or the request that it waits for. -/
  call : Option Call := none

/-- A call of the rates' refresh. -/
structure RateCall where
  ticket : Nat
  call : Call

structure World where
  transfer : Transfer
  now : Duration := 0
  checking : List Checking := []
  rateCalls : List RateCall := []
  checksMade : Nat := 0
  ratesMade : Nat := 0
  fetchesMade : Nat := 0
  log : Log := {}

inductive Task where
  | worker
  | effect (id : Nat)
  | teardown (id : Nat)
  deriving DecidableEq

namespace World

def setChecking (id : Nat) (f : Checking → Checking) (w : World) : World :=
  { w with checking := w.checking.modify id f }

def await (id number : Nat) (after : Duration) (w : World) : World :=
  w.setChecking id ({ · with call := some (Call.made number w.now after) })

/-- Take note of an event that came of a move of the effect `id`. -/
def record (s : Scripts) (id : Nat) (w : World) : Event → World
  | .engine (.launched _ _) => { w with checking := w.checking ++ [{}] }
  | .engine (.observed state) =>
    { w with log.states := w.log.states ++ [{ time := w.now, state }] }
  | .poller (.fetch _) =>
    let number := w.checksMade + 1
    { w.setChecking id ({ · with number }) with
      checksMade := number
      log.checks := w.log.checks ++ [{ number, time := w.now }] }
  | .rates (.called ticket) =>
    let number := w.ratesMade + 1
    let call := Call.made number w.now (s.rates.reply number).delay
    { w with
      ratesMade := number
      rateCalls := w.rateCalls ++ [{ ticket, call }]
      log.rateCalls := w.log.rateCalls ++ [{ number, time := w.now }] }
  | .access (.fetch _) =>
    let number := w.fetchesMade + 1
    { w.await id number (s.source.delay number) with
      fetchesMade := number
      log.fetches := w.log.fetches ++ [{ number, time := w.now }] }
  | .access (.requested _ _) =>
    let number := (w.checking[id]?.map (·.number)).getD 0
    w.await id number ((s.checks.reply number).delay)
  | .access (.reported _ reporter component text) =>
    { w with log.reports := w.log.reports ++ (report reporter component text).1 }
  | _ => w

def started : Event → Option Task
  | .engine (.launched id _) => some (.effect id)
  | _ => none

/-- An act in which the effect `id` moves, or none in particular. -/
def act (s : Scripts) (id : Nat) (a : Act) (w : World) : World × List Task :=
  let (transfer, events) := w.transfer.step s.plan a
  (events.foldl (record s id) { w with transfer }, events.filterMap started)

/-- Acts that start no task. -/
def acts (s : Scripts) (id : Nat) (acts : List Act) (w : World) : World :=
  acts.foldl (fun w a => (w.act s id a).1) w

/-- A poll of an effect for the sake of one move. -/
def moveEffect (s : Scripts) (id : Nat) (m : Move) (w : World) : World :=
  w.acts s id [.look id, .move id m, .leave id]

/-- An effect finds the signal, and its check, its session and the effect itself are dropped. -/
def dropEffect (s : Scripts) (id : Nat) (w : World) : World :=
  w.acts s id [.look id, .leave id, .leave id, .leave id]

/-- Time passes, but not on the wall clock. -/
def elapse (s : Scripts) (target : Duration) (w : World) : World :=
  { (w.act s 0 (.pass (target - w.now))).1 with now := target, transfer.access.wallClock := wallClock }

/-! ### What the surroundings answer -/

def rateResult (s : Scripts) (number : Nat) : Except String String :=
  (s.rates.reply number).result ("r" ++ toString number)

def checkResult (s : Scripts) (number : Nat) (token : Auth.Token) (rate : Option String) :
    Except Auth.RequestError String :=
  match (s.checks.reply number).result ("PENDING" ++ toString number) with
  | .ok status => .ok (String.intercalate ":" ([status, token.secret] ++ rate.toList))
  | .error e => .error (.request e)

/-- The call that an effect waits for. -/
def call? (w : World) (id : Nat) : Option Call := w.checking[id]?.bind (·.call)

def rateCall? (w : World) (ticket : Nat) : Option Call :=
  (w.rateCalls.find? (·.ticket == ticket)).map (·.call)

/-- What an effect does next: a move, which may count against its share, or a wait that lasts to the
given instant if nothing else happens. -/
inductive Prospect where
  | moves (m : Move) (counted : Bool)
  | waits (alarm : Option Duration)
  | over

/-- The move that makes use of the answer to a call, once it is there. It counts if the effect had to
wait for the answer. -/
def onceDue (w : World) (call : Option Call) (m : Nat → Move) : Prospect :=
  match call with
  | some c => if c.due ≤ w.now then .moves (m c.number) c.takesTime else .waits (some c.due)
  | none => .waits none

/-- Having a turn to fetch a token counts, and so does any wait for the next check, be it ever so
short. -/
def prospect (s : Scripts) (w : World) (id : Nat) : Prospect :=
  match w.transfer.stage id with
  | .launched | .rated _ _ | .checked _ _ => .moves .go false
  | .rating _ caller =>
    match w.transfer.rates.need caller with
    | .call _ => .moves .callRates false
    | .answer ticket =>
      w.onceDue (w.rateCall? ticket) fun number => .ratesAnswered (rateResult s number)
    | .finish | .nothing => .moves .takeRate false
  | .checking _ caller rate =>
    match w.transfer.access.stage? caller with
    | some .queued => .waits none
    | some .granted => .moves .takeTurn true
    | some (.fetching _) =>
      w.onceDue (w.call? id) fun number => .tokenFetched (s.source.token number)
    | some (.requesting token) =>
      w.onceDue (w.call? id) fun number => .answered (checkResult s number token rate)
    | _ => .over
  | .polling session =>
    match w.transfer.poller.stage? session with
    | some (.waiting _ due) =>
      if w.transfer.poller.canWake session then .moves .go true else .waits (some due)
    | some _ => .moves .go false
    | none => .over
  | .ended => .over

/-! ### Tasks -/

/-- A rate is shared by all who wait for it, and all of them are told when it is there, whoever has
seen to it included. -/
def leaving : Move → Turn
  | .ratesAnswered _ => .continuesRoused
  | _ => .continues

def move (s : Scripts) (w : World) : Task → World × Turn × List Task
  | .worker =>
    let e := w.transfer.engine
    if e.isAlive then
      if e.hand != .free || e.shutdown || !e.inbox.isEmpty then
        let (w, launched) := w.act s 0 .work
        (w, .continues, launched)
      else (w, .waits, [])
    else (w, .ends, [])
  | .effect id =>
    if w.transfer.engine.shutdown then (w.dropEffect s id, .ends, [])
    else
      match w.prospect s id with
      | .moves m _ => (w.moveEffect s id m, leaving m, [])
      | .waits _ => (w, .waits, [])
      | .over => (w, .ends, [])
  | .teardown id =>
    if w.transfer.engine.canResume id then ((w.act s 0 (.resume id)).1, .continues, [])
    else
      match w.transfer.engine.teardowns[id]? with
      | some (.returned _) | none => (w, .ends, [])
      | _ => (w, .waits, [])

def stirs (s : Scripts) (w : World) : Task → Bool
  | .worker =>
    let e := w.transfer.engine
    !e.isAlive || e.shutdown || !e.inbox.isEmpty
  | .effect id =>
    w.transfer.engine.shutdown ||
      match w.prospect s id with
      | .waits _ => false
      | .moves _ _ | .over => true
  | .teardown id => w.transfer.engine.canResume id

def alarm (s : Scripts) (w : World) : Task → Option Duration
  | .effect id =>
    match w.prospect s id with
    | .waits alarm => alarm
    | .moves _ _ | .over => none
  | .worker | .teardown _ => none

/-- Looking for an intent counts against the worker's share. -/
def costs (s : Scripts) (w : World) : Task → Bool
  | .worker => w.transfer.engine.hand == .free && !w.transfer.engine.shutdown
  | .effect id =>
    match w.prospect s id with
    | .moves _ counted => counted
    | .waits _ | .over => false
  | .teardown _ => false

end World

def conduct (s : Scripts) : Conduct World Task where
  clock := World.now
  elapse := World.elapse s
  move t w := w.move s t
  stirs := World.stirs s
  alarm := World.alarm s
  costs := World.costs s

/-! ### Steps -/

abbrev TransferRun := Run World Task

def settled (s : Scripts) (r : TransferRun) : TransferRun := r.settle (conduct s) Run.patience

/-- Something happens from outside any task. -/
def touch (s : Scripts) (acts : List Act) (r : TransferRun) : TransferRun :=
  r.update (conduct s) (World.acts s 0 acts)

/-- Perform a step, and tell with which result if it was one to tear the engine down. -/
def perform (s : Scripts) (r : TransferRun) :
    Step → TransferRun × Option (Except EngineError Unit)
  | .submit => (touch s [.submit] r, none)
  | .reset => (touch s [.reset] r, none)
  | .cancel => (touch s [.cancel] r, none)
  | .invalidateToken => (touch s [.invalidateToken] r, none)
  | .invalidateRates => (touch s [.invalidateRates] r, none)
  | .advance time => (r.pass (conduct s) time, none)
  | .destroy =>
    let id := r.world.transfer.engine.teardowns.length
    let r := settled s ((touch s [.destroy, .signal] r).spawn [.teardown id])
    match r.world.transfer.engine.teardowns[id]? with
    | some (.returned result) => (r, some result)
    | _ => (r, none)

structure Answer where
  time : Duration
  result : Option (Except EngineError Unit)
  active : Nat
  state : State
  log : Log

/-- One step: perform it, let the tasks move, and hand out what was found and logged. -/
def answer (s : Scripts) (r : TransferRun) (step : Step) : TransferRun × Answer :=
  let (r, result) := perform s { r with world := { r.world with log := {} } } step
  let r := settled s r
  let engine := r.world.transfer.engine
  (r, { time := r.world.now, result, active := engine.active, state := engine.current
        log := r.world.log })

def answers (s : Scripts) (steps : List Step) : List Answer :=
  let first : TransferRun :=
    { world := { transfer := .new s.plan wallClock }, ready := [.worker] }
  (steps.foldl (fun (r, out) step =>
    let (r, a) := answer s r step
    (r, out ++ [a])) (first, [])).2

end IntentLoop.Scenario.Transferring
