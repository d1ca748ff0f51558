import IntentLoop.Auth.Access
import IntentLoop.Auth.RequestError
import IntentLoop.Cache.TimedCache
import IntentLoop.Engine.Threads
import IntentLoop.Poll.Poller
import IntentLoop.Transfer.State
/-!
# Transfers

All parts together, on threads. The effect of a submission is one session of a poller. A fetch of that
session is a check: it looks up a rate in a cache, if the plan asks for rates, and then goes through an
executor to a request, whose answer is the value of the fetch. When the session is over, its outcome is
submitted to the engine; whether a failure is submitted too is a matter of the plan.

Everything that comes from outside (rates, tokens, answers to requests) is part of the acts. An effect is
polled, and looks at its signal; then it moves until it leaves the thread again. A move of it is one act of
one of the parts, or less, so that the worker, a teardown, a cancel and other effects may come between any
two of them. Only a part is taken to do in one act what `Access.step`, `TimedCache.step`, `Poller.step`
and `Engine.Threads.step` say. `Transfer.step` is the only way in which the parts change together.
-/

namespace IntentLoop

namespace Transfer

open IntentLoop.Auth (RequestError)

structure Plan where
  interval : Duration
  retries : Nat
  /-- What the sessions of the poller accept, and the timer that they wait by. -/
  terms : Poll.Terms String
  /-- How long a rate stays fresh; without it no rates are looked up. -/
  rateTtl : Option Duration
  /-- Is the failure of a session submitted to the engine? -/
  tellsFailures : Bool
  executors : List Auth.Executor

def Plan.family (plan : Plan) : Auth.Family String RequestError where
  executors := plan.executors
  fetchText := id
  requestText := RequestError.text
  lift := .login

/-- What an effect submits when its session is over. -/
def Plan.told? (plan : Plan) : Except RequestError (Poll.Outcome String) → Option Intent
  | .ok outcome => some (.outcome outcome)
  | .error e => if plan.tellsFailures then some (.broken e.text) else none

/-- Where the effect of a submission stands. -/
inductive Stage where
  | launched
  /-- Its session goes on, or waits for its next check. -/
  | polling (session : Nat)
  /-- A check waits for a rate, as a caller of the cache. -/
  | rating (session caller : Nat)
  | rated (session : Nat) (rate : String)
  /-- A check waits for its token or for the answer to its request, as a caller of the executor. -/
  | checking (session caller : Nat) (rate : Option String)
  /-- A check is over, which the session does not know yet. -/
  | checked (session : Nat) (result : Except RequestError String)
  | ended
  deriving DecidableEq

/-- How an effect in this stage leaves the thread. -/
def Stage.exit : Stage → Engine.Exit
  | ended => .completes
  | launched | polling _ | rating _ _ | rated _ _ | checking _ _ _ | checked _ _ => .waits

/-- A move of an effect, with what the surroundings answer. -/
inductive Move where
  /-- Go on with what does not have to be waited for. -/
  | go
  /-- Call the refresh of the rates that is due. -/
  | callRates
  | ratesAnswered (result : Except String String)
  | takeRate
  /-- Use the turn to fetch a token. -/
  | takeTurn
  | tokenFetched (result : Except String Auth.Token)
  | answered (result : Except RequestError String)
  deriving DecidableEq

inductive Act where
  | submit
  | reset
  | work
  /-- An effect is polled, and looks at its signal. -/
  | look (effect : Nat)
  | move (effect : Nat) (move : Move)
  /-- An effect leaves the thread, or lets go of one thing more that is dropped with it. -/
  | leave (effect : Nat)
  | cancel
  | invalidateToken
  | invalidateRates
  /-- A new call of `destroy` closes the broadcast. -/
  | destroy
  /-- A teardown gives the signal to an effect. -/
  | silence (effect : Nat)
  /-- A teardown has given the signal to all. -/
  | signal
  | resume (teardown : Nat)
  | pass (time : Duration)
  deriving DecidableEq

inductive Event where
  | engine (event : Engine.Event State Intent Effect)
  | poller (event : Poll.Event RequestError String)
  | access (event : Auth.Access.Event String RequestError String)
  | rates (event : Cache.TimedCache.Event String String)
  deriving DecidableEq

end Transfer

open Transfer in
structure Transfer where
  engine : Engine.Threads Transfer.State Transfer.Intent Transfer.Effect
  poller : Poll.Poller Auth.RequestError String
  access : Auth.Access String Auth.RequestError String
  rates : Cache.TimedCache String String
  /-- Where the engine's effects stand, by number. -/
  stages : List Stage
  deriving DecidableEq

namespace Transfer

open IntentLoop.Auth (RequestError)

def new (plan : Plan) (wallClock : Timestamp) : Transfer :=
  { engine := .start setup, poller := .new, access := .new wallClock
    rates := .new (plan.rateTtl.getD 0) 0, stages := [] }

/-! ### Acts of the parts -/

def onEngine (act : Engine.Threads.Act Intent) (t : Transfer) : Transfer × List Event :=
  let (engine, events) := t.engine.step setup act
  let launched := events.filterMap fun
    | .launched _ _ => some Stage.launched
    | _ => none
  ({ t with engine, stages := t.stages ++ launched }, events.map .engine)

def onPoller (plan : Plan) (act : Poll.Act RequestError String) (t : Transfer) :
    Transfer × List Event :=
  let (poller, events) := t.poller.step plan.terms act
  ({ t with poller }, events.map .poller)

def onAccess (plan : Plan) (act : Auth.Access.Act String RequestError String) (t : Transfer) :
    Transfer × List Event :=
  let (access, events) := t.access.step plan.family act
  ({ t with access }, events.map .access)

def onRates (act : Cache.TimedCache.Act String String) (t : Transfer) : Transfer × List Event :=
  let (rates, events) := t.rates.step act
  ({ t with rates }, events.map .rates)

/-- Where an effect stands; one that was never launched has nothing to do. -/
def stage (id : Nat) (t : Transfer) : Stage := t.stages[id]?.getD .ended

def setStage (id : Nat) (stage : Stage) (t : Transfer) : Transfer :=
  { t with stages := t.stages.set id stage }

/-! ### Checks -/

/-- An act of the executor for the caller of a check, and where that takes the check. -/
def request (plan : Plan) (id session caller : Nat) (rate : Option String)
    (act : Auth.Access.Act String RequestError String) (t : Transfer) : Transfer × List Event :=
  let (t, events) := t.onAccess plan act
  match t.access.stage? caller with
  | some (.returned (.request result)) => (t.setStage id (.checked session result), events)
  | _ => (t.setStage id (.checking session caller rate), events)

/-- A check goes through the executor. -/
def begin (plan : Plan) (id session : Nat) (rate : Option String) (t : Transfer) :
    Transfer × List Event :=
  t.request plan id session t.access.callers.length rate (.begin (.request 0))

/-- An act of the cache for the caller of a check, and where that takes the check. -/
def lookUp (id session caller : Nat) (act : Cache.TimedCache.Act String String) (t : Transfer) :
    Transfer × List Event :=
  let (t, events) := t.onRates act
  match t.rates.returned? caller with
  | some (.ok rate) => (t.setStage id (.rated session rate), events)
  | some (.error e) => (t.setStage id (.checked session (.error (.request e))), events)
  | none => (t.setStage id (.rating session caller), events)

/-- A check begins. -/
def check (plan : Plan) (id session : Nat) (t : Transfer) : Transfer × List Event :=
  match plan.rateTtl with
  | some _ => t.lookUp id session t.rates.callers.length .get
  | none => t.begin plan id session none

/-! ### Effects -/

/-- The effect begins its session. -/
def start (plan : Plan) (id : Nat) (t : Transfer) : Transfer × List Event :=
  let session := t.poller.sessions.length
  let (t, started) := t.onPoller plan (.start plan.interval plan.retries)
  (t.setStage id (.polling session), started)

/-- The session of an effect is over: the effect submits what it has to tell. -/
def conclude (plan : Plan) (id : Nat) (result : Except RequestError (Poll.Outcome String))
    (t : Transfer) : Transfer × List Event :=
  match plan.told? result with
  | some i => (t.setStage id .ended).onEngine (.send id i)
  | none => (t.setStage id .ended, [])

/-- The session of an effect goes on. -/
def proceed (plan : Plan) (id session : Nat) (t : Transfer) : Transfer × List Event :=
  match t.poller.stage? session with
  | some .opening | some (.cleared _ _) => t.onPoller plan (.proceed session)
  | some .fetching => t.check plan id session
  | some (.matching _) => t.onPoller plan (.matched session)
  | some (.waiting _ _) => t.onPoller plan (.look session)
  | some (.ended result) => t.conclude plan id result
  | some .dropped | none => (t, [])

/-- The session of an effect is told what its check came to. -/
def deliver (plan : Plan) (id session : Nat) (result : Except RequestError String) (t : Transfer) :
    Transfer × List Event :=
  let (t, fetched) := t.onPoller plan (.fetched session result)
  (t.setStage id (.polling session), fetched)

/-- A move of an effect that is being polled. A move that does not fit its stage does nothing. -/
def move (plan : Plan) (id : Nat) (stage : Stage) (m : Move) (t : Transfer) :
    Transfer × List Event :=
  match stage, m with
  | .launched, .go => t.start plan id
  | .polling session, .go => t.proceed plan id session
  | .rating session caller, .callRates =>
    match t.rates.need caller with
    | .call ticket => t.lookUp id session caller (.call ticket)
    | _ => (t, [])
  | .rating session caller, .ratesAnswered result =>
    match t.rates.need caller with
    | .answer ticket => t.lookUp id session caller (.settle ticket result)
    | _ => (t, [])
  | .rating session caller, .takeRate => t.lookUp id session caller (.finish caller)
  | .rated session rate, .go => t.begin plan id session (some rate)
  | .checking session caller rate, .takeTurn =>
    t.request plan id session caller rate (.resume caller)
  | .checking session caller rate, .tokenFetched result =>
    t.request plan id session caller rate (.fetched caller result)
  | .checking session caller rate, .answered result =>
    t.request plan id session caller rate (.answered caller result)
  | .checked session result, .go => t.deliver plan id session result
  | _, _ => (t, [])

def moveEffect (plan : Plan) (id : Nat) (m : Move) (t : Transfer) : Transfer × List Event :=
  match t.engine.effects[id]? with
  | some .polled => t.move plan id (t.stage id) m
  | _ => (t, [])

/-- What an effect that is dropped was about goes with it, first the caller of its check and then its
session. -/
def abandon (plan : Plan) (id : Nat) (stage : Stage) (t : Transfer) : Transfer × List Event :=
  match stage with
  | .rating session caller => (t.setStage id (.polling session)).onRates (.drop caller)
  | .checking session caller _ => (t.setStage id (.polling session)).onAccess plan (.drop caller)
  | .polling session | .rated session _ | .checked session _ =>
    (t.setStage id .ended).onPoller plan (.drop session)
  | .launched | .ended => (t.setStage id .ended, [])

/-- An effect leaves the thread. If it found the signal, it does so when nothing is left to be dropped. -/
def leave (plan : Plan) (id : Nat) (t : Transfer) : Transfer × List Event :=
  match t.engine.effects[id]? with
  | some .polled => t.onEngine (.leave id (t.stage id).exit)
  | some .dropping =>
    if t.stage id = .ended then t.onEngine (.leave id .waits) else t.abandon plan id (t.stage id)
  | _ => (t, [])

/-- Time passes for all parts alike. -/
def pass (plan : Plan) (d : Duration) (t : Transfer) : Transfer × List Event :=
  let (t, a) := t.onPoller plan (.pass d)
  let (t, b) := t.onAccess plan (.pass d)
  let (t, c) := t.onRates (.pass d)
  (t, a ++ b ++ c)

def step (plan : Plan) (t : Transfer) : Act → Transfer × List Event
  | .submit => t.onEngine (.submit .submit)
  | .reset => t.onEngine (.submit .reset)
  | .work => t.onEngine .work
  | .look id => t.onEngine (.look id)
  | .move id m => t.moveEffect plan id m
  | .leave id => t.leave plan id
  | .cancel => t.onPoller plan .cancel
  | .invalidateToken => t.onAccess plan .invalidate
  | .invalidateRates => t.onRates .invalidate
  | .destroy => t.onEngine .destroy
  | .silence id => t.onEngine (.silence id)
  | .signal => t.onEngine .signal
  | .resume id => t.onEngine (.resume id)
  | .pass d => t.pass plan d

/-- A run: the parts after a list of acts, and what happened. -/
def run (plan : Plan) (wallClock : Timestamp) (acts : List Act) : Transfer × List Event :=
  acts.foldl (fun (t, past) act =>
    let (next, events) := t.step plan act
    (next, past ++ events)) (new plan wallClock, [])

end Transfer

end IntentLoop
