import IntentLoop.Engine.Engine
import IntentLoop.Scenario.Logging
import IntentLoop.Scenario.Script
import IntentLoop.Scenario.Wallet
/-!
# Scripted engines

One engine of a wallet, driven from outside step by step. The tasks are the worker, the launched
effects, the tasks that effects leave behind, and calls of `destroy`.
-/

namespace IntentLoop.Scenario.Operation

open IntentLoop.Engine
open IntentLoop.Scenario.Wallet (State Intent Effect)

abbrev WalletSetup := Setup State Intent (Effect Intent)

inductive Step where
  | process (intents : List Intent)
  /-- Through a sender that was taken at the start. -/
  | send (intents : List Intent)
  | closed
  /-- The status as told by a watcher that was there from the start. -/
  | watch
  | subscribe (id : String)
  | drain (id : String) (limit : Option Nat)
  | unsubscribe (id : String)
  | state
  | status
  | active
  | destroy
  | destroyTwice
  | drop
  | advance (time : Duration)

/-- What a step finds out. -/
inductive Finding where
  | nothing
  /-- The engine was let go earlier. -/
  | gone
  | sent (accepted : List Bool)
  | closed (closed : Bool)
  | watch (status : Status)
  /-- The states taken, and whether the stream is over, if that was found out. -/
  | drained (states : List State) (ended : Option Bool)
  | state (state : State)
  | status (status : Status)
  | active (count : Nat)
  | destroyed (result : Except EngineError Unit)
  | destroyedTwice (first second : Except EngineError Unit)

/-! ### Logs -/

structure Performed where
  handler : String
  intent : String
  previous : State

structure Observed where
  observer : String
  state : State

inductive EffectNote where
  | started
  | done
  | dropped
  | sent (accepted : Bool)
  /-- A submission by a task that nobody tracks: was the effect's signal there, was the engine
  closed, and was the intent accepted? -/
  | detached (cancelled closed accepted : Bool)

structure EffectLine where
  time : Duration
  /-- Effects are numbered from 1 in this log. -/
  number : Nat
  note : EffectNote

def EffectLine.precedes (a b : EffectLine) : Bool :=
  a.time < b.time || (a.time == b.time && a.number ≤ b.number)

structure Log where
  performed : List Performed := []
  observed : List Observed := []
  reports : List Report := []
  effects : List EffectLine := []

/-! ### The world -/

/-- Where a launched effect stands. -/
inductive Position where
  | fresh
  | pausing (due : Duration) (left : Nat)

structure Launched where
  effect : Effect Intent
  position : Position := .fresh

/-- A task that an effect left behind. -/
structure Detached where
  number : Nat
  due : Duration
  intents : List Intent

structure World where
  engine : Engine State Intent
  now : Duration := 0
  effects : List Launched := []
  detached : List Detached := []
  /-- The numbers of the streams that were subscribed to by name. -/
  streams : List (String × Nat) := []
  gone : Bool := false
  log : Log := {}
  lines : List LogLine := []

inductive Task where
  | worker
  | effect (id : Nat)
  | detached (index : Nat)
  | teardown (id : Nat)
  deriving DecidableEq

namespace World

def note (id : Nat) (note : EffectNote) (w : World) : World :=
  { w with log.effects := w.log.effects ++ [{ time := w.now, number := id + 1, note }] }

/-- Take note of an event of the engine. -/
def record (S : WalletSetup) (w : World) : Event State Intent (Effect Intent) → World
  | .performed previous i =>
    match S.handler with
    | some h =>
      { w with
        log.performed := w.log.performed ++ [{ handler := h.name, intent := i.describe, previous }] }
    | none => w
  | .launched _ effect => { w with effects := w.effects ++ [{ effect }] }
  | .observed state =>
    match S.observer with
    | some o => { w with log.observed := w.log.observed ++ [{ observer := o.name, state }] }
    | none => w
  | .halted error => { w with lines := w.lines ++ [haltedLine error.text] }
  | .reported reporter component error =>
    let (reports, lines) := report reporter component error.text
    { w with log.reports := w.log.reports ++ reports, lines := w.lines ++ lines }
  | .effectEnded id .completed => w.note id .done
  | .effectEnded id .cancelled | .effectEnded id .panicked => w.note id .dropped
  | _ => w

/-- The task that an event starts. -/
def started : Event State Intent (Effect Intent) → Option Task
  | .launched id _ => some (.effect id)
  | _ => none

def act (S : WalletSetup) (a : Act Intent) (w : World) : World × List Task :=
  let (engine, events) := w.engine.step S a
  (events.foldl (record S) { w with engine }, events.filterMap started)

def submit (S : WalletSetup) (i : Intent) (w : World) : World := (w.act S (.submit i)).1

/-! ### Effects -/

def pause (id : Nat) (after : Duration) (left : Nat) (w : World) : World :=
  { w with
    effects := w.effects.modify id fun l => { l with position := .pausing (Run.timer.due w.now after) left } }

/-- The effect ends, or waits, after it submitted some intents. -/
def moved (S : WalletSetup) (id : Nat) (intents : List Intent) (exit : Exit) (w : World) : World :=
  let accepted := w.engine.isAlive
  let w := intents.foldl (fun w _ => w.note id (.sent accepted)) w
  (w.act S (.effect id intents exit)).1

/-- The first move of an effect. -/
def begin (S : WalletSetup) (id : Nat) (w : World) : Effect Intent → World × Turn × List Task
  | .send after _ => (w.pause id after 1, .continues, [])
  | .again after times _ =>
    if times = 0 then (w.moved S id [] .completes, .ends, [])
    else (w.pause id after times, .continues, [])
  | .panic after => (w.pause id after 1, .continues, [])
  | .wait => (w.pause id 0 0, .waits, [])
  | .finish => (w.moved S id [] .completes, .ends, [])
  | .detached after intents =>
    let left : Detached := { number := id, due := Run.timer.due w.now after, intents }
    let w := { w with detached := w.detached ++ [left] }
    (w.moved S id [] .completes, .ends, [.detached (w.detached.length - 1)])

/-- A move of an effect whose pause is over. -/
def goOn (S : WalletSetup) (id left : Nat) (w : World) : Effect Intent → World × Turn
  | .send _ intents => (w.moved S id intents .completes, .ends)
  | .again after _ intent =>
    if w.engine.isAlive && 1 < left then
      ((w.moved S id [intent] .waits).pause id after (left - 1), .continues)
    else
      ((w.moved S id [intent] .waits).moved S id [] .completes, .ends)
  | .panic _ => (w.moved S id [] .panics, .ends)
  | .wait | .finish | .detached _ _ => (w, .waits)

def moveEffect (S : WalletSetup) (id : Nat) (w : World) : World × Turn × List Task :=
  if w.engine.shutdown then (w.moved S id [] .waits, .ends, [])
  else
    match w.effects[id]? with
    | none => (w, .ends, [])
    | some { effect, position := .fresh } => (w.note id .started).begin S id effect
    | some { effect, position := .pausing due left } =>
      if due ≤ w.now then
        let (w, turn) := w.goOn S id left effect
        (w, turn, [])
      else (w, .waits, [])

/-- When the pause of an effect is over. -/
def effectAlarm (w : World) (id : Nat) : Option Duration :=
  match w.effects[id]? with
  | some { effect := .wait, .. } | some { position := .fresh, .. } | none => none
  | some { position := .pausing due _, .. } => some due

/-! ### Tasks -/

def moveDetached (S : WalletSetup) (w : World) (d : Detached) : World :=
  d.intents.foldl (fun w i =>
    let alive := w.engine.isAlive
    (w.note d.number (.detached w.engine.shutdown (!alive) alive)).submit S i) w

def move (S : WalletSetup) (w : World) : Task → World × Turn × List Task
  | .worker =>
    if w.engine.isAlive then
      if w.engine.shutdown || !w.engine.inbox.isEmpty then
        let (w, started) := w.act S .work
        (w, .continues, started)
      else (w, .waits, [])
    else (w, .ends, [])
  | .effect id => w.moveEffect S id
  | .detached k =>
    match w.detached[k]? with
    | some d => if d.due ≤ w.now then (w.moveDetached S d, .ends, []) else (w, .waits, [])
    | none => (w, .ends, [])
  | .teardown id =>
    if w.engine.canResume id then
      let (w, started) := w.act S (.resume id)
      (w, .continues, started)
    else
      match w.engine.teardowns[id]? with
      | some (.returned _) | none => (w, .ends, [])
      | _ => (w, .waits, [])

def alarm (w : World) : Task → Option Duration
  | .effect id => w.effectAlarm id
  | .detached k => (w.detached[k]?).map (·.due)
  | .worker | .teardown _ => none

def stirs (w : World) (t : Task) : Bool :=
  let due := (w.alarm t).any (· ≤ w.now)
  match t with
  | .worker => !w.engine.isAlive || w.engine.shutdown || !w.engine.inbox.isEmpty
  | .effect _ => w.engine.shutdown || due
  | .detached _ => due
  | .teardown id => w.engine.canResume id

/-- Taking an intent counts against the worker's share. -/
def costs (w : World) : Task → Bool
  | .worker => !w.engine.shutdown
  | _ => false

end World

def conduct (S : WalletSetup) : Conduct World Task where
  clock := World.now
  elapse target w := { w with now := target }
  move t w := w.move S t
  stirs := World.stirs
  alarm := World.alarm
  costs := World.costs

/-! ### Steps -/

abbrev OperationRun := Run World Task

def settled (S : WalletSetup) (r : OperationRun) : OperationRun :=
  r.settle (conduct S) Run.patience

/-- Change the engine from outside any task. -/
def touch (S : WalletSetup) (a : Act Intent) (r : OperationRun) : OperationRun :=
  r.update (conduct S) fun w => (w.act S a).1

/-- Take states out of a stream, and find out whether it is over unless the limit is reached. -/
def drain (S : WalletSetup) (n : Nat) : Nat → OperationRun → OperationRun × List State × Option Bool
  | 0, r => (r, [], none)
  | limit + 1, r =>
    let reading := (r.world.engine.broadcast.read n).1
    let after := touch S (.read n) r
    match reading with
    | .state s =>
      let (r, rest, ended) := drain S n limit after
      (r, s :: rest, ended)
    | .pending => (after, [], some false)
    | .ended => (after, [], some true)

def teardownResult (r : OperationRun) (id : Nat) : Except EngineError Unit :=
  match r.world.engine.teardowns[id]? with
  | some (.returned result) => result
  | _ => .ok ()

/-- Begin some calls of `destroy`, one after the other, and let them all return. -/
def tearDown (S : WalletSetup) (count : Nat) (r : OperationRun) :
    OperationRun × List (Except EngineError Unit) :=
  let first := r.world.engine.teardowns.length
  let ids := (List.range count).map (first + ·)
  let begun := ids.foldl (fun r _ => touch S .destroy r) r
  let r := settled S (begun.spawn (ids.map .teardown))
  (r, ids.map (teardownResult r))

/-- Put a name to a stream; the stream that had it before is let go. -/
def named (S : WalletSetup) (id : String) (stream : Option Nat) (r : OperationRun) : OperationRun :=
  let r := match r.world.streams.lookup id with
    | some old => touch S (.unsubscribe old) r
    | none => r
  let others := r.world.streams.filter (·.1 != id)
  { r with world := { r.world with streams := others ++ (stream.map fun n => (id, n)).toList } }

/-- Send intents one after the other and tell which were accepted. -/
def sendAll (S : WalletSetup) (intents : List Intent) (r : OperationRun) :
    OperationRun × List Bool :=
  intents.foldl (fun (r, accepted) i =>
    (touch S (.submit i) r, accepted ++ [r.world.engine.isAlive])) (r, [])

/-- Does the step need the engine itself? -/
def Step.needsEngine : Step → Bool
  | process _ | subscribe _ | state | status | active | destroy | destroyTwice => true
  | _ => false

def perform (S : WalletSetup) (r : OperationRun) (step : Step) : OperationRun × Finding :=
  if r.world.gone && step.needsEngine then (r, .gone)
  else
    match step with
    | .process intents => ((sendAll S intents r).1, .nothing)
    | .send intents =>
      let (r, accepted) := sendAll S intents r
      (r, .sent accepted)
    | .closed => (r, .closed (!r.world.engine.isAlive))
    | .watch => (r, .watch r.world.engine.status)
    | .subscribe id =>
      let stream := r.world.engine.broadcast.streams.length
      (named S id (some stream) (touch S .subscribe r), .nothing)
    | .drain id limit =>
      match r.world.streams.lookup id with
      | some n =>
        let queued := (r.world.engine.broadcast.streams[n]?.map (·.queue.length)).getD 0
        let (r, states, ended) := drain S n (limit.getD (queued + 1)) r
        (r, .drained states ended)
      | none => (r, .drained [] none)
    | .unsubscribe id => (named S id none r, .nothing)
    | .state => (r, .state r.world.engine.current)
    | .status => (r, .status r.world.engine.status)
    | .active => (r, .active r.world.engine.active)
    | .destroy =>
      match tearDown S 1 r with
      | (r, [result]) => (r, .destroyed result)
      | (r, _) => (r, .nothing)
    | .destroyTwice =>
      match tearDown S 2 r with
      | (r, [first, second]) => (r, .destroyedTwice first second)
      | (r, _) => (r, .nothing)
    | .drop =>
      if r.world.gone then (r, .nothing)
      else
        let r := touch S .drop r
        ({ r with world := { r.world with gone := true } }, .nothing)
    | .advance time => (r.pass (conduct S) time, .nothing)

structure Answer where
  time : Duration
  finding : Finding
  log : Log

/-- One step: perform it, let the tasks move, and hand out what was found and logged. -/
def answer (S : WalletSetup) (r : OperationRun) (s : Timed Step) : OperationRun × Answer :=
  let (r, finding) := perform S { r with world := { r.world with log := {} } } s.step
  let r := if s.settles then settled S r else r
  let log := { r.world.log with effects := r.world.log.effects.mergeSort EffectLine.precedes }
  (r, { time := r.world.now, finding, log })

/-- The answers to all steps, and what the program logged. -/
def answers (S : WalletSetup) (steps : List (Timed Step)) : List Answer × List LogLine :=
  let (r, out) := steps.foldl (fun (r, out) s =>
    let (r, a) := answer S r s
    (r, out ++ [a])) (({ world := { engine := .start S }, ready := [.worker] } : OperationRun), [])
  (out, r.world.lines)

end IntentLoop.Scenario.Operation
