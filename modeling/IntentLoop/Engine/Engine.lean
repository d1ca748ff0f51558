import IntentLoop.Engine.Broadcast
import IntentLoop.Engine.Error
import IntentLoop.Engine.Setup
/-!
# The engine

One worker takes intents from a queue, one at a time. An intent that the filter calls a repeat of the
one received before it is dropped, and so is one that is not valid for the worker's state. Any other
is shown to the effect handler and then reduced; the new state is published unless it is the same as
the one published last, and replaces the worker's state in either case. A callback that breaks off
during validation, handling or reduction halts the engine, which reports the failure once. One that
breaks off in the filter or the observer takes the worker with it.

Effects run beside the worker. An engine knows of an effect only that it was launched and how it ended;
what it does between is an act of the surroundings, which may submit intents. Tearing down closes the
broadcast and signals shutdown; from then on an effect that moves is cancelled and a worker that moves
returns.

`Engine.step` is the only way in which an engine changes, and every run of one is a list of
`Engine.Act`s in any order. The callbacks, the sends and the endings of effects, publications,
reports and teardowns that come of an act are its events.

An act is all that the worker, an effect or a call of `destroy` does from one wait to the next. That
assumes that nobody else acts meanwhile, which is so where all of them share one thread, and that an effect
that is dropped submits nothing. As long as there is no teardown, several threads make no difference to
the worker, which reads nothing that others write but its queue. What a teardown may fall into is another
matter: `Engine.Threads` has an act for each step of each party, and every run here is one there
(`Threads.run_reached`).
-/

namespace IntentLoop

namespace Engine

/-- The health of an engine. -/
inductive Status where
  | running
  | halted
  | destroyed
  deriving DecidableEq

inductive Worker (σ ι : Type) where
  /-- With its state and the intent received last. -/
  | alive (state : σ) (previous : Option ι)
  | returned (result : Except EngineError Unit)
  | crashed (panic : Panic)
  deriving DecidableEq

/-- How an effect ends. -/
inductive Ending where
  | completed
  | cancelled
  | panicked
  deriving DecidableEq

inductive EffectStage where
  | running
  | ended (how : Ending)
  deriving DecidableEq

/-- Where a call of `destroy` stands. -/
inductive Teardown where
  | awaitingEffects
  /-- It has taken it upon itself to await the worker. -/
  | awaitingWorker
  | returned (result : Except EngineError Unit)
  deriving DecidableEq

end Engine

open Engine in
structure Engine (σ ι : Type) where
  worker : Worker σ ι
  inbox : List ι
  broadcast : Broadcast σ
  status : Status
  shutdown : Bool
  /-- All effects that were launched, by number. -/
  effects : List EffectStage
  /-- Has some teardown taken the worker's outcome? -/
  claimed : Bool
  /-- All calls of `destroy`, by number. -/
  teardowns : List Teardown
  deriving DecidableEq

namespace Engine

/-- How an effect leaves a move. -/
inductive Exit where
  | waits
  | completes
  | panics
  deriving DecidableEq

inductive Act (ι : Type) where
  /-- From anyone but a tracked effect. -/
  | submit (intent : ι)
  /-- The worker looks at the signal and the queue once. -/
  | work
  /-- A launched effect moves: it submits some intents and then waits or ends. -/
  | effect (id : Nat) (intents : List ι) (exit : Exit)
  | subscribe
  | read (stream : Nat)
  | unsubscribe (stream : Nat)
  /-- A new call of `destroy`. -/
  | destroy
  /-- A call of `destroy` looks whether what it awaits is over. -/
  | resume (teardown : Nat)
  /-- The engine is let go without a call of `destroy`. -/
  | drop
  deriving DecidableEq

inductive Event (σ ι ε : Type) where
  | accepted (intent : ι)
  | rejected (intent : ι)
  | received (intent : ι)
  /-- The filter was asked. -/
  | compared (previous next : ι)
  | repeated (intent : ι)
  | validated (intent : ι) (state : σ)
  | refused (intent : ι)
  /-- The effect handler was called. -/
  | performed (state : σ) (intent : ι)
  | launched (id : Nat) (effect : ε)
  /-- The reduction was called. -/
  | reduced (intent : ι) (state : σ)
  | applied (intent : ι) (next : σ)
  | published (state : σ)
  /-- The observer was called. -/
  | observed (state : σ)
  | halted (error : EngineError)
  /-- A report was made to the engine's reporter. -/
  | reported (reporter : Reporter) (component : String) (error : EngineError)
  | crashed (panic : Panic)
  | effectEnded (id : Nat) (how : Ending)
  | subscribed (stream : Nat)
  | found (stream : Nat) (reading : Reading σ)
  | unsubscribed (stream : Nat)
  | teardownBegun (id : Nat)
  | teardownEnded (id : Nat) (result : Except EngineError Unit)
  | dropped
  deriving DecidableEq

variable {σ ι ε : Type}

def start (S : Setup σ ι ε) : Engine σ ι :=
  { worker := .alive S.initial none, inbox := [], broadcast := .new S.initial, status := .running
    shutdown := false, effects := [], claimed := false, teardowns := [] }

/-- Does the engine take intents? -/
def isAlive (e : Engine σ ι) : Bool :=
  match e.worker with
  | .alive _ _ => true
  | .returned _ | .crashed _ => false

/-- The last published state. -/
def current (e : Engine σ ι) : σ := e.broadcast.last

/-- Number of effects that have not ended. -/
def active (e : Engine σ ι) : Nat := e.effects.count .running

/-! ### One intent -/

/-- What comes of a received intent. An effect named with a fate is launched whatever the fate. -/
inductive Fate (σ ε : Type) where
  /-- The filter broke off. -/
  | crashed (panic : Panic)
  | repeated
  | refused
  | failed (panic : Panic) (effect : Option ε)
  | applied (next : σ) (effect : Option ε)

/-- Is the intent a repeat? -/
def compare (S : Setup σ ι ε) (previous : Option ι) (i : ι) :
    Attempt Bool × List (Event σ ι ε) :=
  match previous with
  | none => (.ok false, [])
  | some p => (S.filter.repeats p i, [.compared p i])

/-- The effect that goes with the intent, launched under the number `id`. -/
def perform (S : Setup σ ι ε) (state : σ) (i : ι) (id : Nat) :
    Attempt (Option ε) × List (Event σ ι ε) :=
  match S.handler with
  | none => (.ok none, [])
  | some h =>
    match h.perform state i with
    | .error p => (.error p, [.performed state i])
    | .ok none => (.ok none, [.performed state i])
    | .ok (some effect) => (.ok (some effect), [.performed state i, .launched id effect])

/-- The fate of an intent that is received in a state after another intent, and the callbacks that
decided it. The number `id` is for the effect that may go with it. -/
def fate (S : Setup σ ι ε) (state : σ) (previous : Option ι) (i : ι) (id : Nat) :
    Fate σ ε × List (Event σ ι ε) :=
  let (repeats, compared) := compare S previous i
  match repeats with
  | .error p => (.crashed p, compared)
  | .ok true => (.repeated, compared ++ [.repeated i])
  | .ok false =>
    let validated := compared ++ [.validated i state]
    match S.rules.valid i state with
    | .error p => (.failed p none, validated)
    | .ok false => (.refused, validated ++ [.refused i])
    | .ok true =>
      let (effect, performed) := perform S state i id
      match effect with
      | .error p => (.failed p none, validated ++ performed)
      | .ok effect =>
        match S.rules.reduce i state with
        | .error p => (.failed p effect, validated ++ performed ++ [.reduced i state])
        | .ok next => (.applied next effect, validated ++ performed ++ [.reduced i state])

/-- Keep track of an effect that was launched. -/
def track (effect : Option ε) (e : Engine σ ι) : Engine σ ι :=
  if effect.isSome then { e with effects := e.effects ++ [.running] } else e

/-- The worker ends; nobody receives what is still queued. -/
def retire (worker : Worker σ ι) (e : Engine σ ι) : Engine σ ι := { e with worker, inbox := [] }

/-- The name under which engines report. -/
def component : String := "engine"

/-- The worker halts at an intent that broke off. -/
def halt (S : Setup σ ι ε) (i : ι) (p : Panic) (e : Engine σ ι) :
    Engine σ ι × List (Event σ ι ε) :=
  let error := EngineError.reduction (S.rules.describe i) p.message
  ({ e.retire (.returned (if S.settings.strict then .error error else .ok ())) with status := .halted },
    [.halted error, .reported S.reporter component error])

def crash (p : Panic) (e : Engine σ ι) : Engine σ ι × List (Event σ ι ε) :=
  (e.retire (.crashed p), [.crashed p])

/-- Publish a state and tell the observer of it. -/
def publish (S : Setup σ ι ε) (next : σ) (e : Engine σ ι) :
    Attempt Unit × Engine σ ι × List (Event σ ι ε) :=
  let (published, broadcast) := e.broadcast.publish S.rules.same next
  let e := { e with broadcast }
  if published then
    match S.observer with
    | none => (.ok (), e, [.published next])
    | some o => (o.notice next, e, [.published next, .observed next])
  else (.ok (), e, [])

/-- The worker, alive in a state and after an intent, takes the intent `i`. -/
def receive (S : Setup σ ι ε) (state : σ) (previous : Option ι) (i : ι) (e : Engine σ ι) :
    Engine σ ι × List (Event σ ι ε) :=
  let (fate, called) := fate S state previous i e.effects.length
  let called := .received i :: called
  match fate with
  | .crashed p =>
    let (e, crashed) := e.crash p
    (e, called ++ crashed)
  | .repeated | .refused => ({ e with worker := .alive state (some i) }, called)
  | .failed p effect =>
    let (e, halted) := (e.track effect).halt S i p
    (e, called ++ halted)
  | .applied next effect =>
    let (noticed, e, published) := (e.track effect).publish S next
    match noticed with
    | .ok () =>
      ({ e with worker := .alive next (some i) },
        called ++ published ++ [.applied i next])
    | .error p =>
      let (e, crashed) := e.crash p
      (e, called ++ published ++ crashed)

/-- The worker looks at the signal and then at the queue. -/
def work (S : Setup σ ι ε) (e : Engine σ ι) : Engine σ ι × List (Event σ ι ε) :=
  match e.worker with
  | .alive state previous =>
    if e.shutdown then (e.retire (.returned (.ok ())), [])
    else
      match e.inbox with
      | [] => (e, [])
      | i :: rest => { e with inbox := rest }.receive S state previous i
  | .returned _ | .crashed _ => (e, [])

/-! ### Submissions and effects -/

def submit (i : ι) (e : Engine σ ι) : Engine σ ι × List (Event σ ι ε) :=
  if e.isAlive then ({ e with inbox := e.inbox ++ [i] }, [.accepted i]) else (e, [.rejected i])

def submitAll (intents : List ι) (e : Engine σ ι) : Engine σ ι × List (Event σ ι ε) :=
  if e.isAlive then ({ e with inbox := e.inbox ++ intents }, intents.map .accepted)
  else (e, intents.map .rejected)

def endEffect (id : Nat) (how : Ending) (e : Engine σ ι) : Engine σ ι × List (Event σ ι ε) :=
  ({ e with effects := e.effects.set id (.ended how) }, [.effectEnded id how])

/-- A running effect moves, unless the signal is there, which it looks at first. -/
def moveEffect (id : Nat) (intents : List ι) (exit : Exit) (e : Engine σ ι) :
    Engine σ ι × List (Event σ ι ε) :=
  match e.effects[id]? with
  | some .running =>
    if e.shutdown then e.endEffect id .cancelled
    else
      let (e, sent) := e.submitAll intents
      match exit with
      | .waits => (e, sent)
      | .completes =>
        let (e, ended) := e.endEffect id .completed
        (e, sent ++ ended)
      | .panics =>
        let (e, ended) := e.endEffect id .panicked
        (e, sent ++ ended)
  | _ => (e, [])

/-! ### Teardown -/

/-- Stop delivery, then signal shutdown. -/
def stop (e : Engine σ ι) : Engine σ ι :=
  { e with broadcast := e.broadcast.close, shutdown := true }

/-- The outcome that a worker that has ended leaves. Of the loss of a worker only the words of its panic are
kept, not the number of its task. -/
def outcome? (e : Engine σ ι) : Option (Except EngineError Unit) :=
  match e.worker with
  | .alive _ _ => none
  | .returned result => some result
  | .crashed p => some (.error (.workerLost p.message))

def finishTeardown (id : Nat) (result : Except EngineError Unit) (e : Engine σ ι) :
    Engine σ ι × List (Event σ ι ε) :=
  ({ e with teardowns := e.teardowns.set id (.returned result), status := .destroyed },
    [.teardownEnded id result])

/-- Go on with a call of `destroy`. The first one that finds all effects ended awaits the worker;
a later one has nothing to wait for. -/
def resume (id : Nat) (e : Engine σ ι) : Engine σ ι × List (Event σ ι ε) :=
  match e.teardowns[id]? with
  | some .awaitingEffects =>
    if e.active = 0 then
      if e.claimed then e.finishTeardown id (.ok ())
      else ({ e with claimed := true, teardowns := e.teardowns.set id .awaitingWorker }, [])
    else (e, [])
  | some .awaitingWorker =>
    match e.outcome? with
    | some result => e.finishTeardown id result
    | none => (e, [])
  | _ => (e, [])

/-- Would `resume` change anything? -/
def canResume (e : Engine σ ι) (id : Nat) : Bool :=
  match e.teardowns[id]? with
  | some .awaitingEffects => e.active == 0
  | some .awaitingWorker => !e.isAlive
  | _ => false

/-! ### Runs -/

def step (S : Setup σ ι ε) (e : Engine σ ι) : Act ι → Engine σ ι × List (Event σ ι ε)
  | .submit i => e.submit i
  | .work => e.work S
  | .effect id intents exit => e.moveEffect id intents exit
  | .subscribe =>
    ({ e with broadcast := e.broadcast.subscribe }, [.subscribed e.broadcast.streams.length])
  | .read n =>
    let (reading, broadcast) := e.broadcast.read n
    ({ e with broadcast }, [.found n reading])
  | .unsubscribe n => ({ e with broadcast := e.broadcast.unsubscribe n }, [.unsubscribed n])
  | .destroy =>
    ({ e.stop with teardowns := e.teardowns ++ [.awaitingEffects] },
      [.teardownBegun e.teardowns.length])
  | .resume id => e.resume id
  | .drop => (e.stop, [.dropped])

/-- A run that goes on with one more act. -/
def extend (S : Setup σ ι ε) (past : Engine σ ι × List (Event σ ι ε)) (act : Act ι) :
    Engine σ ι × List (Event σ ι ε) :=
  let (next, events) := past.1.step S act
  (next, past.2 ++ events)

/-- A run from a given engine: the engine after a list of acts, and all events in order. -/
def runFrom (S : Setup σ ι ε) (e : Engine σ ι) (acts : List (Act ι)) :
    Engine σ ι × List (Event σ ι ε) := acts.foldl (extend S) (e, [])

def run (S : Setup σ ι ε) (acts : List (Act ι)) : Engine σ ι × List (Event σ ι ε) :=
  (start S).runFrom S acts

end Engine

end IntentLoop
