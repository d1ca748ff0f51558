import IntentLoop.Engine.Engine
/-!
# Engines on threads

`Engine.step` has the worker, an effect or a call of `destroy` do in one act whatever it does between two
waits. So it goes where all of them take turns on one thread. On several threads others may come between
any two things that one of them does, and these are acts of their own here:

* The worker looks at the signal, then at the queue, and then makes one callback after the other; it
  launches, publishes, halts and ends on the way (`Hand`).
* An effect that is polled looks at its own signal first. If it is there, the effect is dropped, and what it
  holds may still submit intents before it is gone. If not, it goes on until it waits or ends (`Life`).
* A teardown closes the broadcast before it gives the signal, and the signal comes to the effects one by
  one and to all at last. A call of `destroy` that has found no effect left takes the worker only then.

Whatever is guarded by a lock or an atomic operation stays one act: a look at a signal, a queue or the
count of effects, a publication, a write of the status. `Threads.step` is the only way in which an engine
on threads changes, and every run of one is a list of `Threads.Act`s in any order. A run of
`Engine.step` is one of these.
-/

namespace IntentLoop.Engine

/-- What the worker is in the midst of. -/
inductive Hand (σ ι ε : Type) where
  | free
  /-- It found no signal, and looks at the queue next. -/
  | cleared
  | taken (intent : ι)
  /-- The intent is no repeat. -/
  | fresh (intent : ι)
  | valid (intent : ι)
  /-- The handler has returned an effect, which is to be launched. -/
  | handled (intent : ι) (effect : ε)
  /-- Whatever effect there is was launched, and the reduction is next. -/
  | launched (intent : ι)
  | reduced (intent : ι) (next : σ)
  /-- The new state was published, and the observer is to be told. -/
  | announced (intent : ι) (next : σ)
  | kept (intent : ι) (next : σ)
  | failed (intent : ι) (panic : Panic)
  /-- The failure was reported, and the status is to be written. -/
  | reported (intent : ι) (panic : Panic)
  /-- The worker is over, but for the queue that goes with it. -/
  | leaving (outcome : Attempt (Except EngineError Unit))
  deriving DecidableEq

/-- Where a launched effect stands. -/
inductive Life where
  | resting
  /-- It found no signal when this poll began. -/
  | polled
  /-- It found the signal, and is being dropped. -/
  | dropping
  | ended (how : Ending)
  deriving DecidableEq

def Life.isUnderWay : Life → Bool
  | resting | polled | dropping => true
  | ended _ => false

/-- Where a call of `destroy` stands. -/
inductive Call where
  | awaitingEffects
  /-- It has found no effect left. -/
  | freed
  | awaitingWorker
  | returned (result : Except EngineError Unit)
  deriving DecidableEq

structure Threads (σ ι ε : Type) where
  worker : Worker σ ι
  hand : Hand σ ι ε
  inbox : List ι
  broadcast : Broadcast σ
  status : Status
  shutdown : Bool
  effects : List Life
  /-- The effects to which the signal has come before it came to all. -/
  silenced : List Nat
  claimed : Bool
  teardowns : List Call
  deriving DecidableEq

namespace Threads

inductive Act (ι : Type) where
  /-- From anyone but a tracked effect. -/
  | submit (intent : ι)
  | work
  /-- An effect is polled, and looks at its signal. -/
  | look (effect : Nat)
  /-- An effect submits an intent, in a poll or out of what is dropped with it. -/
  | send (effect : Nat) (intent : ι)
  /-- An effect is done with its poll, or has been dropped. -/
  | leave (effect : Nat) (exit : Exit)
  | subscribe
  | read (stream : Nat)
  | unsubscribe (stream : Nat)
  /-- A new call of `destroy` closes the broadcast. -/
  | destroy
  /-- The engine is let go, which closes the broadcast too. -/
  | drop
  /-- A teardown gives the signal to an effect. -/
  | silence (effect : Nat)
  /-- A teardown has given the signal to all. -/
  | signal
  | resume (teardown : Nat)
  deriving DecidableEq

variable {σ ι ε : Type}

def start (S : Setup σ ι ε) : Threads σ ι ε :=
  { worker := .alive S.initial none, hand := .free, inbox := [], broadcast := .new S.initial
    status := .running, shutdown := false, effects := [], silenced := [], claimed := false
    teardowns := [] }

def isAlive (t : Threads σ ι ε) : Bool :=
  match t.worker with
  | .alive _ _ => true
  | .returned _ | .crashed _ => false

/-- The last published state. -/
def current (t : Threads σ ι ε) : σ := t.broadcast.last

/-- Number of effects that have not ended. -/
def active (t : Threads σ ι ε) : Nat := t.effects.countP (·.isUnderWay)

/-! ### The worker -/

def hold (hand : Hand σ ι ε) (t : Threads σ ι ε) : Threads σ ι ε := { t with hand }

/-- The worker is done with an intent. -/
def done (state : σ) (i : ι) (t : Threads σ ι ε) : Threads σ ι ε :=
  { t with worker := .alive state (some i), hand := .free }

/-- The error that an intent halts the engine with. -/
def failure (S : Setup σ ι ε) (i : ι) (p : Panic) : EngineError :=
  .reduction (S.rules.describe i) p.message

/-- The worker, alive in a state and after an intent, goes on with what it has in hand. -/
def goOn (S : Setup σ ι ε) (state : σ) (previous : Option ι) (t : Threads σ ι ε) :
    Threads σ ι ε × List (Event σ ι ε) :=
  match t.hand with
  | .free => (t.hold (if t.shutdown then .leaving (.ok (.ok ())) else .cleared), [])
  | .cleared =>
    match t.inbox with
    | [] => (t.hold .free, [])
    | i :: rest => ({ t with inbox := rest, hand := .taken i }, [.received i])
  | .taken i =>
    let (repeats, compared) := compare S previous i
    match repeats with
    | .error p => (t.hold (.leaving (.error p)), compared)
    | .ok true => (t.done state i, compared ++ [.repeated i])
    | .ok false => (t.hold (.fresh i), compared)
  | .fresh i =>
    match S.rules.valid i state with
    | .error p => (t.hold (.failed i p), [.validated i state])
    | .ok false => (t.done state i, [.validated i state, .refused i])
    | .ok true => (t.hold (.valid i), [.validated i state])
  | .valid i =>
    match S.handler with
    | none => (t.hold (.launched i), [])
    | some h =>
      match h.perform state i with
      | .error p => (t.hold (.failed i p), [.performed state i])
      | .ok none => (t.hold (.launched i), [.performed state i])
      | .ok (some effect) => (t.hold (.handled i effect), [.performed state i])
  | .handled i effect =>
    ({ t with effects := t.effects ++ [.resting], hand := .launched i },
      [.launched t.effects.length effect])
  | .launched i =>
    match S.rules.reduce i state with
    | .error p => (t.hold (.failed i p), [.reduced i state])
    | .ok next => (t.hold (.reduced i next), [.reduced i state])
  | .reduced i next =>
    let (published, broadcast) := t.broadcast.publish S.rules.same next
    if published then ({ t with broadcast, hand := .announced i next }, [.published next])
    else (t.hold (.kept i next), [])
  | .announced i next =>
    match S.observer with
    | none => (t.hold (.kept i next), [])
    | some o =>
      match o.notice next with
      | .error p => (t.hold (.leaving (.error p)), [.observed next])
      | .ok () => (t.hold (.kept i next), [.observed next])
  | .kept i next => (t.done next i, [.applied i next])
  | .failed i p =>
    (t.hold (.reported i p),
      [.halted (failure S i p), .reported S.reporter component (failure S i p)])
  | .reported i p =>
    ({ t with
        status := .halted
        hand := .leaving (.ok (if S.settings.strict then .error (failure S i p) else .ok ())) },
      [])
  | .leaving (.ok result) => ({ t with worker := .returned result, hand := .free, inbox := [] }, [])
  | .leaving (.error p) => ({ t with worker := .crashed p, hand := .free, inbox := [] }, [.crashed p])

def work (S : Setup σ ι ε) (t : Threads σ ι ε) : Threads σ ι ε × List (Event σ ι ε) :=
  match t.worker with
  | .alive state previous => t.goOn S state previous
  | .returned _ | .crashed _ => (t, [])

/-! ### Submissions and effects -/

def submit (i : ι) (t : Threads σ ι ε) : Threads σ ι ε × List (Event σ ι ε) :=
  if t.isAlive then ({ t with inbox := t.inbox ++ [i] }, [.accepted i]) else (t, [.rejected i])

def setLife (id : Nat) (life : Life) (t : Threads σ ι ε) : Threads σ ι ε :=
  { t with effects := t.effects.set id life }

/-- Has the signal come to this effect? -/
def isSignalled (id : Nat) (t : Threads σ ι ε) : Bool := t.shutdown || id ∈ t.silenced

def look (id : Nat) (t : Threads σ ι ε) : Threads σ ι ε × List (Event σ ι ε) :=
  match t.effects[id]? with
  | some .resting => (t.setLife id (if t.isSignalled id then .dropping else .polled), [])
  | _ => (t, [])

def send (id : Nat) (i : ι) (t : Threads σ ι ε) : Threads σ ι ε × List (Event σ ι ε) :=
  match t.effects[id]? with
  | some .polled | some .dropping => t.submit i
  | _ => (t, [])

def finish (id : Nat) (how : Ending) (t : Threads σ ι ε) : Threads σ ι ε × List (Event σ ι ε) :=
  (t.setLife id (.ended how), [.effectEnded id how])

def leave (id : Nat) (exit : Exit) (t : Threads σ ι ε) : Threads σ ι ε × List (Event σ ι ε) :=
  match t.effects[id]?, exit with
  | some .polled, .waits => (t.setLife id .resting, [])
  | some .polled, .completes => t.finish id .completed
  | some .polled, .panics => t.finish id .panicked
  | some .dropping, _ => t.finish id .cancelled
  | _, _ => (t, [])

/-! ### Teardown -/

/-- The outcome that a worker that has ended leaves. Of the loss of a worker only the words of its panic are
kept, not the number of its task. -/
def outcome? (t : Threads σ ι ε) : Option (Except EngineError Unit) :=
  match t.worker with
  | .alive _ _ => none
  | .returned result => some result
  | .crashed p => some (.error (.workerLost p.message))

def setCall (id : Nat) (call : Call) (t : Threads σ ι ε) : Threads σ ι ε :=
  { t with teardowns := t.teardowns.set id call }

def finishTeardown (id : Nat) (result : Except EngineError Unit) (t : Threads σ ι ε) :
    Threads σ ι ε × List (Event σ ι ε) :=
  ({ t.setCall id (.returned result) with status := .destroyed }, [.teardownEnded id result])

/-- Go on with a call of `destroy`, which waits for nothing before it has given the signal. -/
def resume (id : Nat) (t : Threads σ ι ε) : Threads σ ι ε × List (Event σ ι ε) :=
  if t.shutdown then
    match t.teardowns[id]? with
    | some .awaitingEffects => if t.active = 0 then (t.setCall id .freed, []) else (t, [])
    | some .freed =>
      if t.claimed then t.finishTeardown id (.ok ())
      else ({ t.setCall id .awaitingWorker with claimed := true }, [])
    | some .awaitingWorker =>
      match t.outcome? with
      | some result => t.finishTeardown id result
      | none => (t, [])
    | some (.returned _) | none => (t, [])
  else (t, [])

/-- Would `resume` change anything? -/
def canResume (t : Threads σ ι ε) (id : Nat) : Bool :=
  t.shutdown && match t.teardowns[id]? with
    | some .awaitingEffects => t.active == 0
    | some .freed => true
    | some .awaitingWorker => !t.isAlive
    | some (.returned _) | none => false

/-! ### Runs -/

def step (S : Setup σ ι ε) (t : Threads σ ι ε) : Act ι → Threads σ ι ε × List (Event σ ι ε)
  | .submit i => t.submit i
  | .work => t.work S
  | .look id => t.look id
  | .send id i => t.send id i
  | .leave id exit => t.leave id exit
  | .subscribe =>
    ({ t with broadcast := t.broadcast.subscribe }, [.subscribed t.broadcast.streams.length])
  | .read n =>
    let (reading, broadcast) := t.broadcast.read n
    ({ t with broadcast }, [.found n reading])
  | .unsubscribe n => ({ t with broadcast := t.broadcast.unsubscribe n }, [.unsubscribed n])
  | .destroy =>
    ({ t with broadcast := t.broadcast.close, teardowns := t.teardowns ++ [.awaitingEffects] },
      [.teardownBegun t.teardowns.length])
  | .drop => ({ t with broadcast := t.broadcast.close }, [.dropped])
  | .silence id => (if t.broadcast.closed then { t with silenced := id :: t.silenced } else t, [])
  | .signal => (if t.broadcast.closed then { t with shutdown := true } else t, [])
  | .resume id => t.resume id

/-- A run that goes on with one more act. -/
def extend (S : Setup σ ι ε) (past : Threads σ ι ε × List (Event σ ι ε)) (act : Act ι) :
    Threads σ ι ε × List (Event σ ι ε) :=
  let (next, events) := past.1.step S act
  (next, past.2 ++ events)

def runFrom (S : Setup σ ι ε) (t : Threads σ ι ε) (acts : List (Act ι)) :
    Threads σ ι ε × List (Event σ ι ε) := acts.foldl (extend S) (t, [])

def run (S : Setup σ ι ε) (acts : List (Act ι)) : Threads σ ι ε × List (Event σ ι ε) :=
  (start S).runFrom S acts

end Threads

end IntentLoop.Engine
