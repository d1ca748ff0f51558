/-!
# The broadcast of states

A broadcast remembers the state that was published last and feeds any number of streams. A stream
begins with the state that is current when it is made, then holds every state published after that,
in order, until its reader takes them. A state that is the same as the last one is not published.
Closing the broadcast ends every stream behind what it still holds, and a stream made later is over at
once.

Streams are numbered in the order in which they were made. A stream whose reader went away is let go
by the next publication.
-/

namespace IntentLoop

structure StateStream (σ : Type) where
  queue : List σ
  /-- Is the stream still fed? -/
  attached : Bool
  /-- Is there still a reader? -/
  held : Bool
  deriving DecidableEq

/-- What a reader finds. -/
inductive Reading (σ : Type) where
  | state (s : σ)
  | pending
  | ended
  deriving DecidableEq

namespace Reading

variable {σ : Type}

/-- What a reader gets who waits for the next state: nothing yet, a state, or the end. -/
def awaited : Reading σ → Option (Option σ)
  | state s => some (some s)
  | pending => none
  | ended => some none

/-- What a reader gets who only takes a state that is there already. -/
def taken : Reading σ → Option σ
  | state s => some s
  | pending | ended => none

end Reading

namespace StateStream

variable {σ : Type}

/-- Hand a published state to the stream. -/
def deliver (s : σ) (stream : StateStream σ) : StateStream σ :=
  if stream.attached && stream.held then { stream with queue := stream.queue ++ [s] }
  else { stream with attached := false }

/-- What a reader who asks now finds, and the stream after that. -/
def read (stream : StateStream σ) : Reading σ × StateStream σ :=
  match stream.queue with
  | s :: rest => (.state s, { stream with queue := rest })
  | [] => (if stream.attached then .pending else .ended, stream)

end StateStream

structure Broadcast (σ : Type) where
  last : σ
  closed : Bool
  streams : List (StateStream σ)
  deriving DecidableEq

namespace Broadcast

variable {σ : Type}

def new (initial : σ) : Broadcast σ := { last := initial, closed := false, streams := [] }

/-- Publish a state, and tell whether it was. -/
def publish (same : σ → σ → Bool) (next : σ) (b : Broadcast σ) : Bool × Broadcast σ :=
  if b.closed || same b.last next then (false, b)
  else (true, { b with last := next, streams := b.streams.map (·.deliver next) })

def subscribe (b : Broadcast σ) : Broadcast σ :=
  { b with
    streams := b.streams ++
      [{ queue := if b.closed then [] else [b.last], attached := !b.closed, held := true }] }

def read (n : Nat) (b : Broadcast σ) : Reading σ × Broadcast σ :=
  match b.streams[n]? with
  | some stream =>
    if stream.held then
      let (reading, stream) := stream.read
      (reading, { b with streams := b.streams.set n stream })
    else (.ended, b)
  | none => (.ended, b)

@[simp] theorem read_last (n : Nat) (b : Broadcast σ) : (b.read n).2.last = b.last := by
  unfold read
  repeat' split
  all_goals rfl

@[simp] theorem read_closed (n : Nat) (b : Broadcast σ) : (b.read n).2.closed = b.closed := by
  unfold read
  repeat' split
  all_goals rfl

/-- The reader of a stream goes away, and what the stream still holds with it. -/
def unsubscribe (n : Nat) (b : Broadcast σ) : Broadcast σ :=
  { b with streams := b.streams.modify n fun s => { s with held := false, queue := [] } }

def close (b : Broadcast σ) : Broadcast σ :=
  { b with closed := true, streams := b.streams.map fun s => { s with attached := false } }

end Broadcast

end IntentLoop
