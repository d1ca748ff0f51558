import IntentLoop.Duration
/-!
# Tasks on one thread

A run holds a world, the tasks that are ready to move, in the order in which they became ready, and
the tasks that wait, in the order in which they began to. The first ready task has the thread. It
moves until it waits, ends, or steps aside; whatever a move makes possible for waiting tasks puts
these at the end of the ready ones, by rank and then in the order in which they wait. A waiting task
that has become ready keeps its place among those who wait until it gets on, so that one who finds on
its turn that it still has to wait has lost nothing.

Some moves count against a task's share of the thread. A task that has used up its share steps aside
before the next such move. Those aside come back, the last one first, when no task is ready, and also
when a whole round of turns has gone by.

Time is virtual. It moves only by `Run.advance`, from one alarm of a waiting task to the next, and
all tasks whose alarm is due become ready together before any of them moves.

What a task does is a function of the world alone (`Conduct`), so a run is determined by its world
and its tasks. The loops take a bound on the number of moves as an argument; a run that stands still
before the bound is spent is not affected by it.
-/

namespace IntentLoop

namespace Duration

/-- The longest that a task waits: thirty years of 365 days. -/
def longestWait : Duration := ofSecs (86400 * 365 * 30)

/-- When a wait of a task is over that begins `now`. Waits end on whole milliseconds. -/
def deadline (now wait : Duration) : Duration := roundUpToMillis (now + min wait longestWait)

end Duration

/-- How a task leaves a move. -/
inductive Turn where
  | continues
  /-- It goes on, and is told of something that it has brought about itself. It becomes ready once
  more as soon as it leaves the thread. -/
  | continuesRoused
  | waits
  | ends

/-- The behaviour of tasks `τ` in a world `ω`. -/
structure Conduct (ω τ : Type) where
  clock : ω → Nat
  /-- Put the clock forward to an instant. -/
  elapse : Nat → ω → ω
  /-- One move: the new world, how the task leaves the move, the tasks that it started. -/
  move : τ → ω → ω × Turn × List τ
  /-- Has what the waiting task waits for come about? -/
  stirs : ω → τ → Bool
  /-- When the waiting task will stir if nothing else happens. -/
  alarm : ω → τ → Option Nat
  /-- Of waiting tasks that stir together, those of lower rank go first. -/
  rank : ω → τ → Nat := fun _ _ => 0
  /-- Does the next move count against the task's share of the thread? -/
  costs : ω → τ → Bool

/-- How many counted moves a task may make before it steps aside. -/
def Conduct.share : Nat := 128

/-- How many turns tasks have in a round. -/
def Conduct.round : Nat := 61

structure Run (ω τ : Type) where
  world : ω
  ready : List τ := []
  /-- Tasks that wait, those included that are ready and have not had the thread since. -/
  waiting : List τ := []
  /-- Tasks that have stepped aside, the last one first. -/
  aside : List τ := []
  /-- Turns of this round. -/
  turns : Nat := 0
  /-- Counted moves of the task that has the thread. -/
  spent : Nat := 0
  /-- Has the task that has the thread been told of something meanwhile? -/
  roused : Bool := false

namespace Run

variable {ω τ : Type}

def spawn (r : Run ω τ) (tasks : List τ) : Run ω τ :=
  { r with ready := r.ready ++ tasks }

variable [DecidableEq τ]

/-- Make ready the waiting tasks for which the wait is over. -/
def stir (C : Conduct ω τ) (r : Run ω τ) : Run ω τ :=
  let stirred := r.waiting.filter fun t => C.stirs r.world t && t ∉ r.ready
  { r with
    ready := r.ready ++ stirred.mergeSort fun s t => C.rank r.world s ≤ C.rank r.world t }

/-- Change the world from outside any task. -/
def update (C : Conduct ω τ) (f : ω → ω) (r : Run ω τ) : Run ω τ :=
  { r with world := f r.world }.stir C

/-- A new round begins, and the tasks aside are ready again. -/
def nextRound (r : Run ω τ) : Run ω τ :=
  { r with ready := r.ready ++ r.aside.filter (· ∉ r.ready), aside := [], turns := 0 }

/-- The task that had the thread has left it. -/
def leave (r : Run ω τ) : Run ω τ :=
  let r := { r with turns := r.turns + 1, spent := 0, roused := false }
  if Conduct.round ≤ r.turns then r.nextRound else r

/-- One move of the task that has the thread. -/
def turn (C : Conduct ω τ) (r : Run ω τ) : Run ω τ :=
  match r.ready with
  | [] => r.nextRound
  | t :: rest =>
    let again := if r.roused then [t] else []
    let aside := r.aside.filter (· ≠ t)
    let counted := C.costs r.world t
    if counted && Conduct.share ≤ r.spent then
      { r with ready := rest ++ again, aside := t :: aside }.leave
    else
      let (world, leaving, started) := C.move t r.world
      let ready := rest ++ started
      let waiting := r.waiting.filter (· ≠ t)
      let spent := if counted then r.spent + 1 else r.spent
      match leaving with
      | .continues => { r with world, ready := t :: ready, waiting, spent }.stir C
      | .continuesRoused =>
        { r with world, ready := t :: ready, waiting, spent, roused := true }.stir C
      | .waits =>
        let waiting := if t ∈ r.waiting then r.waiting else r.waiting ++ [t]
        ({ r with world, ready := ready ++ again, waiting, aside }.stir C).leave
      | .ends => ({ r with world, ready, waiting, aside }.stir C).leave

/-- Let tasks move until all wait. -/
def settle (C : Conduct ω τ) : Nat → Run ω τ → Run ω τ
  | 0, r => r
  | bound + 1, r =>
    match r.ready, r.aside with
    | [], [] => { r with turns := 0 }
    | _, _ => settle C bound (r.turn C)

/-- The first alarm among the waiting tasks. -/
def nextAlarm (C : Conduct ω τ) (r : Run ω τ) : Option Nat :=
  (r.waiting.filterMap (C.alarm r.world)).min?

/-- Let tasks move until all wait, and then put the clock forward to `target`, letting tasks move at
each alarm on the way. -/
def advance (C : Conduct ω τ) (moves : Nat) : Nat → Nat → Run ω τ → Run ω τ
  | 0, _, r => r
  | bound + 1, target, r =>
    let r := r.settle C moves
    match r.nextAlarm C with
    | some due =>
      if due ≤ target then
        advance C moves bound target (r.update C (C.elapse (max due (C.clock r.world))))
      else
        r.update C (C.elapse target)
    | none => r.update C (C.elapse target)

/-- The timer of a run. -/
def timer : Timer where
  due := Duration.deadline
  le_due _ _ := Nat.le_trans (Nat.le_add_right ..) (Duration.le_roundUpToMillis _)

/-- A bound on moves that no run of a finite script comes near. -/
def patience : Nat := 1000000000

/-- Have time pass, which is a wait like any other. -/
def pass (C : Conduct ω τ) (time : Duration) (r : Run ω τ) : Run ω τ :=
  r.advance C patience patience (timer.due (C.clock r.world) time)

end Run

end IntentLoop
