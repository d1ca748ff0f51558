import IntentLoop.Engine.Threads
import IntentLoop.Proofs.Engine.Intake
/-!
# What one act does to an engine on threads

All that can come of an act is listed here, once for each of those who act. The worker mostly passes from
one thing that it has in hand to the next, and nothing else changes (`Passes`); the few acts of it that
others can see are the other cases of `Turned`. An effect is polled, dropped or done (`Lived`), and a call
of `destroy` goes from one wait to the next (`Resumed`). What every act keeps holds after every run
(`runFrom_induct`).
-/

namespace IntentLoop.Engine.Threads

variable {σ ι ε : Type} {S : Setup σ ι ε} {t : Threads σ ι ε}

/-! ### Runs -/

theorem runFrom_append (S : Setup σ ι ε) (t : Threads σ ι ε) (acts more : List (Act ι)) :
    t.runFrom S (acts ++ more) =
      (((t.runFrom S acts).1.runFrom S more).1,
        (t.runFrom S acts).2 ++ ((t.runFrom S acts).1.runFrom S more).2) :=
  History.after_append (step S) t acts more

theorem runFrom_cons (S : Setup σ ι ε) (t : Threads σ ι ε) (act : Act ι) (acts : List (Act ι)) :
    t.runFrom S (act :: acts) =
      (((t.step S act).1.runFrom S acts).1,
        (t.step S act).2 ++ ((t.step S act).1.runFrom S acts).2) :=
  History.after_cons (step S) t act acts

/-- A run is what came before an act of it, the act, and what came after. -/
theorem run_split (S : Setup σ ι ε) (pre : List (Act ι)) (act : Act ι) (post : List (Act ι)) :
    run S (pre ++ act :: post) =
      ((((run S pre).1.step S act).1.runFrom S post).1,
        (run S pre).2 ++ (((run S pre).1.step S act).2 ++
          (((run S pre).1.step S act).1.runFrom S post).2)) := by
  rw [run, runFrom_append, runFrom_cons]
  rfl

/-- **What holds at first and is kept by every act of a run holds after it.** -/
theorem runFrom_induct {S : Setup σ ι ε} {P : Threads σ ι ε → List (Event σ ι ε) → Prop}
    {t : Threads σ ι ε} {acts : List (Act ι)} (start : P t [])
    (keep : ∀ act ∈ acts, ∀ {t past}, P t past → P (t.step S act).1 (past ++ (t.step S act).2)) :
    P (t.runFrom S acts).1 (t.runFrom S acts).2 :=
  History.after_induct (step S) start keep

theorem isAlive_of_worker {t' : Threads σ ι ε} (h : t'.worker = t.worker) :
    t'.isAlive = t.isAlive := by
  rw [isAlive, h, ← isAlive]

theorem isAlive_of_alive {state : σ} {previous : Option ι} (h : t.worker = .alive state previous) :
    t.isAlive = true := by
  rw [isAlive, h]

/-! ### The worker -/

/-- The worker, alive in a state and after an intent, passes from one thing in hand to the next, and
nothing else changes. -/
inductive Passes (S : Setup σ ι ε) (state : σ) (previous : Option ι) (t : Threads σ ι ε) :
    (hand next : Hand σ ι ε) → List (Event σ ι ε) → Prop
  | clears (hs : t.shutdown = false) : Passes S state previous t .free .cleared []
  | quits (hs : t.shutdown = true) :
      Passes S state previous t .free (.leaving (.ok (.ok ()))) []
  | waits (hi : t.inbox = []) : Passes S state previous t .cleared .free []
  | compared {i : ι} {events : List (Event σ ι ε)} (hc : compare S previous i = (.ok false, events)) :
      Passes S state previous t (.taken i) (.fresh i) events
  | uncompared {i : ι} {p : Panic} {events : List (Event σ ι ε)}
      (hc : compare S previous i = (.error p, events)) :
      Passes S state previous t (.taken i) (.leaving (.error p)) events
  | validated {i : ι} (hv : S.rules.valid i state = .ok true) :
      Passes S state previous t (.fresh i) (.valid i) [.validated i state]
  | unvalidated {i : ι} {p : Panic} (hv : S.rules.valid i state = .error p) :
      Passes S state previous t (.fresh i) (.failed i p) [.validated i state]
  | unhandled {i : ι} (hh : S.handler = none) : Passes S state previous t (.valid i) (.launched i) []
  | alone {i : ι} {h : Handler σ ι ε} (hh : S.handler = some h) (hp : h.perform state i = .ok none) :
      Passes S state previous t (.valid i) (.launched i) [.performed state i]
  | handled {i : ι} {h : Handler σ ι ε} {effect : ε} (hh : S.handler = some h)
      (hp : h.perform state i = .ok (some effect)) :
      Passes S state previous t (.valid i) (.handled i effect) [.performed state i]
  | unperformed {i : ι} {h : Handler σ ι ε} {p : Panic} (hh : S.handler = some h)
      (hp : h.perform state i = .error p) :
      Passes S state previous t (.valid i) (.failed i p) [.performed state i]
  | reduced {i : ι} {next : σ} (hr : S.rules.reduce i state = .ok next) :
      Passes S state previous t (.launched i) (.reduced i next) [.reduced i state]
  | unreduced {i : ι} {p : Panic} (hr : S.rules.reduce i state = .error p) :
      Passes S state previous t (.launched i) (.failed i p) [.reduced i state]
  /-- The new state is not published. -/
  | same {i : ι} {next : σ}
      (h : t.broadcast.closed = true ∨ S.rules.same t.broadcast.last next = true) :
      Passes S state previous t (.reduced i next) (.kept i next) []
  | unobserved {i : ι} {next : σ} (ho : S.observer = none) :
      Passes S state previous t (.announced i next) (.kept i next) []
  | observed {i : ι} {next : σ} {o : Observer σ} (ho : S.observer = some o)
      (hn : o.notice next = .ok ()) :
      Passes S state previous t (.announced i next) (.kept i next) [.observed next]
  | unnoticed {i : ι} {next : σ} {o : Observer σ} {p : Panic} (ho : S.observer = some o)
      (hn : o.notice next = .error p) :
      Passes S state previous t (.announced i next) (.leaving (.error p)) [.observed next]
  | reported {i : ι} {p : Panic} :
      Passes S state previous t (.failed i p) (.reported i p)
        [.halted (failure S i p), .reported S.reporter component (failure S i p)]

/-- The worker is done with an intent that it drops. -/
inductive Skips (S : Setup σ ι ε) (state : σ) (previous : Option ι) (i : ι) :
    Hand σ ι ε → List (Event σ ι ε) → Prop
  | repeated {events : List (Event σ ι ε)} (hc : compare S previous i = (.ok true, events)) :
      Skips S state previous i (.taken i) (events ++ [.repeated i])
  | refused (hv : S.rules.valid i state = .ok false) :
      Skips S state previous i (.fresh i) [.validated i state, .refused i]

/-- A worker that is over. -/
def gone : Attempt (Except EngineError Unit) → Worker σ ι
  | .ok result => .returned result
  | .error p => .crashed p

/-- What is told of it. -/
def epitaph : Attempt (Except EngineError Unit) → List (Event σ ι ε)
  | .ok _ => []
  | .error p => [.crashed p]

/-- All that can come of an act of the worker. -/
inductive Turned (S : Setup σ ι ε) (t : Threads σ ι ε) : Threads σ ι ε × List (Event σ ι ε) → Prop
  | dead (h : t.isAlive = false) : Turned S t (t, [])
  | passes (state : σ) (previous : Option ι) (hand next : Hand σ ι ε) (events : List (Event σ ι ε))
      (hw : t.worker = .alive state previous) (hh : t.hand = hand)
      (hp : Passes S state previous t hand next events) : Turned S t (t.hold next, events)
  | takes (state : σ) (previous : Option ι) (i : ι) (rest : List ι)
      (hw : t.worker = .alive state previous) (hh : t.hand = .cleared) (hi : t.inbox = i :: rest) :
      Turned S t ({ t with inbox := rest, hand := .taken i }, [.received i])
  | skips (state : σ) (previous : Option ι) (i : ι) (hand : Hand σ ι ε) (events : List (Event σ ι ε))
      (hw : t.worker = .alive state previous) (hh : t.hand = hand)
      (hs : Skips S state previous i hand events) : Turned S t (t.done state i, events)
  | launches (state : σ) (previous : Option ι) (i : ι) (effect : ε)
      (hw : t.worker = .alive state previous) (hh : t.hand = .handled i effect) :
      Turned S t ({ t with effects := t.effects ++ [.resting], hand := .launched i },
        [.launched t.effects.length effect])
  | publishes (state : σ) (previous : Option ι) (i : ι) (next : σ)
      (hw : t.worker = .alive state previous) (hh : t.hand = .reduced i next)
      (hopen : t.broadcast.closed = false) (hdiff : S.rules.same t.broadcast.last next = false) :
      Turned S t
        ({ t with
            broadcast := (t.broadcast.publish S.rules.same next).2
            hand := .announced i next }, [.published next])
  | applies (state : σ) (previous : Option ι) (i : ι) (next : σ)
      (hw : t.worker = .alive state previous) (hh : t.hand = .kept i next) :
      Turned S t (t.done next i, [.applied i next])
  | halts (state : σ) (previous : Option ι) (i : ι) (p : Panic)
      (hw : t.worker = .alive state previous) (hh : t.hand = .reported i p) :
      Turned S t
        ({ t with
            status := .halted
            hand := .leaving (.ok
              (if S.settings.strict then .error (failure S i p) else .ok ())) }, [])
  | ends (state : σ) (previous : Option ι) (outcome : Attempt (Except EngineError Unit))
      (hw : t.worker = .alive state previous) (hh : t.hand = .leaving outcome) :
      Turned S t ({ t with worker := gone outcome, hand := .free, inbox := [] }, epitaph outcome)

theorem work_turned (S : Setup σ ι ε) (t : Threads σ ι ε) : Turned S t (t.work S) := by
  unfold work
  cases hw : t.worker with
  | returned | crashed => exact .dead (by rw [isAlive, hw])
  | alive state previous =>
    have passes : ∀ {hand next events}, t.hand = hand → Passes S state previous t hand next events →
        Turned S t (t.hold next, events) := fun hh hp => .passes _ _ _ _ _ hw hh hp
    dsimp only
    unfold goOn
    cases hh : t.hand with
    | free =>
      cases hs : t.shutdown with
      | true => exact passes hh (.quits hs)
      | false => exact passes hh (.clears hs)
    | cleared =>
      dsimp only
      cases hi : t.inbox with
      | nil => exact passes hh (.waits hi)
      | cons i rest => exact .takes state previous i rest hw hh hi
    | taken i =>
      dsimp only
      split
      · rename_i hc
        exact passes hh (.uncompared (Prod.ext hc rfl))
      · rename_i hc
        exact .skips state previous i _ _ hw hh (.repeated (Prod.ext hc rfl))
      · rename_i hc
        exact passes hh (.compared (Prod.ext hc rfl))
    | fresh i =>
      dsimp only
      cases hv : S.rules.valid i state with
      | error p => exact passes hh (.unvalidated hv)
      | ok valid =>
        cases valid with
        | false => exact .skips state previous i _ _ hw hh (.refused hv)
        | true => exact passes hh (.validated hv)
    | valid i =>
      dsimp only
      cases hs : S.handler with
      | none => exact passes hh (.unhandled hs)
      | some h =>
        dsimp only
        cases hp : h.perform state i with
        | error p => exact passes hh (.unperformed hs hp)
        | ok effect =>
          cases effect with
          | none => exact passes hh (.alone hs hp)
          | some effect => exact passes hh (.handled hs hp)
    | handled i effect => exact .launches state previous i effect hw hh
    | launched i =>
      dsimp only
      cases hr : S.rules.reduce i state with
      | error p => exact passes hh (.unreduced hr)
      | ok next => exact passes hh (.reduced hr)
    | reduced i next =>
      dsimp only
      by_cases hclosed : t.broadcast.closed = true ∨ S.rules.same t.broadcast.last next = true
      · have hno : (t.broadcast.publish S.rules.same next).1 = false := by
          simp [Broadcast.publish, hclosed]
        rw [hno]
        exact passes hh (.same hclosed)
      · have hyes : (t.broadcast.publish S.rules.same next).1 = true := by
          simp [Broadcast.publish, hclosed]
        rw [hyes]
        rw [not_or, Bool.not_eq_true, Bool.not_eq_true] at hclosed
        exact .publishes state previous i next hw hh hclosed.1 hclosed.2
    | announced i next =>
      dsimp only
      cases ho : S.observer with
      | none => exact passes hh (.unobserved ho)
      | some o =>
        dsimp only
        cases hn : o.notice next with
        | error p => exact passes hh (.unnoticed ho hn)
        | ok => exact passes hh (.observed ho hn)
    | kept i next => exact .applies state previous i next hw hh
    | failed i p => exact passes hh .reported
    | reported i p => exact .halts state previous i p hw hh
    | leaving outcome => cases outcome <;> exact .ends state previous _ hw hh

/-! ### Effects -/

/-- All that can come of an act of an effect. -/
inductive Lived (id : Nat) (t : Threads σ ι ε) : Threads σ ι ε × List (Event σ ι ε) → Prop
  | still : Lived id t (t, [])
  /-- It is polled. -/
  | begins (hl : t.effects[id]? = some .resting) (hs : t.isSignalled id = false) :
      Lived id t (t.setLife id .polled, [])
  /-- It found the signal. -/
  | drops (hl : t.effects[id]? = some .resting) (hs : t.isSignalled id = true) :
      Lived id t (t.setLife id .dropping, [])
  | sends (i : ι) (hl : t.effects[id]? = some .polled ∨ t.effects[id]? = some .dropping) :
      Lived id t (t.submit i)
  | rests (hl : t.effects[id]? = some .polled) : Lived id t (t.setLife id .resting, [])
  | ends (how : Ending) (hl : t.effects[id]? = some .polled) (hhow : how ≠ .cancelled) :
      Lived id t (t.finish id how)
  | cancelled (hl : t.effects[id]? = some .dropping) : Lived id t (t.finish id .cancelled)

theorem look_lived (id : Nat) (t : Threads σ ι ε) : Lived id t (t.look id) := by
  unfold look
  split
  · rename_i hl
    cases hs : t.isSignalled id with
    | true => exact .drops hl hs
    | false => exact .begins hl hs
  · exact .still

theorem send_lived (id : Nat) (i : ι) (t : Threads σ ι ε) : Lived id t (t.send id i) := by
  unfold send
  split
  · rename_i hl
    exact .sends i (Or.inl hl)
  · rename_i hl
    exact .sends i (Or.inr hl)
  · exact .still

theorem leave_lived (id : Nat) (exit : Exit) (t : Threads σ ι ε) : Lived id t (t.leave id exit) := by
  unfold leave
  split
  · exact .rests ‹_›
  · exact .ends .completed ‹_› nofun
  · exact .ends .panicked ‹_› nofun
  · exact .cancelled ‹_›
  · exact .still

/-! ### Calls of `destroy` -/

/-- All that can come of looking whether a call of `destroy` can go on. -/
inductive Resumed (id : Nat) (t : Threads σ ι ε) : Threads σ ι ε × List (Event σ ι ε) → Prop
  | still (h : t.canResume id = false) : Resumed id t (t, [])
  | freed (hs : t.shutdown = true) (hc : t.teardowns[id]? = some .awaitingEffects)
      (hn : t.active = 0) : Resumed id t (t.setCall id .freed, [])
  | claimed (hs : t.shutdown = true) (hc : t.teardowns[id]? = some .freed) (hno : t.claimed = false) :
      Resumed id t ({ t.setCall id .awaitingWorker with claimed := true }, [])
  /-- Another call has taken the worker. -/
  | spared (hs : t.shutdown = true) (hc : t.teardowns[id]? = some .freed) (hyes : t.claimed = true) :
      Resumed id t (t.finishTeardown id (.ok ()))
  | joined (result : Except EngineError Unit) (hs : t.shutdown = true)
      (hc : t.teardowns[id]? = some .awaitingWorker) (ho : t.outcome? = some result) :
      Resumed id t (t.finishTeardown id result)

theorem outcome?_isSome (t : Threads σ ι ε) : t.outcome?.isSome = !t.isAlive := by
  unfold outcome? isAlive
  cases t.worker <;> rfl

theorem resume_resumed (id : Nat) (t : Threads σ ι ε) : Resumed id t (t.resume id) := by
  unfold resume
  cases hs : t.shutdown with
  | false => exact .still (by rw [canResume, hs, Bool.false_and])
  | true =>
    rw [if_pos rfl]
    cases hc : t.teardowns[id]? with
    | none => exact .still (by simp [canResume, hc])
    | some call =>
      cases call with
      | awaitingEffects =>
        dsimp only
        by_cases hn : t.active = 0
        · rw [if_pos hn]
          exact .freed hs hc hn
        · rw [if_neg hn]
          exact .still (by simp [canResume, hc, hn])
      | freed =>
        dsimp only
        cases hclaimed : t.claimed with
        | true => exact .spared hs hc hclaimed
        | false => exact .claimed hs hc hclaimed
      | awaitingWorker =>
        dsimp only
        cases ho : t.outcome? with
        | some result => exact .joined result hs hc ho
        | none =>
          have halive := t.outcome?_isSome
          rw [ho, Option.isSome_none] at halive
          exact .still (by simp [canResume, hc, ← halive])
      | returned result => exact .still (by simp [canResume, hc])

/-! ### Acts of others -/

/-- Whoever acts leaves this alone, but for the worker. -/
structure Aside (t : Threads σ ι ε) (after : Threads σ ι ε × List (Event σ ι ε)) : Prop where
  worker : after.1.worker = t.worker
  hand : after.1.hand = t.hand
  last : after.1.broadcast.last = t.broadcast.last
  length : after.1.effects.length = t.effects.length
  shutdown : t.shutdown = true → after.1.shutdown = true
  workless : Workless after.2

/-- What those who submit intents leave alone, and effects. -/
structure Untouched (t t' : Threads σ ι ε) : Prop where
  broadcast : t'.broadcast = t.broadcast
  status : t'.status = t.status
  shutdown : t'.shutdown = t.shutdown
  teardowns : t'.teardowns = t.teardowns
  claimed : t'.claimed = t.claimed

theorem submit_untouched (i : ι) (t : Threads σ ι ε) : Untouched t (t.submit i).1 := by
  unfold submit
  split <;> exact ⟨rfl, rfl, rfl, rfl, rfl⟩

theorem Lived.untouched {id : Nat} {after : Threads σ ι ε × List (Event σ ι ε)}
    (h : Lived id t after) : Untouched t after.1 := by
  cases h with
  | sends i => exact t.submit_untouched i
  | _ => exact ⟨rfl, rfl, rfl, rfl, rfl⟩

theorem submit_aside (i : ι) (t : Threads σ ι ε) : Aside t (t.submit i) := by
  unfold submit
  split <;> exact ⟨rfl, rfl, rfl, rfl, id, by simp [Workless, Event.ofWorker]⟩

theorem Lived.aside {id : Nat} {after : Threads σ ι ε × List (Event σ ι ε)} (h : Lived id t after) :
    Aside t after := by
  cases h with
  | still => exact ⟨rfl, rfl, rfl, rfl, fun hs => hs, nofun⟩
  | begins | drops | rests => exact ⟨rfl, rfl, rfl, List.length_set .., fun hs => hs, nofun⟩
  | sends i => exact t.submit_aside i
  | ends | cancelled =>
    exact ⟨rfl, rfl, rfl, List.length_set .., fun hs => hs,
      by simp [Workless, finish, Event.ofWorker]⟩

theorem Resumed.aside {id : Nat} {after : Threads σ ι ε × List (Event σ ι ε)} (h : Resumed id t after) :
    Aside t after := by
  cases h with
  | still | freed | claimed => exact ⟨rfl, rfl, rfl, rfl, fun hs => hs, nofun⟩
  | spared | joined =>
    exact ⟨rfl, rfl, rfl, rfl, fun hs => hs, by simp [Workless, finishTeardown, Event.ofWorker]⟩

theorem step_silence_cases (S : Setup σ ι ε) (t : Threads σ ι ε) (id : Nat) :
    t.step S (.silence id) = (t, []) ∨
      t.step S (.silence id) = ({ t with silenced := id :: t.silenced }, []) := by
  cases h : t.broadcast.closed with
  | false => exact Or.inl (by simp [step, h])
  | true => exact Or.inr (by simp [step, h])

theorem step_signal (S : Setup σ ι ε) (h : t.broadcast.closed = true) :
    t.step S .signal = ({ t with shutdown := true }, []) := by
  simp [step, h]

theorem step_signal_cases (S : Setup σ ι ε) (t : Threads σ ι ε) :
    t.broadcast.closed = false ∧ t.step S .signal = (t, []) ∨
      t.broadcast.closed = true ∧ t.step S .signal = ({ t with shutdown := true }, []) := by
  cases h : t.broadcast.closed with
  | false => exact Or.inl ⟨rfl, by simp [step, h]⟩
  | true => exact Or.inr ⟨rfl, step_signal S h⟩

theorem step_aside (S : Setup σ ι ε) (t : Threads σ ι ε) {act : Act ι} (h : act ≠ .work) :
    Aside t (t.step S act) := by
  have one : ∀ {event : Event σ ι ε}, event.ofWorker = false → Workless [event] :=
    fun h other hmem => List.mem_singleton.mp hmem ▸ h
  cases act with
  | work => exact absurd rfl h
  | submit i => exact t.submit_aside i
  | look id => exact (t.look_lived id).aside
  | send id i => exact (t.send_lived id i).aside
  | leave id exit => exact (t.leave_lived id exit).aside
  | resume id => exact (t.resume_resumed id).aside
  | read n => exact ⟨rfl, rfl, t.broadcast.read_last n, rfl, id, one rfl⟩
  | subscribe | unsubscribe | destroy | drop => exact ⟨rfl, rfl, rfl, rfl, id, one rfl⟩
  | silence k =>
    rcases step_silence_cases S t k with hs | hs <;> rw [hs] <;> exact ⟨rfl, rfl, rfl, rfl, id, nofun⟩
  | signal =>
    rcases step_signal_cases S t with ⟨-, hs⟩ | ⟨-, hs⟩ <;> rw [hs]
    · exact ⟨rfl, rfl, rfl, rfl, id, nofun⟩
    · exact ⟨rfl, rfl, rfl, rfl, fun _ => rfl, nofun⟩

/-- The intent that an act submits, if the engine takes it. -/
def Act.intent? : Act ι → Option ι
  | .submit i | .send _ i => some i
  | _ => none

/-- What was accepted is queued, and is what was submitted. -/
structure Queues (submitted : Option ι) (t : Threads σ ι ε)
    (after : Threads σ ι ε × List (Event σ ι ε)) : Prop where
  accepted : (acceptedIn after.2).Sublist submitted.toList
  inbox : after.1.inbox = t.inbox ++ acceptedIn after.2

theorem Queues.nothing {submitted : Option ι} {after : Threads σ ι ε × List (Event σ ι ε)}
    (hinbox : after.1.inbox = t.inbox) (hnone : acceptedIn after.2 = []) : Queues submitted t after where
  accepted := hnone ▸ List.nil_sublist _
  inbox := by rw [hnone, List.append_nil, hinbox]

theorem submit_queues (i : ι) (t : Threads σ ι ε) : Queues (some i) t (t.submit i) := by
  unfold submit
  split
  · exact ⟨List.Sublist.refl _, rfl⟩
  · exact .nothing rfl rfl

theorem Resumed.queues {id : Nat} {after : Threads σ ι ε × List (Event σ ι ε)} (h : Resumed id t after) :
    Queues none t after := by
  cases h <;> exact .nothing rfl rfl

theorem step_queues (S : Setup σ ι ε) (t : Threads σ ι ε) {act : Act ι} (h : act ≠ .work) :
    Queues act.intent? t (t.step S act) := by
  cases act with
  | work => exact absurd rfl h
  | submit i => exact t.submit_queues i
  | send id i =>
    show Queues (some i) t (t.send id i)
    unfold send
    split
    · exact t.submit_queues i
    · exact t.submit_queues i
    · exact .nothing rfl rfl
  | look id =>
    show Queues none t (t.look id)
    unfold look
    split <;> exact .nothing rfl rfl
  | leave id exit =>
    show Queues none t (t.leave id exit)
    unfold leave
    split <;> exact .nothing rfl rfl
  | resume id => exact (t.resume_resumed id).queues
  | subscribe | read | unsubscribe | destroy | drop => exact .nothing rfl rfl
  | silence k =>
    rcases step_silence_cases S t k with hs | hs <;> rw [hs] <;> exact .nothing rfl rfl
  | signal => rcases step_signal_cases S t with ⟨-, hs⟩ | ⟨-, hs⟩ <;> rw [hs] <;> exact .nothing rfl rfl

theorem Turned.shutdown {after : Threads σ ι ε × List (Event σ ι ε)} (h : Turned S t after) :
    after.1.shutdown = t.shutdown := by
  cases h <;> rfl

theorem step_shutdown (S : Setup σ ι ε) (h : t.shutdown = true) (act : Act ι) :
    (t.step S act).1.shutdown = true := by
  by_cases hact : act = .work
  · subst hact
    exact (work_turned S t).shutdown.trans h
  · exact (step_aside S t hact).shutdown h

theorem runFrom_shutdown (S : Setup σ ι ε) (h : t.shutdown = true) (acts : List (Act ι)) :
    (t.runFrom S acts).1.shutdown = true :=
  runFrom_induct (P := fun t' _ => t'.shutdown = true) h fun act _ _ _ h' => step_shutdown S h' act

end IntentLoop.Engine.Threads
