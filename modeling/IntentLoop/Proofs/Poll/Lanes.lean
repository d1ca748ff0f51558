import IntentLoop.Poll.Poller
import IntentLoop.Proofs.History
/-!
# The sessions of a poller, each in a lane of its own

Sessions share signals, and yet each of them goes its way as if it were alone: what it does depends on
its own acts, on the time, and on whether a cancel was made while it was live. `Lane` is what is left
of a poller if all else is left out.

* `Tidy`: live sessions are counted right, and each of them listens to the registered signal or to one
  that was raised.
* `lane_step`: looking at one lane commutes with every act on a tidy poller.
* `lane_runFrom`: so it does with runs, their events and instants included.

The shared signals appear in `lane_step` for the last time; what is said of sessions after it is said
of lanes.
-/

namespace IntentLoop.Poll

variable {ε α : Type} {T : Terms α}

/-- The session that an event is about. -/
def Event.session? : Event ε α → Option Nat
  | .started i | .fetch i | .evaluated i _ | .ended i _ | .dropped i => some i
  | .cancelled => none

def Act.isCancel : Act ε α → Bool
  | .cancel => true
  | _ => false

/-! ### Moves of a session -/

/-- Is the act one that moves session `i` when it is in this stage? -/
def Stage.takes (i : Nat) : Stage ε α → Act ε α → Bool
  | opening, .proceed j | cleared _ _, .proceed j => j = i
  | fetching, .fetched j _ => j = i
  | matching _, .matched j => j = i
  | waiting _ _, .look j => j = i
  | stage, .drop j => j = i && stage.isLive
  | _, _ => false

namespace Session

/-- All that an act can do to session `i`, given the time and whether its signal was raised. -/
inductive Acted (T : Terms α) (now : Duration) (i : Nat) (raised : Bool) (s : Session ε α) :
    Act ε α → Session ε α × List (Event ε α) → Prop
  | still {act : Act ε α} (h : s.stage.takes i act = false) : Acted T now i raised s act (s, [])
  | opened (hs : s.stage = .opening) : Acted T now i raised s (.proceed i) (s.fetch i)
  | resumed (value : α) (due : Duration) (hs : s.stage = .cleared value due) (hdue : due ≤ now) :
      Acted T now i raised s (.proceed i) (s.fetch i)
  /-- It is too early for the next fetch. -/
  | early (value : α) (due : Duration) (hs : s.stage = .cleared value due) (hdue : ¬due ≤ now) :
      Acted T now i raised s (.proceed i) ({ s with stage := .waiting value due }, [])
  | failed (e : ε) (hs : s.stage = .fetching) :
      Acted T now i raised s (.fetched i (.error e)) (s.finish i (.error e))
  /-- It has a value, and notices a cancel. -/
  | noticed (value : α) (hs : s.stage = .fetching) (hr : raised = true) :
      Acted T now i raised s (.fetched i (.ok value)) (s.finish i (.ok (.cancelled value)))
  | asks (value : α) (hs : s.stage = .fetching) (hr : raised = false) :
      Acted T now i raised s (.fetched i (.ok value)) ({ s with stage := .matching value }, [])
  | concluded (value : α) (o : Outcome α) (hs : s.stage = .matching value)
      (hv : s.verdict T.accepts value = some o) :
      Acted T now i raised s (.matched i)
        ({ s with stage := .ended (.ok o) }, [.evaluated i value, .ended i (.ok o)])
  | waits (value : α) (hs : s.stage = .matching value) (hv : s.verdict T.accepts value = none) :
      Acted T now i raised s (.matched i)
        ({ s with stage := .waiting value (T.timer.due now s.interval) }, [.evaluated i value])
  /-- It waits, and notices a cancel. -/
  | halted (value : α) (due : Duration) (hs : s.stage = .waiting value due) (hr : raised = true) :
      Acted T now i raised s (.look i) (s.finish i (.ok (.cancelled value)))
  | clears (value : α) (due : Duration) (hs : s.stage = .waiting value due) (hr : raised = false) :
      Acted T now i raised s (.look i) ({ s with stage := .cleared value due }, [])
  | dropped (hs : s.isLive) :
      Acted T now i raised s (.drop i) ({ s with stage := .dropped }, [.dropped i])

/-- A move of session `i` is what comes of an act. -/
def IsMove (T : Terms α) (now : Duration) (i : Nat) (act : Act ε α)
    (move : Bool → Session ε α → Session ε α × List (Event ε α)) : Prop :=
  ∀ raised s, Acted T now i raised s act (move raised s)

section Moves

variable (T : Terms α) (now : Duration) (i : Nat)

theorem isMove_proceed : IsMove (ε := ε) T now i (.proceed i) fun _ => proceed now i := by
  intro raised s
  show Acted T now i raised s _ (s.proceed now i)
  unfold proceed
  cases hs : s.stage with
  | opening => exact .opened hs
  | cleared value due =>
    dsimp only
    split
    · exact .resumed value due hs ‹_›
    · exact .early value due hs ‹_›
  | fetching | matching | waiting | ended | dropped => exact .still (by rw [hs]; rfl)

theorem isMove_fetched (result : Except ε α) : IsMove T now i (.fetched i result) (fetched i result) := by
  intro raised s
  unfold fetched
  cases hs : s.stage with
  | fetching =>
    cases result with
    | error e => exact .failed e hs
    | ok value =>
      cases raised with
      | true => exact .noticed value hs rfl
      | false => exact .asks value hs rfl
  | opening | matching | waiting | cleared | ended | dropped => exact .still (by rw [hs]; rfl)

theorem isMove_matched : IsMove (ε := ε) T now i (.matched i) fun _ => matched T now i := by
  intro raised s
  show Acted T now i raised s _ (s.matched T now i)
  unfold matched
  cases hs : s.stage with
  | matching value =>
    dsimp only
    cases hv : s.verdict T.accepts value with
    | some o => exact .concluded value o hs hv
    | none => exact .waits value hs hv
  | opening | fetching | waiting | cleared | ended | dropped => exact .still (by rw [hs]; rfl)

theorem isMove_look : IsMove (ε := ε) T now i (.look i) (look i) := by
  intro raised s
  unfold look
  cases hs : s.stage with
  | waiting value due =>
    cases raised with
    | true => exact .halted value due hs rfl
    | false => exact .clears value due hs rfl
  | opening | fetching | matching | cleared | ended | dropped => exact .still (by rw [hs]; rfl)

theorem isMove_drop : IsMove (ε := ε) T now i (.drop i) fun _ => drop i := by
  intro raised s
  show Acted T now i raised s _ (s.drop i)
  unfold drop
  cases hlive : s.isLive with
  | true => exact .dropped hlive
  | false =>
    have hno : s.stage.isLive = false := hlive
    refine .still ?_
    cases hs : s.stage <;> simp [Stage.takes, hs ▸ hno]

end Moves

namespace Acted

variable {T : Terms α} {now : Duration} {i : Nat} {raised : Bool} {s : Session ε α} {act : Act ε α}
  {after : Session ε α × List (Event ε α)}

theorem finished (h : Acted T now i raised s act after) (hover : s.isLive = false) : after = (s, []) := by
  unfold isLive at hover
  cases h with
  | still => rfl
  | opened hs | resumed _ _ hs | early _ _ hs | failed _ hs | noticed _ hs | asks _ hs
  | concluded _ _ hs | waits _ hs | halted _ _ hs | clears _ _ hs =>
    rw [hs] at hover
    cases hover
  | dropped hs =>
    rw [isLive, hover] at hs
    cases hs

theorem about (h : Acted T now i raised s act after) : ∀ e ∈ after.2, e.session? = some i := by
  cases h <;> simp [fetch, finish, Event.session?]

/-- Whether the signal was raised matters only to a session that is live. -/
theorem live_and {move : Bool → Session ε α → Session ε α × List (Event ε α)}
    (h : IsMove T now i act move) (raised : Bool) (s : Session ε α) :
    move (s.isLive && raised) s = move raised s := by
  cases hs : s.isLive with
  | true => rw [Bool.true_and]
  | false => rw [(h _ s).finished hs, (h _ s).finished hs]

end Acted

end Session

/-! ### Tidy pollers -/

namespace Poller

variable {p : Poller ε α}

/-- Live sessions are counted, and a cancel made now would reach each that was not reached before. -/
structure Tidy (p : Poller ε α) : Prop where
  registered : p.registered < p.signals.length
  live : p.live = p.sessions.countP (·.session.isLive)
  held : ∀ m ∈ p.sessions, m.session.isLive → m.signal = p.registered ∨ p.raised m.signal

@[simp] theorem register_now (p : Poller ε α) : p.register.now = p.now := by
  unfold register
  split <;> rfl

@[simp] theorem register_live (p : Poller ε α) : p.register.live = p.live := by
  unfold register
  split <;> rfl

@[simp] theorem register_sessions (p : Poller ε α) : p.register.sessions = p.sessions := by
  unfold register
  split <;> rfl

theorem sessions_start (p : Poller ε α) (interval : Duration) (retries : Nat) :
    (p.start interval retries).sessions = p.sessions ++
      [{ signal := p.register.registered, session := .start interval retries }] := by
  rw [start, register_sessions]

theorem Tidy.new : Tidy (new : Poller ε α) where
  registered := Nat.one_pos
  live := rfl
  held := by simp [Poller.new]

theorem raised_register (p : Poller ε α) (signal : Nat) :
    p.register.raised signal = p.raised signal := by
  unfold register
  split
  · unfold raised
    rw [getElem?_append_singleton]
    split
    · rename_i h
      rw [List.getElem?_eq_none (Nat.le_of_eq h.symm)]
      rfl
    · rfl
  · rfl

theorem raised_registered_register (p : Poller ε α) :
    p.register.raised p.register.registered = false := by
  rw [raised_register]
  unfold register
  split
  · rw [raised, List.getElem?_eq_none (Nat.le_refl _)]
    rfl
  · rename_i h
    exact Bool.eq_false_iff.mpr fun hr => h (Or.inr hr)

theorem raised_cancel (h : p.registered < p.signals.length) (signal : Nat) :
    p.cancel.raised signal = (signal = p.registered || p.raised signal) := by
  unfold cancel raised
  rw [List.getElem?_set]
  by_cases hs : p.registered = signal
  · subst hs
    simp [h]
  · simp [hs, Ne.symm hs]

namespace Tidy

/-- Whoever is live listens to the signal that the next session will take, or was cancelled. -/
theorem held_register (h : Tidy p) {m : Member ε α} (hm : m ∈ p.sessions)
    (hlive : m.session.isLive) : m.signal = p.register.registered ∨ p.raised m.signal := by
  unfold register
  split
  · rename_i hfresh
    rcases hfresh with hnone | hraised
    · rw [h.live, List.countP_eq_zero] at hnone
      exact absurd hlive (hnone m hm)
    · rcases h.held m hm hlive with heq | hr
      · exact Or.inr (heq ▸ hraised)
      · exact Or.inr hr
  · exact h.held m hm hlive

theorem start (h : Tidy p) (interval : Duration) (retries : Nat) :
    Tidy (p.start interval retries) where
  registered := by
    show p.register.registered < p.register.signals.length
    unfold register
    split
    · simp
    · exact h.registered
  live := by
    show p.register.live + 1 = _
    rw [sessions_start, register_live, h.live, List.countP_append, List.countP_singleton]
    rfl
  held m hm hlive := by
    have hold : (p.start interval retries).raised m.signal = p.raised m.signal :=
      raised_register p m.signal
    rw [hold]
    rw [sessions_start, List.mem_append, List.mem_singleton] at hm
    rcases hm with hm | rfl
    · exact h.held_register hm hlive
    · exact Or.inl rfl

theorem cancel (h : Tidy p) : Tidy p.cancel where
  registered := by
    show p.registered < (p.signals.set p.registered true).length
    rw [List.length_set]
    exact h.registered
  live := h.live
  held m hm hlive := by
    rcases h.held m hm hlive with heq | hr
    · exact Or.inl heq
    · rw [raised_cancel h.registered, hr, Bool.or_true]
      exact Or.inr rfl

/-- **A live session is counted**, so its end never takes one from zero. -/
theorem live_pos (h : Tidy p) {m : Member ε α} (hm : m ∈ p.sessions) (hlive : m.session.isLive) :
    0 < p.live := by
  rw [h.live]
  exact List.countP_pos_iff.mpr ⟨m, hm, hlive⟩

theorem onSession (h : Tidy p) {i : Nat}
    {move : Bool → Session ε α → Session ε α × List (Event ε α)} {now : Duration} {act : Act ε α}
    (hmove : Session.IsMove T now i act move) : Tidy (p.onSession i move).1 := by
  unfold Poller.onSession
  cases hm : p.sessions[i]? with
  | none => exact h
  | some m =>
    dsimp only
    obtain ⟨hlt, hget⟩ := List.getElem?_eq_some_iff.mp hm
    have hmem : m ∈ p.sessions := hget ▸ List.getElem_mem hlt
    -- a session that is over stays over
    have hover : m.session.isLive = false →
        (move (p.raised m.signal) m.session).1.isLive = false := by
      intro hdead
      rw [(hmove _ _).finished hdead]
      exact hdead
    refine ⟨h.registered, ?_, ?_⟩
    · dsimp only
      rw [List.countP_set hlt, hget, ← h.live]
      cases hold : m.session.isLive with
      | false => simp [hover hold]
      | true =>
        have hpos := h.live_pos hmem hold
        cases (move (p.raised m.signal) m.session).1.isLive with
        | true => simp; omega
        | false => simp
    · intro n hn hlive
      rcases List.mem_or_eq_of_mem_set hn with hn | rfl
      · exact h.held n hn hlive
      · refine h.held m hmem ?_
        cases hold : m.session.isLive with
        | true => rfl
        | false => exact absurd hlive (by simp [hover hold])

theorem step (T : Terms α) (h : Tidy p) (act : Act ε α) : Tidy (p.step T act).1 := by
  cases act with
  | start interval retries => exact h.start interval retries
  | proceed i => exact h.onSession (Session.isMove_proceed T p.now i)
  | fetched i result => exact h.onSession (Session.isMove_fetched T p.now i result)
  | matched i => exact h.onSession (Session.isMove_matched T p.now i)
  | look i => exact h.onSession (Session.isMove_look T p.now i)
  | cancel => exact h.cancel
  | drop i => exact h.onSession (Session.isMove_drop T p.now i)
  | pass time => exact ⟨h.registered, h.live, h.held⟩

end Tidy

end Poller

/-! ### Lanes -/

/-- What is left of a poller if only one session is looked at. -/
structure Lane (ε α : Type) where
  now : Duration
  /-- Sessions that have been started so far, this one or others. -/
  started : Nat
  session : Option (Session ε α)
  /-- Is the session live, and has a cancel been made in its life? -/
  cancelled : Bool

namespace Lane

def new : Lane ε α := { now := 0, started := 0, session := none, cancelled := false }

def isLive (l : Lane ε α) : Bool := l.session.any (·.isLive)

/-- The session moves. -/
def move (f : Bool → Session ε α → Session ε α × List (Event ε α)) (l : Lane ε α) :
    Lane ε α × List (Event ε α) :=
  match l.session with
  | some s =>
    let (session, events) := f l.cancelled s
    ({ l with session := some session, cancelled := session.isLive && l.cancelled }, events)
  | none => (l, [])

/-- A move of session `j`, in the lane of session `i`. -/
def moveAt (i j : Nat) (f : Bool → Session ε α → Session ε α × List (Event ε α)) (l : Lane ε α) :
    Lane ε α × List (Event ε α) :=
  if j = i then l.move f else (l, [])

theorem moveAt_self (i : Nat) (f : Bool → Session ε α → Session ε α × List (Event ε α))
    (l : Lane ε α) : l.moveAt i i f = l.move f := if_pos rfl

theorem moveAt_other {i j : Nat} (h : j ≠ i)
    (f : Bool → Session ε α → Session ε α × List (Event ε α)) (l : Lane ε α) :
    l.moveAt i j f = (l, []) := if_neg h

/-- An act of the poller, as it concerns session `i`. -/
def step (T : Terms α) (i : Nat) (l : Lane ε α) : Act ε α → Lane ε α × List (Event ε α)
  | .start interval retries =>
    if l.started = i then
      ({ l with started := l.started + 1, session := some (.start interval retries) }, [.started i])
    else ({ l with started := l.started + 1 }, [])
  | .proceed j => l.moveAt i j fun _ => Session.proceed l.now j
  | .fetched j result => l.moveAt i j (Session.fetched j result)
  | .matched j => l.moveAt i j fun _ => Session.matched T l.now j
  | .look j => l.moveAt i j (Session.look j)
  | .cancel => ({ l with cancelled := l.isLive }, [])
  | .drop j => l.moveAt i j fun _ => Session.drop j
  | .pass time => ({ l with now := l.now + time }, [])

theorem step_start_self {i : Nat} {l : Lane ε α} (h : l.started = i) (interval : Duration)
    (retries : Nat) :
    l.step T i (.start interval retries) =
      ({ l with started := l.started + 1, session := some (.start interval retries) },
        [.started i]) := if_pos h

theorem step_start_other {i : Nat} {l : Lane ε α} (h : l.started ≠ i) (interval : Duration)
    (retries : Nat) :
    l.step T i (.start interval retries) = ({ l with started := l.started + 1 }, []) := if_neg h

/-- A run of a lane, each event with its instant. -/
def runFrom (T : Terms α) (i : Nat) (l : Lane ε α) (acts : List (Act ε α)) :
    Lane ε α × List (Duration × Event ε α) :=
  History.after (History.stamped (step T i) Lane.now) l acts

theorem runFrom_cons (i : Nat) (l : Lane ε α) (act : Act ε α) (acts : List (Act ε α)) :
    l.runFrom T i (act :: acts) =
      (((l.step T i act).1.runFrom T i acts).1,
        (l.step T i act).2.map (l.now, ·) ++
          ((l.step T i act).1.runFrom T i acts).2) :=
  History.after_cons (History.stamped (step T i) Lane.now) l act acts

theorem runFrom_append (i : Nat) (l : Lane ε α) (acts more : List (Act ε α)) :
    l.runFrom T i (acts ++ more) =
      (((l.runFrom T i acts).1.runFrom T i more).1,
        (l.runFrom T i acts).2 ++ ((l.runFrom T i acts).1.runFrom T i more).2) :=
  History.after_append (History.stamped (step T i) Lane.now) l acts more

end Lane

namespace Poller

variable {p : Poller ε α} {i : Nat}

/-- The lane of session `i`. -/
def lane (p : Poller ε α) (i : Nat) : Lane ε α :=
  { now := p.now, started := p.sessions.length, session := p.session? i
    cancelled := p.isLive i && p.isCancelled i }

/-- What is told of session `i`. -/
def about (i : Nat) (events : List (Event ε α)) : List (Event ε α) :=
  events.filter (·.session? = some i)

theorem session?_of_getElem? {m : Member ε α} (h : p.sessions[i]? = some m) :
    p.session? i = some m.session := by
  rw [session?, h, Option.map_some]

theorem lane_of_getElem? {m : Member ε α} (h : p.sessions[i]? = some m) :
    p.lane i =
      { now := p.now, started := p.sessions.length, session := some m.session
        cancelled := m.session.isLive && p.raised m.signal } := by
  unfold lane isLive isCancelled
  rw [session?_of_getElem? h, h]
  rfl

theorem lane_of_none (h : p.sessions[i]? = none) :
    p.lane i =
      { now := p.now, started := p.sessions.length, session := none, cancelled := false } := by
  unfold lane isLive session?
  rw [h]
  rfl

/-- A lane depends on the signals that were raised, and not on the one that is registered. -/
theorem lane_congr {q : Poller ε α} (hnow : q.now = p.now)
    (hlen : q.sessions.length = p.sessions.length) (hget : q.sessions[i]? = p.sessions[i]?)
    (hraised : ∀ signal, q.raised signal = p.raised signal) : q.lane i = p.lane i := by
  cases hm : p.sessions[i]? with
  | none => rw [lane_of_none hm, lane_of_none (hget.trans hm), hnow, hlen]
  | some m => rw [lane_of_getElem? hm, lane_of_getElem? (hget.trans hm), hnow, hlen, hraised]

theorem about_of_isMove {j : Nat} {now : Duration} {act : Act ε α}
    {move : Bool → Session ε α → Session ε α × List (Event ε α)}
    (hmove : Session.IsMove T now j act move) (raised : Bool) (s : Session ε α) :
    about i (move raised s).2 = if j = i then (move raised s).2 else [] := by
  unfold about
  split
  · rename_i hij
    subst hij
    exact List.filter_eq_self.mpr fun e he => decide_eq_true ((hmove raised s).about e he)
  · rename_i hij
    refine List.filter_eq_nil_iff.mpr fun e he => ?_
    rw [(hmove raised s).about e he]
    simpa using hij

/-- A move of a session is a move in its lane, and nothing in any other. -/
theorem lane_onSession {j : Nat} {now : Duration} {act : Act ε α}
    {move : Bool → Session ε α → Session ε α × List (Event ε α)}
    (hmove : Session.IsMove T now j act move) :
    ((p.onSession j move).1.lane i, about i (p.onSession j move).2) =
      (p.lane i).moveAt i j move := by
  cases hm : p.sessions[j]? with
  | none =>
    have hstay : p.onSession j move = (p, []) := by rw [onSession, hm]
    rw [hstay]
    by_cases hij : j = i
    · subst hij
      rw [Lane.moveAt_self, lane_of_none hm]
      rfl
    · rw [Lane.moveAt_other hij]
      rfl
  | some m =>
    have hlt : j < p.sessions.length := (List.getElem?_eq_some_iff.mp hm).1
    have hsessions : (p.onSession j move).1.sessions =
        p.sessions.set j { m with session := (move (p.raised m.signal) m.session).1 } := by
      rw [onSession, hm]
    have hevents : (p.onSession j move).2 = (move (p.raised m.signal) m.session).2 := by
      rw [onSession, hm]
    have hnow : (p.onSession j move).1.now = p.now := by rw [onSession, hm]
    have hsignals : (p.onSession j move).1.raised = p.raised := by rw [onSession, hm]; rfl
    rw [hevents, about_of_isMove hmove]
    by_cases hij : j = i
    · subst hij
      rw [if_pos rfl, Lane.moveAt_self, lane_of_getElem? hm,
        lane_of_getElem? (by rw [hsessions, List.getElem?_set_self hlt]), hnow, hsessions, hsignals]
      unfold Lane.move
      dsimp only
      rw [Session.Acted.live_and hmove, List.length_set]
      have hcancelled : ((move (p.raised m.signal) m.session).1.isLive && p.raised m.signal) =
          ((move (p.raised m.signal) m.session).1.isLive &&
            (m.session.isLive && p.raised m.signal)) := by
        cases hs : m.session.isLive with
        | true => rw [Bool.true_and]
        | false => rw [(hmove _ _).finished hs, hs, Bool.false_and, Bool.false_and]
      rw [hcancelled]
    · rw [if_neg hij, Lane.moveAt_other hij]
      have hother : (p.onSession j move).1.lane i = p.lane i := by
        refine lane_congr hnow ?_ ?_ ?_
        · rw [hsessions, List.length_set]
        · rw [hsessions, List.getElem?_set_ne hij]
        · intro signal
          rw [hsignals]
      rw [hother]

theorem lane_start (p : Poller ε α) (interval : Duration) (retries : Nat) :
    (p.start interval retries).lane i = ((p.lane i).step T i (.start interval retries)).1 := by
  have hget : (p.start interval retries).sessions[i]? =
      if i = p.sessions.length then
        some { signal := p.register.registered, session := .start interval retries }
      else p.sessions[i]? := by
    rw [sessions_start, getElem?_append_singleton]
  have hlen : (p.start interval retries).sessions.length = p.sessions.length + 1 := by
    rw [sessions_start, List.length_append, List.length_singleton]
  have hnow : (p.start interval retries).now = p.now := register_now p
  have hraised : (p.start interval retries).raised = p.raised := funext (raised_register p)
  by_cases hi : p.sessions.length = i
  · rw [if_pos hi.symm] at hget
    have hnone : p.sessions[i]? = none := List.getElem?_eq_none (Nat.le_of_eq hi)
    have hfresh : p.raised p.register.registered = false := by
      rw [← raised_register]
      exact raised_registered_register p
    rw [lane_of_none hnone, Lane.step_start_self hi, lane_of_getElem? hget, hlen, hnow, hraised,
      hfresh, Bool.and_false]
  · rw [if_neg (Ne.symm hi)] at hget
    rw [Lane.step_start_other hi]
    cases hm : p.sessions[i]? with
    | none => rw [lane_of_none (hget.trans hm), lane_of_none hm, hlen, hnow]
    | some m => rw [lane_of_getElem? (hget.trans hm), lane_of_getElem? hm, hlen, hnow, hraised]

/-- **A cancel reaches the sessions that are live**: each of them listens to the signal that the
cancel raises, unless its own was raised before. -/
theorem lane_cancel (T : Terms α) (h : Tidy p) :
    p.cancel.lane i = ((p.lane i).step T i .cancel).1 := by
  cases hm : p.sessions[i]? with
  | none =>
    rw [lane_of_none hm, lane_of_none (p := p.cancel) hm]
    rfl
  | some m =>
    rw [lane_of_getElem? hm, lane_of_getElem? (p := p.cancel) hm, raised_cancel h.registered]
    have hmem : m ∈ p.sessions := List.mem_of_getElem? hm
    have hreached : m.session.isLive = true →
        (decide (m.signal = p.registered) || p.raised m.signal) = true := by
      intro hlive
      rcases h.held m hmem hlive with heq | hr
      · rw [decide_eq_true heq, Bool.true_or]
      · rw [hr, Bool.or_true]
    show Lane.mk _ _ _ _ = Lane.mk _ _ _ m.session.isLive
    cases hlive : m.session.isLive with
    | true => rw [hreached hlive]; rfl
    | false => rfl

/-- **Looking at one lane commutes with every act.** -/
theorem lane_step (T : Terms α) (h : Tidy p) (act : Act ε α) (i : Nat) :
    ((p.step T act).1.lane i, about i (p.step T act).2) =
      (p.lane i).step T i act := by
  cases act with
  | start interval retries =>
    refine Prod.ext (lane_start p interval retries) ?_
    show about i [.started p.sessions.length] = _
    by_cases hi : p.sessions.length = i
    · rw [Lane.step_start_self hi]
      simp [about, Event.session?, hi]
    · rw [Lane.step_start_other hi]
      simp [about, Event.session?, hi]
  | proceed j => exact lane_onSession (Session.isMove_proceed T p.now j)
  | fetched j result => exact lane_onSession (Session.isMove_fetched T p.now j result)
  | matched j => exact lane_onSession (Session.isMove_matched T p.now j)
  | look j => exact lane_onSession (Session.isMove_look T p.now j)
  | cancel => exact Prod.ext (lane_cancel T h) rfl
  | drop j => exact lane_onSession (Session.isMove_drop T p.now j)
  | pass time => rfl

/-! ### Runs -/

/-- What is told of session `i` in a history. -/
def told (i : Nat) (history : List (Duration × Event ε α)) : List (Duration × Event ε α) :=
  history.filter (·.2.session? = some i)

theorem told_append (past later : List (Duration × Event ε α)) :
    told i (past ++ later) = told i past ++ told i later := List.filter_append past later

theorem told_map (now : Duration) (events : List (Event ε α)) :
    told i (events.map (now, ·)) = (about i events).map (now, ·) := by
  rw [told, List.filter_map]
  rfl

theorem runFrom_cons (T : Terms α) (p : Poller ε α) (act : Act ε α) (acts : List (Act ε α)) :
    p.runFrom T (act :: acts) =
      (((p.step T act).1.runFrom T acts).1,
        (p.step T act).2.map (p.now, ·) ++ ((p.step T act).1.runFrom T acts).2) :=
  History.after_cons (History.stamped (step T) Poller.now) p act acts

theorem Tidy.runFrom (T : Terms α) (h : Tidy p) (acts : List (Act ε α)) : Tidy (p.runFrom T acts).1 := by
  induction acts generalizing p with
  | nil => exact h
  | cons act acts ih =>
    rw [runFrom_cons]
    exact ih (h.step T act)

/-- **A session runs in its lane as among others.** -/
theorem lane_runFrom (T : Terms α) (h : Tidy p) (acts : List (Act ε α)) (i : Nat) :
    (p.runFrom T acts).1.lane i = ((p.lane i).runFrom T i acts).1 ∧
      told i (p.runFrom T acts).2 = ((p.lane i).runFrom T i acts).2 := by
  induction acts generalizing p with
  | nil => exact ⟨rfl, rfl⟩
  | cons act acts ih =>
    obtain ⟨hrest, htold⟩ := ih (h.step T act)
    rw [runFrom_cons, told_append, told_map, Lane.runFrom_cons, ← lane_step T h]
    dsimp only
    rw [hrest, htold]
    exact ⟨rfl, rfl⟩

theorem tidy_run (T : Terms α) (acts : List (Act ε α)) : Tidy (run T acts).1 :=
  Tidy.new.runFrom T acts

theorem lane_run (T : Terms α) (acts : List (Act ε α)) (i : Nat) :
    (run T acts).1.lane i = (Lane.new.runFrom T i acts).1 ∧
      told i (run T acts).2 = (Lane.new.runFrom T i acts).2 :=
  lane_runFrom T Tidy.new acts i

/-- One more act, as it is seen in a lane. -/
theorem lane_run_concat (T : Terms α) (acts : List (Act ε α)) (act : Act ε α) (i : Nat) :
    (run T (acts ++ [act])).1.lane i =
        (((run T acts).1.lane i).step T i act).1 ∧
      told i (run T (acts ++ [act])).2 =
        told i (run T acts).2 ++
          (((run T acts).1.lane i).step T i act).2.map ((run T acts).1.now, ·) := by
  have hextend : run T (acts ++ [act]) = extend T (run T acts) act :=
    List.foldl_append
  rw [hextend, ← lane_step T (tidy_run T acts)]
  unfold extend
  dsimp only
  rw [told_append, told_map]
  exact ⟨rfl, rfl⟩

end Poller

end IntentLoop.Poll
