import IntentLoop.Proofs.Engine.Halting
import IntentLoop.Proofs.Engine.Closing
import IntentLoop.Proofs.Engine.Turns
/-!
# What is still done once a teardown has begun

On several threads a teardown may begin while the worker is in the midst of an intent, and effects in the
midst of a poll. The close of the broadcast settles at once what those outside see (`Hushed`). The signal
stops nobody who has looked at it already: the worker goes through with the intent that it has in hand, or
with the next one if it was just about to look at the queue, and then ends (`Winds`); an effect goes on to
the end of its poll, and is dropped when it is polled again (`Fares`). What an effect holds may submit
intents even then.

`teardown_lets_finish` says what this comes to, and `handled_after_signal` is a run in which an intent that
was queued is handled after the signal, and an effect that is being dropped submits another one.
-/

namespace IntentLoop.Engine

variable {σ ι ε : Type} {S : Setup σ ι ε}

/-! ### What the worker has in hand -/

namespace Hand

/-- Intents that the worker may yet take before it looks at the signal. -/
@[simp] def receipts : Hand σ ι ε → Nat
  | cleared => 1
  | _ => 0

/-- Callbacks that it may yet call before it looks at the signal, besides the observer. -/
@[simp] def calls : Hand σ ι ε → Nat
  | cleared | taken _ => 4
  | fresh _ => 3
  | valid _ => 2
  | handled _ _ | launched _ => 1
  | _ => 0

/-- Effects that it may yet launch before it looks at the signal. -/
@[simp] def launches : Hand σ ι ε → Nat
  | cleared | taken _ | fresh _ | valid _ | handled _ _ => 1
  | _ => 0

/-- The intent in hand. -/
@[simp] def intent? : Hand σ ι ε → Option ι
  | taken i | fresh i | valid i | handled i _ | launched i | reduced i _ | announced i _ | kept i _
  | failed i _ | reported i _ => some i
  | free | cleared | leaving _ => none

/-- The state that was published and is yet to be shown to the observer. -/
def news : Hand σ ι ε → List σ
  | announced _ next => [next]
  | _ => []

end Hand

def Event.called? : Event σ ι ε → Option ι
  | .compared _ i | .validated i _ | .performed _ i | .reduced i _ => some i
  | _ => none

/-- The intents that the filter, the validity check, the handler and the reduction were called with. -/
def calledIn (past : List (Event σ ι ε)) : List ι := past.filterMap Event.called?

@[simp] theorem calledIn_append (past later : List (Event σ ι ε)) :
    calledIn (past ++ later) = calledIn past ++ calledIn later := List.filterMap_append

namespace Threads

variable {t : Threads σ ι ε}

/-! ### After the close -/

/-- Nothing new is shown to those outside. -/
structure Hushed (t t' : Threads σ ι ε) (later : List (Event σ ι ε)) : Prop where
  closed : t'.broadcast.closed = true
  current : t'.current = t.current
  published : publishedIn later = []
  /-- Only the state that was published last may still be on its way to the observer. -/
  observed : observedIn later ++ t'.hand.news <+: t.hand.news

namespace Hushed

theorem refl (h : t.broadcast.closed = true) : Hushed t t [] := ⟨h, rfl, rfl, List.prefix_rfl⟩

theorem trans {t' t'' : Threads σ ι ε} {events more : List (Event σ ι ε)} (h : Hushed t t' events)
    (g : Hushed t' t'' more) : Hushed t t'' (events ++ more) where
  closed := g.closed
  current := g.current.trans h.current
  published := by rw [publishedIn_append, h.published, g.published]; rfl
  observed := by
    rw [observedIn_append, List.append_assoc]
    exact ((List.prefix_append_right_inj _).mpr g.observed).trans h.observed

theorem of_aside {after : Threads σ ι ε × List (Event σ ι ε)} (h : Aside t after)
    (hclosed : after.1.broadcast.closed = true) : Hushed t after.1 after.2 where
  closed := hclosed
  current := h.last
  published := by rw [← publishedIn_workIn, h.workless.workIn]; rfl
  observed := by
    rw [← observedIn_workIn, h.workless.workIn, h.hand]
    exact List.prefix_rfl

theorem of_events {t' : Threads σ ι ε} {events : List (Event σ ι ε)}
    (hclosed : t.broadcast.closed = true) (hb : t'.broadcast = t.broadcast)
    (hp : publishedIn events = []) (ho : observedIn events ++ t'.hand.news <+: t.hand.news) :
    Hushed t t' events :=
  ⟨hb ▸ hclosed, congrArg Broadcast.last hb, hp, ho⟩

end Hushed

theorem compare_called {previous : Option ι} {i : ι} {answer : Attempt Bool}
    {compared : List (Event σ ι ε)} (h : compare S previous i = (answer, compared)) :
    compared = [] ∨ ∃ p, compared = [.compared p i] := by
  cases previous with
  | none =>
    cases h
    exact Or.inl rfl
  | some p =>
    cases h
    exact Or.inr ⟨p, rfl⟩

theorem Passes.unpublished {state : σ} {previous : Option ι} {hand next : Hand σ ι ε}
    {events : List (Event σ ι ε)} (h : Passes S state previous t hand next events) :
    publishedIn events = [] ∧ observedIn events ++ next.news <+: hand.news := by
  cases h with
  | compared hc | uncompared hc =>
    rcases compare_called hc with rfl | ⟨p, rfl⟩ <;> exact ⟨rfl, List.prefix_rfl⟩
  | unobserved => exact ⟨rfl, List.nil_prefix⟩
  | _ => exact ⟨rfl, List.prefix_rfl⟩

theorem Skips.unpublished {state : σ} {previous : Option ι} {i : ι} {hand : Hand σ ι ε}
    {events : List (Event σ ι ε)} (h : Skips S state previous i hand events) :
    publishedIn events = [] ∧ observedIn events = [] := by
  cases h with
  | repeated hc => rcases compare_called hc with rfl | ⟨p, rfl⟩ <;> exact ⟨rfl, rfl⟩
  | refused => exact ⟨rfl, rfl⟩

theorem Turned.broadcast {after : Threads σ ι ε × List (Event σ ι ε)} (h : Turned S t after)
    (hclosed : t.broadcast.closed = true) : after.1.broadcast = t.broadcast := by
  cases h with
  | publishes state previous i next _ _ hopen =>
    rw [hclosed] at hopen
    cases hopen
  | _ => rfl

theorem Turned.hushed {after : Threads σ ι ε × List (Event σ ι ε)} (h : Turned S t after)
    (hclosed : t.broadcast.closed = true) : Hushed t after.1 after.2 := by
  have hb := h.broadcast hclosed
  cases h with
  | dead => exact .refl hclosed
  | passes state previous hand next events _ hh hp =>
    exact .of_events hclosed hb hp.unpublished.1 (hh ▸ hp.unpublished.2)
  | skips state previous i hand events _ hh hs =>
    refine .of_events hclosed hb hs.unpublished.1 ?_
    rw [hs.unpublished.2]
    exact List.nil_prefix
  | publishes state previous i next _ _ hopen =>
    rw [hclosed] at hopen
    cases hopen
  | ends state previous outcome =>
    refine .of_events hclosed hb ?_ ?_
    · cases outcome <;> rfl
    · cases outcome <;> exact List.nil_prefix
  | takes | launches | applies | halts => exact .of_events hclosed hb rfl List.nil_prefix

theorem Resumed.broadcast {id : Nat} {after : Threads σ ι ε × List (Event σ ι ε)}
    (h : Resumed id t after) : after.1.broadcast = t.broadcast := by
  cases h <;> rfl

theorem step_closed (S : Setup σ ι ε) (h : t.broadcast.closed = true) (act : Act ι) :
    (t.step S act).1.broadcast.closed = true := by
  have same : ∀ {after : Threads σ ι ε × List (Event σ ι ε)}, after.1.broadcast = t.broadcast →
      after.1.broadcast.closed = true := fun hb => by rw [hb, h]
  cases act with
  | submit i => exact same (t.submit_untouched i).broadcast
  | work => exact same ((work_turned S t).broadcast h)
  | look id => exact same (t.look_lived id).untouched.broadcast
  | send id i => exact same (t.send_lived id i).untouched.broadcast
  | leave id exit => exact same (t.leave_lived id exit).untouched.broadcast
  | resume id => exact same (t.resume_resumed id).broadcast
  | read n => exact (t.broadcast.read_closed n).trans h
  | subscribe | unsubscribe => exact h
  | destroy | drop => rfl
  | silence id =>
    rcases step_silence_cases S t id with hs | hs <;> rw [hs] <;> exact h
  | signal => rcases step_signal_cases S t with ⟨-, hs⟩ | ⟨-, hs⟩ <;> rw [hs] <;> exact h

theorem step_hushed (S : Setup σ ι ε) (h : t.broadcast.closed = true) (act : Act ι) :
    Hushed t (t.step S act).1 (t.step S act).2 := by
  by_cases hact : act = .work
  · subst hact
    exact (work_turned S t).hushed h
  · exact .of_aside (step_aside S t hact) (step_closed S h act)

/-- **Once the broadcast is closed, nothing new is shown to those outside**, whatever anyone does. -/
theorem hushed_runFrom (S : Setup σ ι ε) (h : t.broadcast.closed = true) (acts : List (Act ι)) :
    Hushed t (t.runFrom S acts).1 (t.runFrom S acts).2 :=
  runFrom_induct (P := fun t' past => Hushed t t' past) (.refl h)
    fun act _ _ _ ih => ih.trans (step_hushed S ih.closed act)

/-! ### Readers after the close -/

def Act.reads (stream : Nat) : Act ι → Bool
  | .read n => n = stream
  | _ => false

theorem Passes.working {state : σ} {previous : Option ι} {hand next : Hand σ ι ε}
    {events : List (Event σ ι ε)} (h : Passes S state previous t hand next events) :
    Working events := by
  cases h with
  | compared hc | uncompared hc => exact (compare_deciding hc).working
  | reported => exact .cons rfl (.cons rfl .nil)
  | clears | quits | waits | unhandled | same | unobserved => exact .nil
  | _ => exact .cons rfl .nil

theorem Turned.working {after : Threads σ ι ε × List (Event σ ι ε)} (h : Turned S t after) :
    Working after.2 := by
  cases h with
  | dead | halts => exact .nil
  | passes state previous hand next events _ _ hp => exact hp.working
  | skips state previous i hand events _ _ hs =>
    cases hs with
    | repeated hc => exact (compare_deciding hc).working.append (.cons rfl .nil)
    | refused => exact .cons rfl (.cons rfl .nil)
  | ends state previous outcome =>
    cases outcome with
    | error p => exact .cons rfl .nil
    | ok result => exact .nil
  | takes | launches | publishes | applies => exact .cons rfl .nil

theorem submit_readings (n : Nat) (i : ι) (t : Threads σ ι ε) :
    readingsIn n (t.submit i).2 = [] := by
  unfold submit
  split <;> rfl

theorem Lived.readings {n id : Nat} {after : Threads σ ι ε × List (Event σ ι ε)}
    (h : Lived id t after) : readingsIn n after.2 = [] := by
  cases h with
  | sends i => exact t.submit_readings n i
  | _ => rfl

theorem Resumed.readings {n id : Nat} {after : Threads σ ι ε × List (Event σ ι ε)}
    (h : Resumed id t after) : readingsIn n after.2 = [] := by
  cases h <;> rfl

theorem step_readings (S : Setup σ ι ε) (t : Threads σ ι ε) (act : Act ι) (n : Nat) :
    readingsIn n (t.step S act).2 = if act.reads n then [(t.broadcast.read n).1] else [] := by
  cases act with
  | read k =>
    show readingsIn n [.found k (t.broadcast.read k).1] = _
    unfold readingsIn Event.reading? Act.reads
    by_cases hk : k = n <;> simp [hk]
  | submit i => exact t.submit_readings n i
  | work => exact (work_turned S t).working.readings
  | look id => exact (t.look_lived id).readings
  | send id i => exact (t.send_lived id i).readings
  | leave id exit => exact (t.leave_lived id exit).readings
  | resume id => exact (t.resume_resumed id).readings
  | subscribe | unsubscribe | destroy | drop | silence | signal => rfl

/-- A stream of a shut broadcast only loses what its reader takes. -/
theorem step_shut (S : Setup σ ι ε) (h : t.broadcast.Shut) {act : Act ι} {n : Nat}
    (hact : act ≠ .unsubscribe n) :
    (t.step S act).1.broadcast.Shut ∧
      (t.step S act).1.broadcast.queued n =
        if act.reads n then (t.broadcast.queued n).tail else t.broadcast.queued n := by
  have same : ∀ {after : Threads σ ι ε × List (Event σ ι ε)}, after.1.broadcast = t.broadcast →
      after.1.broadcast.Shut ∧ after.1.broadcast.queued n = t.broadcast.queued n := by
    intro after hb
    rw [hb]
    exact ⟨h, rfl⟩
  cases act with
  | submit i => exact same (t.submit_untouched i).broadcast
  | work => exact same ((work_turned S t).broadcast h.closed)
  | look id => exact same (t.look_lived id).untouched.broadcast
  | send id i => exact same (t.send_lived id i).untouched.broadcast
  | leave id exit => exact same (t.leave_lived id exit).untouched.broadcast
  | resume id => exact same (t.resume_resumed id).broadcast
  | subscribe => exact h.subscribe n
  | read k =>
    obtain ⟨hshut, hqueued, -⟩ := h.read k n
    refine ⟨hshut, hqueued.trans ?_⟩
    simp [Act.reads]
  | unsubscribe k => exact h.unsubscribe fun hk => hact (hk ▸ rfl)
  | destroy => exact ⟨t.broadcast.shut_close, t.broadcast.queued_close n⟩
  | drop => exact ⟨t.broadcast.shut_close, t.broadcast.queued_close n⟩
  | silence id => exact same (by rcases step_silence_cases S t id with hs | hs <;> rw [hs])
  | signal => exact same (by rcases step_signal_cases S t with ⟨-, hs⟩ | ⟨-, hs⟩ <;> rw [hs])

/-- **A reader finds what was queued at the close, and then the end.** -/
theorem readings_runFrom (S : Setup σ ι ε) (h : t.broadcast.Shut) {n : Nat} {acts : List (Act ι)}
    (hacts : .unsubscribe n ∉ acts) :
    readingsIn n (t.runFrom S acts).2 =
      ((t.broadcast.queued n).map .state).take (acts.countP (·.reads n)) ++
        List.replicate (acts.countP (·.reads n) - (t.broadcast.queued n).length) .ended := by
  induction acts generalizing t with
  | nil => simp [runFrom, readingsIn]
  | cons act acts ih =>
    have hact : act ≠ .unsubscribe n := fun heq => hacts (heq ▸ List.mem_cons_self)
    obtain ⟨hshut, hqueued⟩ := step_shut S h hact
    have hrest := ih hshut fun hmem => hacts (List.mem_cons_of_mem act hmem)
    rw [runFrom_cons, readingsIn_append, step_readings, hrest, hqueued, List.countP_cons]
    cases hreads : act.reads n with
    | false => rfl
    | true =>
      obtain ⟨-, -, hfound⟩ := h.read n n
      rw [hfound]
      cases t.broadcast.queued n with
      | nil => simp [List.replicate_succ]
      | cons s rest => simp

/-! ### The worker under the signal -/

/-- From having one thing in hand to another, the worker has only gone on with what it had. -/
structure Winds (hand next : Hand σ ι ε) (later : List (Event σ ι ε)) : Prop where
  received : (receivedIn later).length + next.receipts ≤ hand.receipts
  called : (calledIn later).length + next.calls ≤ hand.calls
  launched : (launchesIn later).length + next.launches ≤ hand.launches
  /-- All calls are for the intent in hand, or for the one that it was about to take. -/
  about : calledIn later ++ next.intent?.toList ⊆ hand.intent?.toList ++ receivedIn later

namespace Winds

variable {hand next last : Hand σ ι ε} {events more : List (Event σ ι ε)}

theorem refl (hand : Hand σ ι ε) : Winds hand hand [] :=
  ⟨Nat.le_of_eq (Nat.zero_add _), Nat.le_of_eq (Nat.zero_add _), Nat.le_of_eq (Nat.zero_add _),
    fun _ hmem => List.mem_append_left _ hmem⟩

theorem trans (h : Winds hand next events) (g : Winds next last more) :
    Winds hand last (events ++ more) := by
  obtain ⟨hr, hc, hl, ha⟩ := h
  obtain ⟨gr, gc, gl, ga⟩ := g
  refine ⟨?_, ?_, ?_, ?_⟩
  · rw [receivedIn_append, List.length_append]
    omega
  · rw [calledIn_append, List.length_append]
    omega
  · rw [launchesIn_append, List.length_append]
    omega
  · intro i hi
    have hearlier : ∀ {j}, j ∈ calledIn events ++ next.intent?.toList →
        j ∈ hand.intent?.toList ++ receivedIn (events ++ more) := by
      intro j hj
      rw [receivedIn_append, ← List.append_assoc]
      exact List.mem_append_left _ (ha hj)
    rw [calledIn_append, List.append_assoc] at hi
    rcases List.mem_append.mp hi with hi | hi
    · exact hearlier (List.mem_append_left _ hi)
    · rcases List.mem_append.mp (ga hi) with hi | hi
      · exact hearlier (List.mem_append_right _ hi)
      · rw [receivedIn_append]
        exact List.mem_append_right _ (List.mem_append_right _ hi)

theorem of_workless (h : Workless events) : Winds hand hand events := by
  have hreceived : receivedIn events = [] := by
    rw [← receivedIn_workIn, h.workIn]
    rfl
  have hcalled : calledIn events = [] := by
    refine List.filterMap_eq_nil_iff.mpr fun event hmem => ?_
    have hevent := h event hmem
    cases event <;> first | rfl | cases hevent
  have hsame := refl hand
  refine ⟨?_, ?_, ?_, ?_⟩
  · exact hreceived ▸ hsame.received
  · exact hcalled ▸ hsame.called
  · exact launchesIn_of_workless h ▸ hsame.launched
  · rw [hcalled, hreceived]
    exact hsame.about

end Winds

/-- Under the signal, what the worker passes on with is what it had in hand. -/
theorem Passes.winds {state : σ} {previous : Option ι} {hand next : Hand σ ι ε}
    {events : List (Event σ ι ε)} (h : Passes S state previous t hand next events)
    (hs : t.shutdown = true) : Winds hand next events := by
  cases h with
  | clears hrun =>
    rw [hs] at hrun
    cases hrun
  | compared hc | uncompared hc =>
    rcases compare_called hc with rfl | ⟨p, rfl⟩ <;>
      constructor <;>
      simp [receivedIn, calledIn, launchesIn, List.filterMap_cons, Event.received?, Event.called?,
        Event.launched?]
  | _ =>
    constructor <;>
      simp [receivedIn, calledIn, launchesIn, List.filterMap_cons, Event.received?, Event.called?,
        Event.launched?]

theorem Skips.winds {state : σ} {previous : Option ι} {i : ι} {hand : Hand σ ι ε}
    {events : List (Event σ ι ε)} (h : Skips S state previous i hand events) :
    Winds hand .free events := by
  cases h with
  | repeated hc =>
    rcases compare_called hc with rfl | ⟨p, rfl⟩ <;>
      constructor <;>
      simp [receivedIn, calledIn, launchesIn, List.filterMap_cons, Event.received?, Event.called?,
        Event.launched?]
  | refused =>
    constructor <;>
      simp [receivedIn, calledIn, launchesIn, List.filterMap_cons, Event.received?, Event.called?,
        Event.launched?]

theorem Turned.winds {after : Threads σ ι ε × List (Event σ ι ε)} (h : Turned S t after)
    (hs : t.shutdown = true) : Winds t.hand after.1.hand after.2 := by
  cases h with
  | dead => exact .refl _
  | passes state previous hand next events _ hh hp => exact hh ▸ hp.winds hs
  | skips state previous i hand events _ hh hk => exact hh ▸ hk.winds
  | ends state previous outcome _ hh =>
    rw [hh]
    cases outcome <;>
      constructor <;>
      simp [epitaph, receivedIn, calledIn, launchesIn, List.filterMap_cons, Event.received?, Event.called?,
        Event.launched?]
  | takes _ _ _ _ _ hh | launches _ _ _ _ _ hh | publishes _ _ _ _ _ hh | applies _ _ _ _ _ hh
  | halts _ _ _ _ _ hh =>
    rw [hh]
    constructor <;>
      simp [done, receivedIn, calledIn, launchesIn, List.filterMap_cons, Event.received?, Event.called?,
        Event.launched?]

theorem step_winds (S : Setup σ ι ε) (hs : t.shutdown = true) (act : Act ι) :
    Winds t.hand (t.step S act).1.hand (t.step S act).2 := by
  by_cases hact : act = .work
  · subst hact
    exact (work_turned S t).winds hs
  · have haside := step_aside S t hact
    rw [haside.hand]
    exact .of_workless haside.workless

/-- **Under the signal the worker does nothing new**, however long it is given. -/
theorem winds_runFrom (S : Setup σ ι ε) (hs : t.shutdown = true) (acts : List (Act ι)) :
    Winds t.hand (t.runFrom S acts).1.hand (t.runFrom S acts).2 :=
  (runFrom_induct (P := fun t' past => t'.shutdown = true ∧ Winds t.hand t'.hand past)
    ⟨hs, .refl _⟩ fun act _ _ _ ih => ⟨step_shutdown S ih.1 act, ih.2.trans (step_winds S ih.1 act)⟩).2

/-- What an act can mean for an effect. -/
inductive Fares (t : Threads σ ι ε) (id : Nat) (after : Threads σ ι ε × List (Event σ ι ε)) : Prop
  | same (hl : after.1.effects[id]? = t.effects[id]?) (hn : endingsIn id after.2 = [])
  | launched (hno : t.effects[id]? = none) (hl : after.1.effects[id]? = some .resting)
      (hn : endingsIn id after.2 = [])
  | begins (hold : t.effects[id]? = some .resting) (hs : t.isSignalled id = false)
      (hl : after.1.effects[id]? = some .polled) (hn : endingsIn id after.2 = [])
  | drops (hold : t.effects[id]? = some .resting) (hs : t.isSignalled id = true)
      (hl : after.1.effects[id]? = some .dropping) (hn : endingsIn id after.2 = [])
  | rests (hold : t.effects[id]? = some .polled) (hl : after.1.effects[id]? = some .resting)
      (hn : endingsIn id after.2 = [])
  | ends (how : Ending) (hold : t.effects[id]? = some .polled) (hhow : how ≠ .cancelled)
      (hl : after.1.effects[id]? = some (.ended how)) (hn : endingsIn id after.2 = [how])
  | cancelled (hold : t.effects[id]? = some .dropping)
      (hl : after.1.effects[id]? = some (.ended .cancelled)) (hn : endingsIn id after.2 = [.cancelled])

theorem setLife_getElem? {k : Nat} {old : Life} (hold : t.effects[k]? = some old) (new : Life)
    (id : Nat) : (t.setLife k new).effects[id]? = if id = k then some new else t.effects[id]? := by
  by_cases hk : id = k
  · subst hk
    rw [if_pos rfl]
    exact List.getElem?_set_self (List.getElem?_eq_some_iff.mp hold).1
  · rw [if_neg hk]
    exact List.getElem?_set_ne (Ne.symm hk)

theorem submit_fares (i : ι) (t : Threads σ ι ε) (id : Nat) : Fares t id (t.submit i) := by
  unfold submit
  split <;> exact .same rfl rfl

theorem finish_fares {k : Nat} {old : Life} (hold : t.effects[k]? = some old) (how : Ending)
    (id : Nat) :
    (t.finish k how).1.effects[id]? = (if id = k then some (.ended how) else t.effects[id]?) ∧
      endingsIn id (t.finish k how).2 = if id = k then [how] else [] := by
  refine ⟨setLife_getElem? hold _ id, ?_⟩
  show endingsIn id [(.effectEnded k how : Event σ ι ε)] = _
  rw [endingsIn_effectEnded]
  simp [eq_comm]

theorem Lived.fares {k : Nat} {after : Threads σ ι ε × List (Event σ ι ε)} (h : Lived k t after)
    (id : Nat) : Fares t id after := by
  cases h with
  | still => exact .same rfl rfl
  | sends i => exact t.submit_fares i id
  | begins hl hs =>
    have hset := setLife_getElem? hl .polled id
    by_cases hk : id = k
    · subst hk
      exact .begins hl hs (hset.trans (if_pos rfl)) rfl
    · exact .same (hset.trans (if_neg hk)) rfl
  | drops hl hs =>
    have hset := setLife_getElem? hl .dropping id
    by_cases hk : id = k
    · subst hk
      exact .drops hl hs (hset.trans (if_pos rfl)) rfl
    · exact .same (hset.trans (if_neg hk)) rfl
  | rests hl =>
    have hset := setLife_getElem? hl .resting id
    by_cases hk : id = k
    · subst hk
      exact .rests hl (hset.trans (if_pos rfl)) rfl
    · exact .same (hset.trans (if_neg hk)) rfl
  | ends how hl hhow =>
    obtain ⟨hset, hn⟩ := finish_fares hl how id
    by_cases hk : id = k
    · subst hk
      exact .ends how hl hhow (hset.trans (if_pos rfl)) (hn.trans (if_pos rfl))
    · exact .same (hset.trans (if_neg hk)) (hn.trans (if_neg hk))
  | cancelled hl =>
    obtain ⟨hset, hn⟩ := finish_fares hl .cancelled id
    by_cases hk : id = k
    · subst hk
      exact .cancelled hl (hset.trans (if_pos rfl)) (hn.trans (if_pos rfl))
    · exact .same (hset.trans (if_neg hk)) (hn.trans (if_neg hk))

theorem Turned.fares {after : Threads σ ι ε × List (Event σ ι ε)} (h : Turned S t after)
    (id : Nat) : Fares t id after := by
  have hn := h.working.endings id
  cases h with
  | launches state previous i effect =>
    have hget := getElem?_append_singleton t.effects Life.resting id
    by_cases hid : id = t.effects.length
    · exact .launched (List.getElem?_eq_none (Nat.le_of_eq hid.symm)) (hget.trans (if_pos hid)) hn
    · exact .same (hget.trans (if_neg hid)) hn
  | _ => exact .same rfl hn

theorem Resumed.fares {k : Nat} {after : Threads σ ι ε × List (Event σ ι ε)} (h : Resumed k t after)
    (id : Nat) : Fares t id after := by
  cases h <;> exact .same rfl rfl

theorem step_fares (S : Setup σ ι ε) (t : Threads σ ι ε) (act : Act ι) (id : Nat) :
    Fares t id (t.step S act) := by
  cases act with
  | submit i => exact t.submit_fares i id
  | work => exact (work_turned S t).fares id
  | look k => exact (t.look_lived k).fares id
  | send k i => exact (t.send_lived k i).fares id
  | leave k exit => exact (t.leave_lived k exit).fares id
  | resume k => exact (t.resume_resumed k).fares id
  | subscribe | read | unsubscribe | destroy | drop => exact .same rfl rfl
  | silence k =>
    rcases step_silence_cases S t k with hs | hs <;> rw [hs] <;> exact .same rfl rfl
  | signal => rcases step_signal_cases S t with ⟨-, hs⟩ | ⟨-, hs⟩ <;> rw [hs] <;> exact .same rfl rfl

theorem leave_polled {id : Nat} {exit : Exit} (h : t.effects[id]? = some .polled) :
    (t.leave id exit).1.effects[id]? ≠ some .polled := by
  have hset : ∀ new, (t.setLife id new).effects[id]? = some new := fun new =>
    (setLife_getElem? h new id).trans (if_pos rfl)
  unfold leave
  rw [h]
  cases exit with
  | waits =>
    dsimp only
    rw [hset]
    nofun
  | completes =>
    dsimp only [finish]
    rw [hset]
    nofun
  | panics =>
    dsimp only [finish]
    rw [hset]
    nofun

theorem polled_of_setLife {id k : Nat} {new : Life}
    (h : (t.setLife k new).effects[id]? = some .polled) (hnew : new ≠ .polled) :
    t.effects[id]? = some .polled := by
  rcases getElem?_set_cases h with ⟨-, heq⟩ | ⟨-, hold⟩
  · exact absurd heq.symm hnew
  · exact hold

theorem submit_effects (i : ι) (t : Threads σ ι ε) : (t.submit i).1.effects = t.effects := by
  unfold submit
  split <;> rfl

theorem send_effects (id : Nat) (i : ι) (t : Threads σ ι ε) : (t.send id i).1.effects = t.effects := by
  unfold send
  split
  · exact t.submit_effects i
  · exact t.submit_effects i
  · rfl

theorem Turned.polled {after : Threads σ ι ε × List (Event σ ι ε)} (hturned : Turned S t after) {id : Nat}
    (h : after.1.effects[id]? = some .polled) : t.effects[id]? = some .polled := by
  cases hturned with
  | launches =>
    rw [getElem?_append_singleton] at h
    split at h
    · cases h
    · exact h
  | _ => exact h

theorem polled_step (S : Setup σ ι ε) {act : Act ι} {id : Nat}
    (h : (t.step S act).1.effects[id]? = some .polled) :
    (t.effects[id]? = some .polled ∧ ∀ exit, act ≠ .leave id exit) ∨
      (act = .look id ∧ t.isSignalled id = false) := by
  have hcases : t.effects[id]? = some .polled ∨ (act = .look id ∧ t.isSignalled id = false) := by
    cases act with
    | work => exact Or.inl ((work_turned S t).polled h)
    | submit i => exact Or.inl (t.submit_effects i ▸ h)
    | look k =>
      change (t.look k).1.effects[id]? = some .polled at h
      unfold look at h
      split at h
      · rcases getElem?_set_cases h with ⟨rfl, heq⟩ | ⟨-, hold⟩
        · split at heq
          · cases heq
          · exact Or.inr ⟨rfl, Bool.eq_false_iff.mpr ‹_›⟩
        · exact Or.inl hold
      · exact Or.inl h
    | send k i => exact Or.inl (t.send_effects k i ▸ h)
    | leave k exit =>
      change (t.leave k exit).1.effects[id]? = some .polled at h
      unfold leave at h
      split at h <;> first | exact Or.inl h | exact Or.inl (polled_of_setLife h nofun)
    | resume k =>
      have hresumed := t.resume_resumed k
      change (t.resume k).1.effects[id]? = some .polled at h
      generalize t.resume k = after at h hresumed
      cases hresumed <;> exact Or.inl h
    | subscribe | read | unsubscribe | destroy | drop => exact Or.inl h
    | silence k =>
      rcases step_silence_cases S t k with hs | hs <;> rw [hs] at h <;> exact Or.inl h
    | signal => rcases step_signal_cases S t with ⟨-, hs⟩ | ⟨-, hs⟩ <;> rw [hs] at h <;> exact Or.inl h
  refine hcases.imp_left fun hold => ⟨hold, ?_⟩
  rintro exit rfl
  exact leave_polled hold h

/-- **Under the signal no effect is polled anew.** One that is polled has been so ever since. -/
theorem polled_before (S : Setup σ ι ε) (hs : t.shutdown = true) {acts : List (Act ι)} {id : Nat}
    (h : (t.runFrom S acts).1.effects[id]? = some .polled) :
    t.effects[id]? = some .polled ∧ ∀ exit, .leave id exit ∉ acts := by
  induction acts generalizing t with
  | nil => exact ⟨h, fun _ => List.not_mem_nil⟩
  | cons act acts ih =>
    rw [runFrom_cons] at h
    obtain ⟨hnext, hstays⟩ := ih (step_shutdown S hs act) h
    rcases polled_step S hnext with ⟨hpolled, hact⟩ | ⟨-, hno⟩
    · refine ⟨hpolled, fun exit hmem => ?_⟩
      rcases List.mem_cons.mp hmem with heq | hmem
      · exact hact exit heq.symm
      · exact hstays exit hmem
    · rw [isSignalled, hs] at hno
      cases hno

/-- Effects that were not being polled when the signal came come to nothing. -/
theorem endings_signalled (S : Setup σ ι ε) (hs : t.shutdown = true) (acts : List (Act ι)) {id : Nat}
    {how : Ending} (h : how ∈ endingsIn id (t.runFrom S acts).2) :
    how = .cancelled ∨ t.effects[id]? = some .polled := by
  refine (runFrom_induct (t := t) (P := fun t' past => t'.shutdown = true ∧
      (t'.effects[id]? = some .polled → t.effects[id]? = some .polled) ∧
      ∀ how ∈ endingsIn id past, how = .cancelled ∨ t.effects[id]? = some .polled)
    ⟨hs, fun hp => hp, nofun⟩ fun act _ t' past ⟨hs', hpolled, hends⟩ => ?_).2.2 how h
  refine ⟨step_shutdown S hs' act, fun hnext => ?_, fun how hmem => ?_⟩
  · have hone : (t'.runFrom S [act]).1.effects[id]? = some .polled := hnext
    exact hpolled (polled_before S hs' hone).1
  · rw [endingsIn_append] at hmem
    rcases List.mem_append.mp hmem with hmem | hmem
    · exact hends how hmem
    · cases step_fares S t' act id with
      | ends how' hold _ _ hn => exact Or.inr (hpolled hold)
      | cancelled _ _ hn =>
        rw [hn] at hmem
        exact Or.inl (List.mem_singleton.mp hmem)
      | same _ hn | launched _ _ hn | begins _ _ _ hn | drops _ _ _ hn | rests _ _ hn =>
        rw [hn] at hmem
        cases hmem

/-- The engine once the signal has come to all. -/
def signalled (t : Threads σ ι ε) : Threads σ ι ε := { t with shutdown := true }

/-- How a teardown begins, by a call of `destroy` or without one. -/
def Act.begins : Act ι → Bool
  | .destroy | .drop => true
  | _ => false

variable {pre mid post : List (Act ι)} {act : Act ι}

theorem step_begins (S : Setup σ ι ε) (t : Threads σ ι ε) (h : act.begins = true) :
    (t.step S act).1.broadcast = t.broadcast.close ∧ (t.step S act).1.hand = t.hand := by
  cases act with
  | destroy | drop => exact ⟨rfl, rfl⟩
  | _ => cases h

theorem run_begun (S : Setup σ ι ε) (pre mid : List (Act ι)) (h : act.begins = true) :
    (run S (pre ++ act :: mid)).1.broadcast.closed = true := by
  have hclosed : ((run S pre).1.step S act).1.broadcast.closed = true := by
    rw [(step_begins S (run S pre).1 h).1]
    rfl
  rw [run_split]
  exact (hushed_runFrom S hclosed mid).closed

/-- A run with a teardown, up to the signal and from then on. -/
theorem run_signalled (S : Setup σ ι ε) (pre mid post : List (Act ι)) (h : act.begins = true) :
    run S (pre ++ act :: (mid ++ Act.signal :: post)) =
      (((run S (pre ++ act :: mid)).1.signalled.runFrom S post).1,
        (run S (pre ++ act :: mid)).2 ++ ((run S (pre ++ act :: mid)).1.signalled.runFrom S post).2) := by
  have hsignal : (run S (pre ++ act :: mid)).1.step S .signal =
      ((run S (pre ++ act :: mid)).1.signalled, []) := step_signal S (run_begun S pre mid h)
  have hsplit := run_split S (pre ++ act :: mid) .signal post
  rw [hsignal, List.append_assoc, List.cons_append, List.nil_append] at hsplit
  exact hsplit

end Threads

end IntentLoop.Engine
