import IntentLoop.Transfer.Transfer
import IntentLoop.Proofs.Engine.Aftermath
/-!
# The engine of a transfer

No callback of a transfer ever breaks off, and what is valid depends on the state alone: a submission
when the transfer is idle, an outcome when it is pending. So as long as nothing but submissions and
outcomes comes to the engine, its worker can only go from idle to pending, and from there to the state
that an outcome says (`Mark`, `Goes`).

On threads the worker may be anywhere on its way when others act. `Grip` says what it can have in hand at
a mark, and at which mark its publications are then; `Path` is what holds of the whole engine. A step of the
worker keeps it and launches the only effect, if anything (`Path.work`, `Launch`), and whatever the others
do keeps it too (`Path.apart`).
-/

namespace IntentLoop.Transfer

open Engine (publishedIn acceptedIn launchesIn Hand Workless)
open Engine.Threads (Passes Skips Turned)

abbrev EngineEvent := Engine.Event State Intent Effect

abbrev EngineThreads := Engine.Threads State Intent Effect

/-! ### What a history tells of intents -/

/-- The outcome that an intent submits. -/
def Intent.outcome? : Intent → Option (Poll.Outcome String)
  | .outcome o => some o
  | _ => none

/-- Submissions and outcomes. -/
def Intent.isUsual : Intent → Bool
  | .submit | .outcome _ => true
  | .broken _ | .reset => false

/-- The intent that was applied. -/
def applied? : EngineEvent → Option Intent
  | .applied i _ => some i
  | _ => none

/-- The intents that were applied, in order. -/
def appliedIn (past : List EngineEvent) : List Intent := past.filterMap applied?

/-- The outcomes that the engine took into its queue, in order. -/
def outcomesIn (past : List EngineEvent) : List (Poll.Outcome String) :=
  (acceptedIn past).filterMap Intent.outcome?

theorem appliedIn_append (past later : List EngineEvent) :
    appliedIn (past ++ later) = appliedIn past ++ appliedIn later := List.filterMap_append

theorem outcomesIn_append (past later : List EngineEvent) :
    outcomesIn (past ++ later) = outcomesIn past ++ outcomesIn later := by
  rw [outcomesIn, Engine.acceptedIn_append, List.filterMap_append]
  rfl

theorem mem_outcomesIn_append {o : Poll.Outcome String} {past : List EngineEvent}
    (h : o ∈ outcomesIn past) (later : List EngineEvent) : o ∈ outcomesIn (past ++ later) := by
  rw [outcomesIn_append]
  exact List.mem_append_left _ h

theorem accepted_of_mem_outcomesIn {o : Poll.Outcome String} {past : List EngineEvent}
    (h : o ∈ outcomesIn past) : .accepted (.outcome o) ∈ past := by
  obtain ⟨i, hi, hio⟩ := List.mem_filterMap.mp h
  cases i <;> cases hio
  obtain ⟨⟨-, taken⟩, hsent, rfl⟩ := List.mem_map.mp hi
  obtain ⟨hsent, rfl⟩ := List.mem_filter.mp hsent
  obtain ⟨event, hmem, hevent⟩ := List.mem_filterMap.mp hsent
  cases event <;> cases hevent
  exact hmem

theorem published_of_mem_publishedIn {state : State} {past : List EngineEvent}
    (h : state ∈ publishedIn past) : .published state ∈ past := by
  obtain ⟨event, hmem, hevent⟩ := List.mem_filterMap.mp h
  cases event <;> cases hevent
  exact hmem

/-- Does the event tell of nothing that was published, applied or launched? -/
def isPlain : EngineEvent → Bool
  | .published _ | .applied _ _ | .launched _ _ => false
  | _ => true

/-- Nothing was published, applied or launched. -/
def Plain (events : List EngineEvent) : Prop := ∀ event ∈ events, isPlain event = true

namespace Plain

variable {events : List EngineEvent}

theorem nil : Plain [] := fun _ hmem => absurd hmem List.not_mem_nil

theorem filterMap {β : Type} (h : Plain events) {f : EngineEvent → Option β}
    (hf : ∀ event, isPlain event = true → f event = none) : events.filterMap f = [] :=
  List.filterMap_eq_nil_iff.mpr fun event hmem => hf event (h event hmem)

theorem publishedIn (h : Plain events) : publishedIn events = [] := by
  refine h.filterMap fun event hevent => ?_
  cases event <;> first | rfl | cases hevent

theorem appliedIn (h : Plain events) : appliedIn events = [] := by
  refine h.filterMap fun event hevent => ?_
  cases event <;> first | rfl | cases hevent

theorem launchesIn (h : Plain events) : launchesIn events = [] := by
  refine h.filterMap fun event hevent => ?_
  cases event <;> first | rfl | cases hevent

theorem append {more : List EngineEvent} (h : Plain events) (hmore : Plain more) :
    Plain (events ++ more) := by
  intro event hmem
  rcases List.mem_append.mp hmem with hmem | hmem
  · exact h event hmem
  · exact hmore event hmem

theorem of_workless (h : Workless events) : Plain events := by
  intro event hmem
  have hevent := h event hmem
  cases event <;> first | rfl | cases hevent

theorem of_compare {previous : Option Intent} {i : Intent} {answer : Attempt Bool}
    (h : Engine.compare setup previous i = (answer, events)) : Plain events := by
  cases previous <;> cases h
  · exact nil
  · exact fun event hmem => List.mem_singleton.mp hmem ▸ rfl

end Plain

/-- An intent that may come to a transfer. -/
inductive Came (past : List EngineEvent) : Intent → Prop
  | submit : Came past .submit
  | outcome (o : Poll.Outcome String) (h : o ∈ outcomesIn past) : Came past (.outcome o)

theorem Came.append {past : List EngineEvent} {i : Intent} (h : Came past i) (events : List EngineEvent) :
    Came (past ++ events) i := by
  cases h with
  | submit => exact .submit
  | outcome o h => exact .outcome o (mem_outcomesIn_append h events)

theorem Came.of_accepted {past : List EngineEvent} {i : Intent} (h : i ∈ acceptedIn past)
    (husual : i.isUsual = true) : Came past i := by
  cases i with
  | submit => exact .submit
  | outcome o => exact .outcome o (List.mem_filterMap.mpr ⟨.outcome o, h, rfl⟩)
  | broken | reset => cases husual

/-! ### How far a transfer has come -/

/-- How far the worker of a transfer has come. -/
inductive Mark where
  | idle
  | pending
  /-- The outcome was applied. -/
  | finished (outcome : Poll.Outcome String)

namespace Mark

def state : Mark → State
  | idle => .idle
  | pending => .pending
  | finished o => (Intent.outcome o).next

/-- The states passed through by then, without the first one. -/
def states : Mark → List State
  | idle => []
  | pending => [.pending]
  | finished o => [.pending, (Intent.outcome o).next]

/-- The intents applied by then. -/
def applied : Mark → List Intent
  | idle => []
  | pending => [.submit]
  | finished o => [.submit, .outcome o]

theorem getLast?_states (m : Mark) : (State.idle :: m.states).getLast? = some m.state := by
  cases m <;> rfl

end Mark

/-- An intent takes a transfer to its next mark. -/
inductive Goes : Mark → Intent → Mark → Prop
  | begins : Goes .idle .submit .pending
  | ends (o : Poll.Outcome String) : Goes .pending (.outcome o) (.finished o)

namespace Goes

variable {m m' : Mark} {i : Intent}

theorem next_eq (h : Goes m i m') : i.next = m'.state := by
  cases h <;> rfl

theorem states_eq (h : Goes m i m') : m'.states = m.states ++ [m'.state] := by
  cases h <;> rfl

theorem applied_eq (h : Goes m i m') : m'.applied = m.applied ++ [i] := by
  cases h <;> rfl

theorem finished {past : List EngineEvent} (h : Goes m i m') (hi : Came past i) :
    ∀ o, m' = .finished o → o ∈ outcomesIn past := by
  rintro o rfl
  cases h
  cases hi
  assumption

theorem differs (h : Goes m i m') : setup.rules.same m.state m'.state = false := by
  cases h with
  | begins => rfl
  | ends o => cases o <;> rfl

/-- An intent that comes to a transfer is valid at one mark only. -/
theorem of_valid {past : List EngineEvent} (hcame : Came past i) (hv : i.isValidIn m.state = true) :
    ∃ m', Goes m i m' := by
  cases hcame with
  | submit =>
    cases m with
    | idle => exact ⟨.pending, .begins⟩
    | pending => cases hv
    | finished o => cases o <;> cases hv
  | outcome o =>
    cases m with
    | pending => exact ⟨.finished o, .ends o⟩
    | idle => cases hv
    | finished o' => cases o' <;> cases hv

end Goes

/-! ### What the worker has in hand -/

/-- What the worker may have in hand at a mark, and the mark that the last state had that it published or
kept to itself. -/
inductive Grip (past : List EngineEvent) : Mark → Hand State Intent Effect → Mark → Prop
  | free (m : Mark) : Grip past m .free m
  | cleared (m : Mark) : Grip past m .cleared m
  | taken (m : Mark) {i : Intent} (hi : Came past i) : Grip past m (.taken i) m
  | fresh (m : Mark) {i : Intent} (hi : Came past i) : Grip past m (.fresh i) m
  | valid {m m' : Mark} {i : Intent} (hi : Came past i) (h : Goes m i m') : Grip past m (.valid i) m
  | handled : Grip past .idle (.handled .submit .poll) .idle
  | launched {m m' : Mark} {i : Intent} (hi : Came past i) (h : Goes m i m') : Grip past m (.launched i) m
  | reduced {m m' : Mark} {i : Intent} (hi : Came past i) (h : Goes m i m') :
      Grip past m (.reduced i m'.state) m
  | announced {m m' : Mark} {i : Intent} (hi : Came past i) (h : Goes m i m') :
      Grip past m (.announced i m'.state) m'
  | kept {m m' : Mark} {i : Intent} (hi : Came past i) (h : Goes m i m') :
      Grip past m (.kept i m'.state) m'
  | leaving (m : Mark) : Grip past m (.leaving (.ok (.ok ()))) m

theorem Grip.append {past : List EngineEvent} {m r : Mark} {hand : Hand State Intent Effect}
    (h : Grip past m hand r) (events : List EngineEvent) : Grip (past ++ events) m hand r := by
  cases h with
  | free => exact .free _
  | cleared => exact .cleared _
  | taken _ hi => exact .taken _ (hi.append events)
  | fresh _ hi => exact .fresh _ (hi.append events)
  | valid hi h => exact .valid (hi.append events) h
  | handled => exact .handled
  | launched hi h => exact .launched (hi.append events) h
  | reduced hi h => exact .reduced (hi.append events) h
  | announced hi h => exact .announced (hi.append events) h
  | kept hi h => exact .kept (hi.append events) h
  | leaving => exact .leaving _

/-- The number of effects launched by then. -/
def launchedBy : Mark → Hand State Intent Effect → Nat
  | .idle, .launched _ | .idle, .reduced _ _ | .idle, .announced _ _ | .idle, .kept _ _ => 1
  | .idle, _ => 0
  | .pending, _ | .finished _, _ => 1

/-! ### The engine -/

/-- What was published of the states up to a mark. After a close there may be fewer of them. -/
structure Shown (r : Mark) (b : Broadcast State) (past : List EngineEvent) : Prop where
  published : publishedIn past <+: r.states
  opened : b.closed = false → publishedIn past = r.states
  last : (State.idle :: publishedIn past).getLast? = some b.last

namespace Shown

variable {r : Mark} {b b' : Broadcast State} {past : List EngineEvent}

theorem congr (h : Shown r b past) (hlast : b'.last = b.last)
    (hclosed : b'.closed = false → b.closed = false) {events : List EngineEvent}
    (hnone : publishedIn events = []) : Shown r b' (past ++ events) := by
  have hsame : publishedIn (past ++ events) = publishedIn past := by
    rw [Engine.publishedIn_append, hnone, List.append_nil]
  refine ⟨?_, fun hopen => ?_, ?_⟩
  · rw [hsame]
    exact h.published
  · rw [hsame]
    exact h.opened (hclosed hopen)
  · rw [hsame, hlast]
    exact h.last

theorem last_eq (h : Shown r b past) (hopen : b.closed = false) : b.last = r.state := by
  have hlast := h.last
  rw [h.opened hopen, r.getLast?_states] at hlast
  exact (Option.some.inj hlast).symm

theorem next (h : Shown r b past) {r' : Mark} {i : Intent} (hgoes : Goes r i r')
    (hopen : b.closed = false) :
    Shown r' (b.publish setup.rules.same r'.state).2 (past ++ [.published r'.state]) := by
  have hpublish : b.publish setup.rules.same r'.state =
      (true, { b with last := r'.state, streams := b.streams.map (·.deliver r'.state) }) := by
    simp [Broadcast.publish, hopen, h.last_eq hopen, hgoes.differs]
  have hall : publishedIn (past ++ [.published r'.state]) = r'.states := by
    rw [Engine.publishedIn_append, h.opened hopen, hgoes.states_eq]
    rfl
  rw [hpublish]
  refine ⟨hall ▸ List.prefix_rfl, fun _ => hall, ?_⟩
  rw [hall]
  exact r'.getLast?_states

/-- The next state is kept to itself, which only a close makes the worker do. -/
theorem kept (h : Shown r b past) {r' : Mark} {i : Intent} (hgoes : Goes r i r')
    (hkept : b.closed = true ∨ setup.rules.same b.last r'.state = true) : Shown r' b past := by
  refine ⟨?_, fun hopen => ?_, h.last⟩
  · rw [hgoes.states_eq]
    exact h.published.trans (List.prefix_append _ _)
  · rcases hkept with hclosed | hsame
    · rw [hopen] at hclosed
      cases hclosed
    · rw [h.last_eq hopen, hgoes.differs] at hsame
      cases hsame

end Shown

/-- An engine whose worker has come so far. -/
structure Path (m r : Mark) (t : EngineThreads) (past : List EngineEvent) : Prop where
  alive : t.isAlive = true → ∃ previous, t.worker = .alive m.state previous
  grip : Grip past m t.hand r
  inbox : ∀ i ∈ t.inbox, Came past i
  shown : Shown r t.broadcast past
  applied : appliedIn past = m.applied
  finished : ∀ o, r = .finished o → o ∈ outcomesIn past
  effects : t.effects.length = launchedBy m t.hand

/-- How an act bears on the effects: it leaves them alone, or launches the only one. -/
inductive Launch (t : EngineThreads) (after : EngineThreads × List EngineEvent) : Prop
  | nothing (heffects : after.1.effects = t.effects) (hlaunches : launchesIn after.2 = [])
  | effect (hbefore : t.effects = []) (heffects : after.1.effects = [.resting])
      (hlaunches : launchesIn after.2 = [(0, .poll)])

namespace Path

variable {m r : Mark} {t : EngineThreads} {past events : List EngineEvent}

theorem start : Path .idle .idle (Engine.Threads.start setup) [] where
  alive _ := ⟨none, rfl⟩
  grip := .free _
  inbox := nofun
  shown := ⟨List.prefix_rfl, fun _ => rfl, rfl⟩
  applied := rfl
  finished := nofun
  effects := rfl

theorem accepted (h : Path m r t past) {v : String} (hv : State.settled v ∈ publishedIn past) :
    .final v ∈ outcomesIn past := by
  have hmem := h.shown.published.subset hv
  cases r with
  | idle => cases hmem
  | pending => cases List.mem_singleton.mp hmem
  | finished o =>
    refine h.finished _ ?_
    rcases List.mem_cons.mp hmem with hno | hlast
    · cases hno
    · cases o <;> cases List.mem_singleton.mp hlast
      rfl

/-! ### What the worker does -/

theorem state_eq (h : Path m r t past) {state : State} {previous : Option Intent}
    (hw : t.worker = .alive state previous) : state = m.state := by
  obtain ⟨previous', hw'⟩ := h.alive (Engine.Threads.isAlive_of_alive hw)
  rw [hw] at hw'
  cases hw'
  rfl

theorem hold (h : Path m r t past) {next : Hand State Intent Effect}
    (hgrip : Grip past m next r) (hplain : Plain events)
    (heffects : launchedBy m next = launchedBy m t.hand) :
    Path m r (t.hold next) (past ++ events) where
  alive := h.alive
  grip := hgrip.append events
  inbox i hi := (h.inbox i hi).append events
  shown := h.shown.congr rfl id hplain.publishedIn
  applied := by rw [appliedIn_append, h.applied, hplain.appliedIn, List.append_nil]
  finished o ho := mem_outcomesIn_append (h.finished o ho) events
  effects := h.effects.trans heffects.symm

theorem kept (h : Path m m t past) {i : Intent} {m' : Mark} (hi : Came past i) (hgoes : Goes m i m')
    (hh : t.hand = .reduced i m'.state)
    (hkept : t.broadcast.closed = true ∨ setup.rules.same t.broadcast.last m'.state = true) :
    Path m m' (t.hold (.kept i m'.state)) past where
  alive := h.alive
  grip := .kept hi hgoes
  inbox := h.inbox
  shown := h.shown.kept hgoes hkept
  applied := h.applied
  finished := hgoes.finished hi
  effects := by
    rw [Engine.Threads.hold, h.effects, hh]
    cases hgoes <;> rfl

theorem passes (h : Path m r t past) {previous : Option Intent} {hand next : Hand State Intent Effect}
    (hh : t.hand = hand) (hp : Passes setup m.state previous t hand next events) :
    Plain events ∧ ∃ r', Path m r' (t.hold next) (past ++ events) := by
  have hgrip := h.grip
  rw [hh] at hgrip
  have same : Grip past m next r → Plain events → launchedBy m next = launchedBy m hand →
      Plain events ∧ ∃ r', Path m r' (t.hold next) (past ++ events) := fun hg hplain heffects =>
    ⟨hplain, r, h.hold hg hplain (hh ▸ heffects)⟩
  have one : ∀ {event : EngineEvent}, isPlain event = true → Plain [event] :=
    fun hevent other hmem => List.mem_singleton.mp hmem ▸ hevent
  cases hp with
  | clears =>
    cases hgrip
    exact same (.cleared m) .nil (by cases m <;> rfl)
  | quits =>
    cases hgrip
    exact same (.leaving m) .nil (by cases m <;> rfl)
  | waits =>
    cases hgrip
    exact same (.free m) .nil (by cases m <;> rfl)
  | compared hc =>
    cases hgrip with
    | taken _ hi => exact same (.fresh m hi) (.of_compare hc) (by cases m <;> rfl)
  | validated hv =>
    cases hgrip with
    | fresh _ hi =>
      obtain ⟨m', hgoes⟩ := Goes.of_valid hi (Except.ok.inj hv)
      exact same (.valid hi hgoes) (one rfl) (by cases m <;> rfl)
  | alone hh' hp' =>
    cases hgrip with
    | valid hi hgoes =>
      cases hh'
      cases hgoes with
      | begins => cases hp'
      | ends o => exact same (.launched hi (.ends o)) (one rfl) rfl
  | handled hh' hp' =>
    cases hgrip with
    | valid hi hgoes =>
      cases hh'
      cases hgoes with
      | begins =>
        cases hp'
        exact same .handled (one rfl) rfl
      | ends o => cases hp'
  | reduced hr =>
    cases hgrip with
    | launched hi hgoes =>
      obtain rfl := (Except.ok.inj hr).symm.trans hgoes.next_eq
      exact same (.reduced hi hgoes) (one rfl) (by cases hgoes <;> rfl)
  | same hkept =>
    cases hgrip with
    | reduced hi hgoes =>
      exact ⟨.nil, _, by simpa using h.kept hi hgoes hh hkept⟩
  | observed ho hn =>
    cases hgrip with
    | announced hi hgoes => exact same (.kept hi hgoes) (one rfl) (by cases hgoes <;> rfl)
  | uncompared hc => cases previous <;> cases hc
  | unvalidated hv => cases hv
  | unhandled hh' | unobserved hh' => cases hh'
  | unperformed hh' hp' =>
    cases hh'
    cases hp'
  | unreduced hr => cases hr
  | unnoticed ho hn =>
    cases ho
    cases hn
  | reported => cases hgrip

theorem takes (h : Path m r t past) {i : Intent} {rest : List Intent} (hh : t.hand = .cleared)
    (hi : t.inbox = i :: rest) :
    Path m r { t with inbox := rest, hand := .taken i } (past ++ [.received i]) := by
  have hgrip := h.grip
  rw [hh] at hgrip
  cases hgrip
  have hcame : ∀ j ∈ i :: rest, Came past j := hi ▸ h.inbox
  refine ⟨h.alive, ?_, fun j hj => ?_, h.shown.congr rfl id rfl, ?_, fun o ho => ?_, ?_⟩
  · exact .taken m ((hcame i List.mem_cons_self).append _)
  · exact (hcame j (List.mem_cons_of_mem i hj)).append _
  · exact (appliedIn_append _ _).trans (h.applied ▸ List.append_nil _)
  · exact mem_outcomesIn_append (h.finished o ho) _
  · refine h.effects.trans ?_
    rw [hh]
    cases m <;> rfl

theorem skips (h : Path m r t past) {previous : Option Intent} {i : Intent}
    {hand : Hand State Intent Effect} (hh : t.hand = hand)
    (hs : Skips setup m.state previous i hand events) :
    Plain events ∧ Path m r (t.done m.state i) (past ++ events) := by
  have hgrip := h.grip
  rw [hh] at hgrip
  have hskip : r = m ∧ Plain events ∧ launchedBy m .free = launchedBy m t.hand := by
    rw [hh]
    cases hs with
    | repeated hc =>
      cases hgrip
      refine ⟨rfl, ?_, by cases m <;> rfl⟩
      exact (Plain.of_compare hc).append fun event hmem => List.mem_singleton.mp hmem ▸ rfl
    | refused =>
      cases hgrip
      exact ⟨rfl, by simp [Plain, isPlain], by cases m <;> rfl⟩
  obtain ⟨rfl, hplain, heffects⟩ := hskip
  refine ⟨hplain, fun _ => ⟨_, rfl⟩, .free r, fun j hj => (h.inbox j hj).append _,
    h.shown.congr rfl id hplain.publishedIn, ?_, fun o ho => ?_, h.effects.trans heffects.symm⟩
  · rw [appliedIn_append, h.applied, hplain.appliedIn, List.append_nil]
  · exact mem_outcomesIn_append (h.finished o ho) _

theorem launches (h : Path m r t past) {i : Intent} {effect : Effect} (hh : t.hand = .handled i effect) :
    t.effects = [] ∧ effect = .poll ∧
      Path m r { t with effects := t.effects ++ [.resting], hand := .launched i }
        (past ++ [.launched t.effects.length effect]) := by
  have hgrip := h.grip
  rw [hh] at hgrip
  cases hgrip
  have hnone : t.effects = [] := by
    have heffects := h.effects
    rw [hh] at heffects
    exact List.eq_nil_of_length_eq_zero heffects
  refine ⟨hnone, rfl, h.alive, .launched .submit .begins, fun j hj => (h.inbox j hj).append _,
    h.shown.congr rfl id rfl, ?_, nofun, by rw [hnone]; rfl⟩
  rw [appliedIn_append, h.applied]
  rfl

theorem publishes (h : Path m r t past) {i : Intent} {next : State} (hh : t.hand = .reduced i next)
    (hopen : t.broadcast.closed = false) :
    ∃ r', Path m r'
      { t with broadcast := (t.broadcast.publish setup.rules.same next).2, hand := .announced i next }
      (past ++ [.published next]) := by
  have hgrip := h.grip
  rw [hh] at hgrip
  cases hgrip with
  | @reduced m m' _ hi hgoes =>
    refine ⟨m', h.alive, .announced (hi.append _) hgoes, fun j hj => (h.inbox j hj).append _,
      h.shown.next hgoes hopen, ?_, hgoes.finished (hi.append _), ?_⟩
    · exact (appliedIn_append _ _).trans (h.applied ▸ List.append_nil _)
    · refine h.effects.trans ?_
      rw [hh]
      cases hgoes <;> rfl

theorem applies (h : Path m r t past) {i : Intent} {next : State} (hh : t.hand = .kept i next) :
    Path r r (t.done next i) (past ++ [.applied i next]) := by
  have hgrip := h.grip
  rw [hh] at hgrip
  cases hgrip with
  | kept hi hgoes =>
    refine ⟨fun _ => ⟨_, rfl⟩, .free r, fun j hj => (h.inbox j hj).append _, h.shown.congr rfl id rfl, ?_,
      fun o ho => mem_outcomesIn_append (h.finished o ho) _, ?_⟩
    · rw [appliedIn_append, h.applied, hgoes.applied_eq]
      rfl
    · refine h.effects.trans ?_
      rw [hh]
      cases hgoes <;> rfl

theorem ends (h : Path m r t past) {outcome : Attempt (Except EngineError Unit)}
    (hh : t.hand = .leaving outcome) :
    outcome = .ok (.ok ()) ∧
      Path m r { t with worker := Engine.Threads.gone outcome, hand := .free, inbox := [] } past := by
  have hgrip := h.grip
  rw [hh] at hgrip
  cases hgrip
  refine ⟨rfl, nofun, .free m, nofun, h.shown, h.applied, h.finished, h.effects.trans ?_⟩
  rw [hh]
  cases m <;> rfl

/-- **A step of the worker keeps the engine of a transfer on its path**, and launches its only effect, if
anything. -/
theorem work (h : Path m r t past) :
    (∃ m' r', Path m' r' (t.work setup).1 (past ++ (t.work setup).2)) ∧ Launch t (t.work setup) := by
  have hturned := Engine.Threads.work_turned setup t
  generalize t.work setup = after at hturned ⊢
  cases hturned with
  | dead => exact ⟨⟨m, r, by simpa using h⟩, .nothing rfl rfl⟩
  | passes state previous hand next events hw hh hp =>
    obtain rfl := h.state_eq hw
    obtain ⟨hplain, r', hpath⟩ := h.passes hh hp
    exact ⟨⟨m, r', hpath⟩, .nothing rfl hplain.launchesIn⟩
  | takes state previous i rest hw hh hi => exact ⟨⟨m, r, h.takes hh hi⟩, .nothing rfl rfl⟩
  | skips state previous i hand events hw hh hs =>
    obtain rfl := h.state_eq hw
    obtain ⟨hplain, hpath⟩ := h.skips hh hs
    exact ⟨⟨m, r, hpath⟩, .nothing rfl hplain.launchesIn⟩
  | launches state previous i effect hw hh =>
    obtain ⟨hnone, rfl, hpath⟩ := h.launches hh
    refine ⟨⟨m, r, hpath⟩, .effect hnone ?_ ?_⟩
    · rw [hnone]
      rfl
    · rw [hnone]
      rfl
  | publishes state previous i next hw hh hopen =>
    obtain ⟨r', hpath⟩ := h.publishes hh hopen
    exact ⟨⟨m, r', hpath⟩, .nothing rfl rfl⟩
  | applies state previous i next hw hh => exact ⟨⟨r, r, h.applies hh⟩, .nothing rfl rfl⟩
  | halts state previous i p hw hh =>
    have hgrip := h.grip
    rw [hh] at hgrip
    cases hgrip
  | ends state previous outcome hw hh =>
    obtain ⟨rfl, hpath⟩ := h.ends hh
    exact ⟨⟨m, r, by simpa [Engine.Threads.epitaph] using hpath⟩, .nothing rfl rfl⟩

/-! ### What the others do -/

/-- Whatever others do keeps the engine of a transfer on its path, as long as they submit nothing but
submissions and outcomes. -/
theorem apart (h : Path m r t past) {act : Engine.Threads.Act Intent} (hact : act ≠ .work)
    (husual : ∀ i, act.intent? = some i → i.isUsual = true) :
    Path m r (t.step setup act).1 (past ++ (t.step setup act).2) := by
  have haside := Engine.Threads.step_aside setup t hact
  have hplain := Plain.of_workless haside.workless
  have hqueues := Engine.Threads.step_queues setup t hact
  refine ⟨fun halive => ?_, ?_, fun i hi => ?_, ?_, ?_, fun o ho => ?_, ?_⟩
  · rw [haside.worker]
    exact h.alive (Engine.Threads.isAlive_of_worker haside.worker ▸ halive)
  · rw [haside.hand]
    exact h.grip.append _
  · rw [hqueues.inbox] at hi
    rcases List.mem_append.mp hi with hi | hi
    · exact (h.inbox i hi).append _
    · refine .of_accepted ?_ (husual i ?_)
      · rw [Engine.acceptedIn_append]
        exact List.mem_append_right _ hi
      · exact Option.mem_toList.mp (hqueues.accepted.subset hi)
  · refine h.shown.congr haside.last (fun hopen => ?_) hplain.publishedIn
    cases hclosed : t.broadcast.closed with
    | false => rfl
    | true => exact absurd hopen (by rw [Engine.Threads.step_closed setup hclosed act]; nofun)
  · rw [appliedIn_append, h.applied, hplain.appliedIn, List.append_nil]
  · exact mem_outcomesIn_append (h.finished o ho) _
  · rw [haside.length, haside.hand, h.effects]

end Path

/-! ### Outcomes -/

section Outcomes

variable {t : EngineThreads}

theorem outcomesIn_step (t : EngineThreads) {act : Engine.Threads.Act Intent}
    (h : ∀ o, act.intent? ≠ some (.outcome o)) : outcomesIn (t.step setup act).2 = [] := by
  by_cases hact : act = .work
  · subst hact
    have hsent : Engine.sentIn (t.step setup .work).2 = [] :=
      (Engine.Threads.work_turned setup t).working.sent
    rw [outcomesIn, acceptedIn, hsent]
    rfl
  · refine List.filterMap_eq_nil_iff.mpr fun i hi => ?_
    have hmem := (Engine.Threads.step_queues setup t hact).accepted.subset hi
    cases i with
    | outcome o => exact absurd (Option.mem_toList.mp hmem) (h o)
    | submit | broken | reset => rfl

/-- The outcome that an effect submits is accepted or rejected. -/
theorem outcomesIn_send (t : EngineThreads) (id : Nat) (o : Poll.Outcome String) :
    outcomesIn (t.step setup (.send id (.outcome o))).2 = [] ∨
      outcomesIn (t.step setup (.send id (.outcome o))).2 = [o] := by
  have hact : Engine.Threads.Act.send id (Intent.outcome o) ≠ .work := nofun
  have hsub : (outcomesIn (t.step setup (.send id (.outcome o))).2).Sublist [o] :=
    (Engine.Threads.step_queues setup t hact).accepted.filterMap Intent.outcome?
  rcases List.sublist_singleton.mp hsub with hnone | hone
  · exact Or.inl hnone
  · exact Or.inr hone

end Outcomes

end IntentLoop.Transfer
