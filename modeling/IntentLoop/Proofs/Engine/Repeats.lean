import IntentLoop.Proofs.Engine.Isolation
import Mathlib.Data.List.Forall2
/-!
# Repeats are harmless

The structural filter compares an intent with the one received just before it, whatever has become of
that one. So an intent may be offered several times in a row where it was offered once (`Copies`): all
copies but the first are received, compared and dropped, be the intent valid or not, a repeat itself, or
one at which a callback breaks off.

Two engines are `Twin` if their workers differ in no more than the intent that they remember, and those
are equal. One that receives the copies stays a twin of one that receives the intents, and nothing is
told of it that matters (`Twin.copies`). Since all that a worker does is settled by what it receives,
that goes for any two runs to which the intents were offered so, whoever submitted them and when
(`repeats_are_harmless`).
-/

namespace IntentLoop

variable {σ ι ε : Type}

/-- Nothing in the setup tells the two intents apart, but for the filter. -/
structure Setup.Interchangeable (S : Setup σ ι ε) (i c : ι) : Prop where
  valid : ∀ state, S.rules.valid i state = S.rules.valid c state
  reduce : ∀ state, S.rules.reduce i state = S.rules.reduce c state
  describe : S.rules.describe i = S.rules.describe c
  perform : ∀ h, S.handler = some h → ∀ state, h.perform state i = h.perform state c

namespace Engine

variable {S : Setup σ ι ε} {e q : Engine σ ι} {r : ι → ι → Prop}

/-- In place of each intent of the first list, the second one holds an intent that stands in for it,
and any number of copies of that right behind. -/
inductive Copies [BEq ι] (r : ι → ι → Prop) : List ι → List ι → Prop
  | nil : Copies r [] []
  | cons {i c : ι} {more rest rest' : List ι} (hr : r i c) (hmore : ∀ d ∈ more, (c == d) = true)
      (h : Copies r rest rest') : Copies r (i :: rest) (c :: (more ++ rest'))

/-! ### What matters of what is told -/

/-- Is it told outside the engine that the event has happened? -/
def Event.matters : Event σ ι ε → Bool
  | .performed _ _ | .launched _ _ | .published _ | .observed _ | .reported _ _ _ => true
  | _ => false

/-- None of the events matters. -/
def Muted (events : List (Event σ ι ε)) : Prop := ∀ event ∈ events, event.matters = false

theorem Muted.filterMap {β : Type} {events : List (Event σ ι ε)} (h : Muted events)
    {f : Event σ ι ε → Option β} (hf : ∀ event, event.matters = false → f event = none) :
    events.filterMap f = [] :=
  List.filterMap_eq_nil_iff.mpr fun event hmem => hf event (h event hmem)

theorem Muted.append {events more : List (Event σ ι ε)} (h : Muted events) (hm : Muted more) :
    Muted (events ++ more) := List.forall_mem_append.mpr ⟨h, hm⟩

theorem Workless.muted {events : List (Event σ ι ε)} (h : Workless events) : Muted events := by
  intro event hmem
  have hevent := h event hmem
  cases event <;> first | rfl | cases hevent

/-- All that matters is told in both cases, and the handler is asked about intents that stand in for
each other. -/
structure Matching (r : ι → ι → Prop) (past past' : List (Event σ ι ε)) : Prop where
  published : publishedIn past = publishedIn past'
  observed : observedIn past = observedIn past'
  performed : List.Forall₂ (fun call call' => call.1 = call'.1 ∧ r call.2 call'.2)
    (performedIn past) (performedIn past')
  launched : launchesIn past = launchesIn past'
  reported : reportsIn past = reportsIn past'

namespace Matching

variable {past past' events events' : List (Event σ ι ε)}

theorem append (h : Matching r past past') (hm : Matching r events events') :
    Matching r (past ++ events) (past' ++ events') where
  published := by rw [publishedIn_append, h.published, hm.published, publishedIn_append]
  observed := by rw [observedIn_append, h.observed, hm.observed, observedIn_append]
  performed := by
    rw [performedIn_append, performedIn_append]
    exact List.rel_append h.performed hm.performed
  launched := by rw [launchesIn_append, h.launched, hm.launched, launchesIn_append]
  reported := by rw [reportsIn_append, h.reported, hm.reported, reportsIn_append]

theorem of_unperformed (h : performedIn events = []) : Matching r events events :=
  ⟨rfl, rfl, h ▸ .nil, rfl, rfl⟩

theorem of_muted (h : Muted events) (h' : Muted events') : Matching r events events' := by
  have none_of : ∀ {β : Type} (f : Event σ ι ε → Option β),
      (∀ event, event.matters = false → f event = none) →
      events.filterMap f = events'.filterMap f ∧ events.filterMap f = [] := by
    intro β f hf
    exact ⟨(h.filterMap hf).trans (h'.filterMap hf).symm, h.filterMap hf⟩
  have hcalls : performedIn events = performedIn events' ∧ performedIn events = [] :=
    none_of Event.performed? fun event hevent => by cases event <;> first | rfl | cases hevent
  refine ⟨(none_of Event.published? ?_).1, (none_of Event.observed? ?_).1, ?_,
    (none_of Event.launched? ?_).1, (none_of Event.reported? ?_).1⟩
  case refine_3 =>
    rw [← hcalls.1, hcalls.2]
    exact .nil
  all_goals
    intro event hevent
    cases event <;> first | rfl | cases hevent

theorem nil : Matching r ([] : List (Event σ ι ε)) [] := of_unperformed rfl

theorem of_workIn {told told' : List (Event σ ι ε)} (h : Matching r told told')
    (hwork : workIn past = workIn told) (hwork' : workIn past' = workIn told') :
    Matching r past past' := by
  have hcalls : ∀ events : List (Event σ ι ε), performedIn (workIn events) = performedIn events :=
    filterMap_workIn fun event hevent => by cases event <;> first | rfl | cases hevent
  have hlaunches : ∀ events : List (Event σ ι ε), launchesIn (workIn events) = launchesIn events :=
    filterMap_workIn fun event hevent => by cases event <;> first | rfl | cases hevent
  refine ⟨?_, ?_, ?_, ?_, ?_⟩
  · rw [← publishedIn_workIn, hwork, publishedIn_workIn, h.published, ← publishedIn_workIn told',
      ← hwork', publishedIn_workIn]
  · rw [← observedIn_workIn, hwork, observedIn_workIn, h.observed, ← observedIn_workIn told',
      ← hwork', observedIn_workIn]
  · rw [← hcalls past, ← hcalls past', hwork, hwork', hcalls, hcalls]
    exact h.performed
  · rw [← hlaunches, hwork, hlaunches, h.launched, ← hlaunches told', ← hwork', hlaunches]
  · rw [← reportsIn_workIn, hwork, reportsIn_workIn, h.reported, ← reportsIn_workIn told',
      ← hwork', reportsIn_workIn]

end Matching

/-! ### One intent -/

/-- The intents that were received last are equal, if there are any. -/
inductive SameLast [BEq ι] : Option ι → Option ι → Prop
  | first : SameLast none none
  | after {p p' : ι} (h : (p == p') = true) : SameLast (some p) (some p')

/-- The workers do the same, but may remember intents that are merely equal. -/
inductive SameWorker [BEq ι] : Worker σ ι → Worker σ ι → Prop
  | alive (state : σ) {previous previous' : Option ι} (h : SameLast previous previous') :
      SameWorker (.alive state previous) (.alive state previous')
  | returned (result : Except EngineError Unit) : SameWorker (.returned result) (.returned result)
  | crashed (p : Panic) : SameWorker (.crashed p) (.crashed p)

/-- The engines differ in no more than what their workers remember, as far as the workers can tell. -/
structure Twin [BEq ι] (e q : Engine σ ι) : Prop where
  worker : SameWorker e.worker q.worker
  last : e.broadcast.last = q.broadcast.last
  closed : e.broadcast.closed = q.broadcast.closed
  shutdown : e.shutdown = q.shutdown
  effects : e.effects.length = q.effects.length

theorem perform_matching {i c : ι} (hr : r i c) (hsame : S.Interchangeable i c) (state : σ) (id : Nat) :
    (perform S state i id).1 = (perform S state c id).1 ∧
      Matching r (perform S state i id).2 (perform S state c id).2 := by
  have hcalls : ∀ more : List (Event σ ι ε), performedIn more = [] →
      Matching r (.performed state i :: more) (.performed state c :: more) := by
    intro more hmore
    have hone : Matching r [(.performed state i : Event σ ι ε)] [.performed state c] :=
      ⟨rfl, rfl, .cons ⟨rfl, hr⟩ .nil, rfl, rfl⟩
    exact hone.append (.of_unperformed hmore)
  unfold perform
  cases hS : S.handler with
  | none => exact ⟨rfl, .nil⟩
  | some h =>
    dsimp only
    rw [hsame.perform h hS state]
    cases h.perform state c with
    | error p => exact ⟨rfl, hcalls [] rfl⟩
    | ok effect =>
      cases effect with
      | none => exact ⟨rfl, hcalls [] rfl⟩
      | some effect => exact ⟨rfl, hcalls [.launched id effect] rfl⟩

section Equivalence

variable [BEq ι]

theorem Twin.of_akin (h : Akin e q) {q' : Engine σ ι} (ht : Twin q q') : Twin e q' :=
  ⟨h.worker ▸ ht.worker, h.last.trans ht.last, h.closed.trans ht.closed, h.shutdown.trans ht.shutdown,
    h.effects.trans ht.effects⟩

theorem Twin.isAlive (h : Twin e q) : e.isAlive = q.isAlive := by
  have hworker := h.worker
  unfold Engine.isAlive
  generalize e.worker = w, q.worker = w' at hworker
  cases hworker <;> rfl

theorem Twin.outcome? (h : Twin e q) : e.outcome? = q.outcome? := by
  have hworker := h.worker
  unfold Engine.outcome?
  generalize e.worker = w, q.worker = w' at hworker
  cases hworker <;> rfl

/-- A copy of the intent received last is dropped. -/
theorem receive_copy (hS : S.filter = .structural) (state : σ) {p d : ι} (h : (p == d) = true)
    (q : Engine σ ι) :
    q.receive S state (some p) d =
      ({ q with worker := .alive state (some d) }, [.received d, .compared p d, .repeated d]) := by
  have hfate : fate S state (some p) d q.effects.length = (.repeated, [.compared p d, .repeated d]) := by
    unfold fate compare
    rw [hS]
    simp [IntentFilter.structural, h]
  unfold receive
  rw [hfate]

variable [EquivBEq ι]

theorem compare_matching (hS : S.filter = .structural) {previous previous' : Option ι} {i c : ι}
    (hlast : SameLast previous previous') (hic : (i == c) = true) :
    (compare S previous i).1 = (compare S previous' c).1 ∧
      Matching r (compare S previous i).2 (compare S previous' c).2 := by
  cases hlast with
  | first => exact ⟨rfl, .nil⟩
  | @after p p' h =>
    unfold compare
    rw [hS]
    refine ⟨congrArg Except.ok ?_, .of_muted (by simp [Muted, Event.matters])
      (by simp [Muted, Event.matters])⟩
    rw [BEq.congr_left h, BEq.congr_right hic]

/-- An intent that stands in for another one meets its fate. -/
theorem fate_matching (hS : S.filter = .structural) {previous previous' : Option ι} {i c : ι}
    (hlast : SameLast previous previous') (hr : r i c) (hic : (i == c) = true)
    (hsame : S.Interchangeable i c) (state : σ) (id : Nat) :
    (fate S state previous i id).1 = (fate S state previous' c id).1 ∧
      Matching r (fate S state previous i id).2 (fate S state previous' c id).2 := by
  have htold : ∀ {events events' : List (Event σ ι ε)} (event event' : Event σ ι ε),
      Matching r events events' → event.matters = false → event'.matters = false →
      Matching r (events ++ [event]) (events' ++ [event']) := by
    intro events events' event event' h hevent hevent'
    exact h.append (.of_muted (by simp [Muted, hevent]) (by simp [Muted, hevent']))
  obtain ⟨hrepeats, hcompared⟩ := compare_matching (r := r) hS hlast hic
  obtain ⟨hanswer, hperformed⟩ := perform_matching hr hsame state id
  unfold fate
  dsimp only
  rw [hrepeats, hanswer, hsame.valid, hsame.reduce]
  cases (compare S previous' c).1 with
  | error p => exact ⟨rfl, hcompared⟩
  | ok repeats =>
    cases repeats with
    | true => exact ⟨rfl, htold _ _ hcompared rfl rfl⟩
    | false =>
      have hvalidated := htold (.validated i state) (.validated c state) hcompared rfl rfl
      cases S.rules.valid c state with
      | error p => exact ⟨rfl, hvalidated⟩
      | ok valid =>
        cases valid with
        | false => exact ⟨rfl, htold _ _ hvalidated rfl rfl⟩
        | true =>
          have hasked := hvalidated.append hperformed
          have hreduced := htold (.reduced i state) (.reduced c state) hasked rfl rfl
          cases (perform S state c id).1 with
          | error p => exact ⟨rfl, hasked⟩
          | ok effect =>
            dsimp only
            cases S.rules.reduce c state with
            | error p => exact ⟨rfl, hreduced⟩
            | ok next => exact ⟨rfl, hreduced⟩

/-- The same comes of it. -/
theorem receive_swapped (hS : S.filter = .structural) {previous previous' : Option ι} {i c : ι}
    (hlast : SameLast previous previous') (hr : r i c) (hic : (i == c) = true)
    (hsame : S.Interchangeable i c) (state : σ) (q : Engine σ ι) :
    Twin (q.receive S state previous i).1 (q.receive S state previous' c).1 ∧
      Matching r (q.receive S state previous i).2 (q.receive S state previous' c).2 := by
  have twin : ∀ (after : Engine σ ι) {w w' : Worker σ ι}, SameWorker w w' →
      Twin { after with worker := w } { after with worker := w' } :=
    fun after _ _ h => ⟨h, rfl, rfl, rfl, rfl⟩
  have hkept : ∀ next : σ, SameWorker (.alive next (some i)) (.alive next (some c)) :=
    fun next => .alive next (.after hic)
  have hmuted : ∀ event event' : Event σ ι ε, event.matters = false → event'.matters = false →
      Matching r [event] [event'] :=
    fun _ _ h h' => .of_muted (by simp [Muted, h]) (by simp [Muted, h'])
  obtain ⟨hfate, hcalled⟩ := fate_matching hS hlast hr hic hsame state q.effects.length
  have htold := (hmuted (.received i) (.received c) rfl rfl).append hcalled
  unfold receive
  dsimp only
  rw [hfate]
  cases (fate S state previous' c q.effects.length).1 with
  | crashed p =>
    exact ⟨twin { q with inbox := [] } (.crashed p), htold.append (hmuted _ _ rfl rfl)⟩
  | repeated => exact ⟨twin q (hkept state), htold⟩
  | refused => exact ⟨twin q (hkept state), htold⟩
  | failed p effect =>
    dsimp only [halt]
    rw [hsame.describe]
    exact ⟨twin { q.track effect with inbox := [], status := .halted } (.returned _),
      htold.append (.of_unperformed rfl)⟩
  | applied next effect =>
    have hnews : performedIn ((q.track effect).publish S next).2.2 = [] := by
      rcases publish_cases S next (q.track effect) with ⟨-, hp⟩ | ⟨-, -, hp⟩
      · rw [hp]
        rfl
      · rw [hp]
        show performedIn (news S next) = []
        unfold news
        cases S.observer <;> rfl
    have hpublished := htold.append (.of_unperformed hnews)
    dsimp only
    generalize (q.track effect).publish S next = after at hpublished ⊢
    obtain ⟨noticed, after, told⟩ := after
    cases noticed with
    | ok _ => exact ⟨twin after (hkept next), hpublished.append (hmuted _ _ rfl rfl)⟩
    | error p =>
      exact ⟨twin { after with inbox := [] } (.crashed p), hpublished.append (hmuted _ _ rfl rfl)⟩

end Equivalence

theorem receive_worker (S : Setup σ ι ε) (state : σ) (previous : Option ι) (i : ι) (worker : Worker σ ι)
    (q : Engine σ ι) :
    ({ q with worker } : Engine σ ι).receive S state previous i = q.receive S state previous i := by
  have htrack : ∀ effect : Option ε, ({ q with worker } : Engine σ ι).track effect =
      { q.track effect with worker } := by
    intro effect
    cases effect <;> rfl
  have hpublish : ∀ (next : σ) (e : Engine σ ι), ({ e with worker } : Engine σ ι).publish S next =
      ((e.publish S next).1, { (e.publish S next).2.1 with worker }, (e.publish S next).2.2) := by
    intro next e
    unfold publish
    dsimp only
    cases e.broadcast.publish S.rules.same next with
    | mk published broadcast => cases published <;> cases S.observer <;> rfl
  unfold receive
  cases fate S state previous i q.effects.length with
  | mk f called =>
  cases f with
  | crashed | repeated | refused => rfl
  | failed p effect => cases effect <;> rfl
  | applied next effect =>
    dsimp only
    rw [htrack, hpublish]
    cases ((q.track effect).publish S next).1 <;> rfl

/-! ### Plain runs -/

theorem plain_append (intents more : List ι) : plain (intents ++ more) = plain intents ++ plain more :=
  List.flatMap_append

theorem runFrom_plain_dead (S : Setup σ ι ε) (h : e.isAlive = false) (intents : List ι) :
    e.runFrom S (plain intents) = (e, intents.map .rejected) := by
  induction intents with
  | nil => rfl
  | cons i rest ih =>
    show e.runFrom S (.submit i :: .work :: plain rest) = _
    have hsubmit : e.step S (.submit i) = (e, [.rejected i]) := submit_dead h i
    have hwork : e.step S .work = (e, []) := work_dead S h
    rw [runFrom_cons, hsubmit, runFrom_cons, hwork, ih]
    rfl

/-- A worker that is there receives the first intent of a plain run, and goes on with the rest. -/
theorem runFrom_plain_cons (S : Setup σ ι ε) {state : σ} {previous : Option ι}
    (hw : e.worker = .alive state previous) (hs : e.shutdown = false) (hi : e.inbox = [])
    (i : ι) (rest : List ι) :
    e.runFrom S (plain (i :: rest)) =
      (((e.receive S state previous i).1.runFrom S (plain rest)).1,
        .accepted i :: ((e.receive S state previous i).2 ++
          ((e.receive S state previous i).1.runFrom S (plain rest)).2)) := by
  have hsubmit : e.step S (.submit i) = ({ e with inbox := [i] }, [.accepted i]) := by
    show e.submit i = _
    rw [submit, isAlive, hw, if_pos rfl, hi]
    rfl
  have hwork : ({ e with inbox := [i] } : Engine σ ι).step S .work = e.receive S state previous i := by
    have hsame : ({ e with inbox := [] } : Engine σ ι) = e := by rw [← hi]
    have htake := work_received S (e := { e with inbox := [i] }) hw hs rfl
    rwa [hsame] at htake
  show e.runFrom S (.submit i :: .work :: plain rest) = _
  rw [runFrom_cons, hsubmit, runFrom_cons, hwork]
  rfl

theorem run_append (S : Setup σ ι ε) (acts more : List (Act ι)) :
    run S (acts ++ more) = (((run S acts).1.runFrom S more).1,
      (run S acts).2 ++ ((run S acts).1.runFrom S more).2) := runFrom_append S (start S) acts more

theorem exists_alive (h : e.isAlive = true) : ∃ state previous, e.worker = .alive state previous := by
  unfold isAlive at h
  split at h
  · exact ⟨_, _, ‹_›⟩
  all_goals cases h

theorem rejected_workless (intents : List ι) :
    Workless (intents.map .rejected : List (Event σ ι ε)) := by
  simp [Workless, Event.ofWorker]

theorem Receipt.remembers {state : σ} {previous : Option ι} {i : ι}
    {after : Engine σ ι × List (Event σ ι ε)} (h : Receipt S state previous i e after) :
    ∀ state' previous', after.1.worker = .alive state' previous' → previous' = some i := by
  intro state' previous' hw
  cases h <;> cases hw <;> rfl

section Equivalence

variable [BEq ι] [EquivBEq ι]

/-- Further copies of the intent that was received last make no difference. -/
theorem Twin.more (h : Twin e q) (hS : S.filter = .structural) (hs : q.shutdown = false)
    (hq : q.inbox = []) {c : ι} {more : List ι} (hmore : ∀ d ∈ more, (c == d) = true)
    (hlast : ∀ state previous, q.worker = .alive state previous →
      ∃ p, previous = some p ∧ (p == c) = true) :
    Twin e (q.runFrom S (plain more)).1 ∧ (q.runFrom S (plain more)).1.inbox = [] ∧
      Muted (q.runFrom S (plain more)).2 := by
  induction more generalizing q with
  | nil => exact ⟨h, hq, nofun⟩
  | cons d more ih =>
    cases halive : q.isAlive with
    | false =>
      rw [runFrom_plain_dead S halive]
      exact ⟨h, hq, (rejected_workless _).muted⟩
    | true =>
      obtain ⟨state, previous, hw⟩ := exists_alive halive
      obtain ⟨p, rfl, hp⟩ := hlast state previous hw
      have hd : (c == d) = true := hmore d List.mem_cons_self
      have hcopy := receive_copy hS state (BEq.trans hp hd) q
      have htwin : Twin e { q with worker := .alive state (some d) } := by
        refine ⟨?_, h.last, h.closed, h.shutdown, h.effects⟩
        have hworker := h.worker
        rw [hw] at hworker
        generalize e.worker = w at hworker ⊢
        cases hworker with
        | alive _ hprevious =>
          cases hprevious with
          | after hsame => exact .alive state (.after (BEq.trans hsame (BEq.trans hp hd)))
      obtain ⟨htwin', hinbox, hmuted⟩ := ih htwin hs hq
        (fun other hmem => hmore other (List.mem_cons_of_mem _ hmem))
        (fun state' previous' hw' => by cases hw'; exact ⟨d, rfl, BEq.symm hd⟩)
      rw [runFrom_plain_cons S hw hs hq, hcopy]
      refine ⟨htwin', hinbox, ?_⟩
      have hone : Muted [.accepted d, .received d, (.compared p d : Event σ ι ε), .repeated d] := by
        simp [Muted, Event.matters]
      exact hone.append hmuted

/-- **A worker that receives the copies stays a twin of one that receives the intents.** -/
theorem Twin.copies (h : Twin e q) (hS : S.filter = .structural)
    (hr : ∀ i c, r i c → (i == c) = true ∧ S.Interchangeable i c) (hs : e.shutdown = false)
    (he : e.inbox = []) (hq : q.inbox = []) {intents intents' : List ι}
    (hcopies : Copies r intents intents') :
    Twin (e.runFrom S (plain intents)).1 (q.runFrom S (plain intents')).1 ∧
      Matching r (e.runFrom S (plain intents)).2 (q.runFrom S (plain intents')).2 := by
  induction hcopies generalizing e q with
  | nil => exact ⟨h, .nil⟩
  | @cons i c more rest rest' hic hmore _ ih =>
    cases halive : e.isAlive with
    | false =>
      rw [runFrom_plain_dead S halive, runFrom_plain_dead S (h.isAlive ▸ halive)]
      exact ⟨h, .of_muted (rejected_workless _).muted (rejected_workless _).muted⟩
    | true =>
      obtain ⟨state, previous, hw⟩ := exists_alive halive
      obtain ⟨previous', hw', hlast⟩ : ∃ previous', q.worker = .alive state previous' ∧
          SameLast previous previous' := by
        have hworker := h.worker
        rw [hw] at hworker
        generalize q.worker = w at hworker
        cases hworker with
        | alive _ hlast => exact ⟨_, rfl, hlast⟩
      -- the first copy comes to the same in the twin, and the others to nothing
      obtain ⟨heq, hsame⟩ := hr i c hic
      have hs' : q.shutdown = false := h.shutdown ▸ hs
      have hreceipt := receive_receipt S state previous i e
      have hreceipt' := receive_receipt S state previous' c q
      have hmid : Akin e { q with worker := e.worker } :=
        ⟨rfl, h.last, h.closed, h.shutdown, h.effects⟩
      obtain ⟨htold, hakin⟩ := hmid.receive S state previous i
      rw [receive_worker S state previous i e.worker q] at htold hakin
      obtain ⟨htwin, hfirst⟩ := receive_swapped hS hlast hic heq hsame state q
      obtain ⟨hmid', hinbox, hmuted⟩ := (htwin.of_akin hakin).more hS (hreceipt'.shutdown.trans hs')
        (hreceipt'.inbox hq) hmore fun _ _ hw => ⟨c, hreceipt'.remembers _ _ hw, BEq.refl c⟩
      obtain ⟨hend, hrest⟩ := ih hmid' (hreceipt.shutdown.trans hs) (hreceipt.inbox he) hinbox
      rw [runFrom_plain_cons S hw hs he, runFrom_plain_cons S hw' hs' hq, plain_append, runFrom_append,
        htold]
      refine ⟨hend, ?_⟩
      have haccepted : Matching r [(.accepted i : Event σ ι ε)] [.accepted c] :=
        .of_muted (by simp [Muted, Event.matters]) (by simp [Muted, Event.matters])
      have hnothing : Muted ([] : List (Event σ ι ε)) := nofun
      have hcopies := (Matching.of_muted hnothing hmuted).append hrest
      exact haccepted.append (hfirst.append hcopies)

end Equivalence

/-! ### Runs -/

theorem Akin.outcome? (h : Akin e q) : e.outcome? = q.outcome? := by
  rw [Engine.outcome?, h.worker]
  rfl

/-- The intents offered to the worker, in order, whether it took them or had ended. -/
def offeredIn (past : List (Event σ ι ε)) : List ι := (sentIn past).map (·.1)

theorem offeredIn_append (past later : List (Event σ ι ε)) :
    offeredIn (past ++ later) = offeredIn past ++ offeredIn later := by
  rw [offeredIn, sentIn_append, List.map_append, offeredIn, offeredIn]

/-- The worker has ended, or taken all that was queued. -/
def WorkedOff (e : Engine σ ι) : Prop := e.isAlive = true → e.inbox = []

theorem offered_run (S : Setup σ ι ε) (acts : List (Act ι)) :
    ∃ lost, offeredIn (run S acts).2 = receivedIn (run S acts).2 ++ ((run S acts).1.inbox ++ lost) ∧
      ((run S acts).1.isAlive = true → lost = []) := by
  refine runFrom_induct (P := fun e past => ∃ lost,
    offeredIn past = receivedIn past ++ (e.inbox ++ lost) ∧ (e.isAlive = true → lost = []))
    ⟨[], rfl, fun _ => rfl⟩ ?_
  rintro act _ e past ⟨lost, hoffered, hlost⟩
  rw [offeredIn_append, receivedIn_append, hoffered]
  by_cases hwork : act = .work
  · subst hwork
    have hworked := work_worked S e
    have hnone : offeredIn (e.work S).2 = [] := by
      rw [offeredIn, hworked.working.1.sent]
      rfl
    show ∃ lost', _ ++ offeredIn (e.work S).2 = (_ ++ receivedIn (e.work S).2) ++
      ((e.work S).1.inbox ++ lost') ∧ ((e.work S).1.isAlive = true → lost' = [])
    rw [hnone, List.append_nil]
    generalize e.work S = after at hworked
    cases hworked with
    | ended | idle => exact ⟨lost, by simp [receivedIn], hlost⟩
    | stopped => exact ⟨e.inbox ++ lost, by simp [receivedIn, retire], fun halive => by cases halive⟩
    | received state previous hw _ i rest hi hr =>
      obtain ⟨verdict, -, halive, hinbox⟩ := hr.verdict
      have hnolost := hlost (by rw [isAlive, hw])
      rw [hr.receivedIn, hinbox, halive, hi, hnolost]
      cases verdict.isFatal with
      | true => exact ⟨rest, by simp, fun halive => by cases halive⟩
      | false => exact ⟨[], by simp, fun _ => rfl⟩
  · have halive : (e.step S act).1.isAlive = e.isAlive := isAlive_of_worker (step_others S e hwork).1
    have hnone : receivedIn (e.step S act).2 = [] := by
      rw [← receivedIn_workIn, (step_workless S e hwork).workIn]
      rfl
    have hmore : offeredIn (e.step S act).2 = offers e act := by
      rw [offeredIn, step_sent, List.map_map]
      exact List.map_id _
    rw [hnone, hmore, halive, step_inbox S e hwork, acceptedIn_of_sentIn (step_sent S e act)]
    cases hcase : e.isAlive with
    | true => exact ⟨[], by simp [hlost hcase], fun _ => rfl⟩
    | false => exact ⟨lost ++ offers e act, by simp, fun halive => by cases halive⟩

/-- **What the worker has done is settled by what it was offered**, once it is through. -/
theorem offered_replayed (S : Setup σ ι ε) {acts : List (Act ι)} (hs : (run S acts).1.shutdown = false)
    (hdone : WorkedOff (run S acts).1) :
    Akin (run S acts).1 (run S (plain (offeredIn (run S acts).2))).1 ∧
      workIn (run S acts).2 = workIn (run S (plain (offeredIn (run S acts).2))).2 := by
  obtain ⟨lost, hoffered, hlost⟩ := offered_run S acts
  have hreplayed := replayed_run S hs
  cases halive : (run S acts).1.isAlive with
  | true =>
    rw [hlost halive, hdone halive, List.append_nil, List.append_nil] at hoffered
    rw [hoffered]
    exact ⟨hreplayed.akin, hreplayed.work⟩
  | false =>
    have hdead := (isAlive_of_worker hreplayed.akin.worker.symm).trans halive
    rw [hoffered, plain_append, run_append, runFrom_plain_dead S hdead]
    refine ⟨hreplayed.akin, hreplayed.work.trans ?_⟩
    rw [workIn_append, (rejected_workless _).workIn, List.append_nil]

theorem Legacy.unreported {past : List (Event σ ι ε)} (h : Legacy S e past)
    (hh : ∀ error, .halted error ∉ past) : reportsIn past = [] := by
  cases h with
  | well _ hquiet => exact hquiet.unreported
  | halted intent message _ htold => exact absurd ((htold _).mpr rfl) (hh _)
  | crashed _ _ _ hreports => exact hreports

/-- As long as no teardown begins, the status tells just whether there is a report. -/
theorem status_eq (S : Setup σ ι ε) {acts : List (Act ι)} (hdestroy : .destroy ∉ acts)
    (hdrop : .drop ∉ acts) :
    (run S acts).1.status = if reportsIn (run S acts).2 = [] then .running else .halted := by
  have hlegacy := legacy_run S acts
  cases health_run S hdestroy hdrop with
  | well _ hstatus hlast => rw [hstatus, if_pos (hlegacy.unreported hlast.not_halted)]
  | halted error _ hstatus htold =>
    rw [hstatus, (hlegacy.halted_iff error).mp htold]
    rfl
  | lost _ _ hstatus _ _ hh => rw [hstatus, if_pos (hlegacy.unreported hh)]

/-- Under the signal a worker that is there will end without a failure, and one that has ended leaves
what it left. -/
theorem outcome_signalled (S : Setup σ ι ε) (hs : e.shutdown = true) (acts : List (Act ι)) :
    (e.runFrom S acts).1.outcome? = e.outcome? ∨
      e.outcome? = none ∧ (e.runFrom S acts).1.outcome? = some (.ok ()) := by
  refine (runFrom_induct (S := S) (e := e) (P := fun e' _ => e'.shutdown = true ∧
    (e'.outcome? = e.outcome? ∨ e.outcome? = none ∧ e'.outcome? = some (.ok ()))) ⟨hs, Or.inl rfl⟩ ?_).2
  intro act _ e' _ ⟨hs', h⟩
  refine ⟨(step_shutdown S e' act).mpr (Or.inl hs'), ?_⟩
  by_cases hwork : act = .work
  · subst hwork
    show (e'.work S).1.outcome? = _ ∨ _ ∧ (e'.work S).1.outcome? = _
    cases halive : e'.isAlive with
    | false =>
      rw [work_dead S halive]
      exact h
    | true =>
      have hnone : e'.outcome? = none := by
        obtain ⟨state, previous, hw⟩ := exists_alive halive
        rw [outcome?, hw]
      rw [work_signalled S hs' halive]
      rcases h with hsame | ⟨-, hok⟩
      · exact Or.inr ⟨hsame ▸ hnone, rfl⟩
      · rw [hnone] at hok
        cases hok
  · have hworker := (step_others S e' hwork).1
    rwa [outcome?, hworker, ← outcome?]

/-- All calls of `destroy` have returned, and there was one. -/
def TornDown (e : Engine σ ι) : Prop :=
  e.teardowns ≠ [] ∧ ∀ t ∈ e.teardowns, ∃ result, t = .returned result

theorem TornDown.status {acts : List (Act ι)} (h : TornDown (run S acts).1) :
    (run S acts).1.status = .destroyed := by
  obtain ⟨taker, result, -, -, htaker, -⟩ := taken_of_returned S acts h.1 h.2
  exact (staged_run S acts).destroyed taker result htaker

/-- The failure that calls of `destroy` return is the one that the worker left. -/
theorem TornDown.failure_iff {acts : List (Act ι)} (h : TornDown (run S acts).1) (error : EngineError) :
    (∃ id, resultsIn id (run S acts).2 = [.error error]) ↔
      (run S acts).1.outcome? = some (.error error) := by
  obtain ⟨taker, result, -, hr, htaker, hothers⟩ := taken_of_returned S acts h.1 h.2
  rw [hr]
  constructor
  · rintro ⟨id, hid⟩
    rw [results_run, resultOf] at hid
    by_cases htook : id = taker
    · rw [htook, htaker] at hid
      exact congrArg some (List.head_eq_of_cons_eq hid)
    · cases ht : (run S acts).1.teardowns[id]? with
      | none =>
        rw [ht] at hid
        cases hid
      | some t =>
        rw [ht, hothers id t htook ht] at hid
        cases List.head_eq_of_cons_eq hid
  · intro hsome
    refine ⟨taker, ?_⟩
    rw [results_run, resultOf, htaker, Option.some.inj hsome]
    rfl

/-- A run that a teardown follows: nothing more is told that matters, and the teardown returns the
failure that the worker had left by then, if there was one. -/
theorem destroyed_after (S : Setup σ ι ε) (acts post : List (Act ι)) :
    (∃ later, (run S (acts ++ .destroy :: post)).2 = (run S acts).2 ++ later ∧ workIn later = []) ∧
      ∀ error, (run S (acts ++ .destroy :: post)).1.outcome? = some (.error error) ↔
        (run S acts).1.outcome? = some (.error error) := by
  have hs : ((run S acts).1.step S .destroy).1.shutdown = true := rfl
  have hrest := Resting.runFrom S (Or.inr hs) post
  have houtcome := outcome_signalled S hs post
  have hsame : ((run S acts).1.step S .destroy).1.outcome? = (run S acts).1.outcome? := rfl
  rw [run_split]
  refine ⟨⟨_, rfl, by rw [workIn_append, hrest.2.1]; rfl⟩, fun error => ?_⟩
  rw [hsame] at houtcome
  rcases houtcome with h | ⟨hnone, hok⟩
  · rw [h]
  · rw [hnone, hok]
    simp

section Equivalence

variable [BEq ι] [EquivBEq ι]

/-- **Repeats are harmless.** Let the filter be structural, and let equal intents that stand in for each
other be treated alike. Take two runs in which no teardown has begun and whose workers are through with
what they were offered, by whomever; and let the second one have been offered, in place of each intent
of the first, an intent that stands in for it and any number of copies right behind.

The same states have been published, the observer, the handler and the reporter were called alike, and
the same effects were launched. The engines have the same status and current state, and the workers
leave the same. So it stays when the engines are torn down: nothing more is told of that kind, and the
calls of `destroy` return the same failure, or none. -/
theorem repeats_are_harmless (hS : S.filter = .structural)
    (hr : ∀ i c, r i c → (i == c) = true ∧ S.Interchangeable i c) (acts acts' : List (Act ι))
    (hacts : .destroy ∉ acts ∧ .drop ∉ acts) (hacts' : .destroy ∉ acts' ∧ .drop ∉ acts')
    (hdone : WorkedOff (run S acts).1) (hdone' : WorkedOff (run S acts').1)
    (hcopies : Copies r (offeredIn (run S acts).2) (offeredIn (run S acts').2)) :
    Matching r (run S acts).2 (run S acts').2 ∧
      ((run S acts).1.status = (run S acts').1.status ∧
        (run S acts).1.current = (run S acts').1.current ∧
        (run S acts).1.outcome? = (run S acts').1.outcome?) ∧
      ∀ post post',
        Matching r (run S (acts ++ .destroy :: post)).2 (run S (acts' ++ .destroy :: post')).2 ∧
        (TornDown (run S (acts ++ .destroy :: post)).1 →
          TornDown (run S (acts' ++ .destroy :: post')).1 →
          (run S (acts ++ .destroy :: post)).1.status = .destroyed ∧
          (run S (acts' ++ .destroy :: post')).1.status = .destroyed ∧
          ∀ error, (∃ id, resultsIn id (run S (acts ++ .destroy :: post)).2 = [.error error]) ↔
            ∃ id, resultsIn id (run S (acts' ++ .destroy :: post')).2 = [.error error]) := by
  have untorn : ∀ {acts : List (Act ι)}, .destroy ∉ acts ∧ .drop ∉ acts →
      (run S acts).1.shutdown = false := by
    intro acts h
    rw [Bool.eq_false_iff, Ne, run, runFrom_shutdown]
    simp [start, h]
  obtain ⟨hakin, hwork⟩ := offered_replayed S (untorn hacts) hdone
  obtain ⟨hakin', hwork'⟩ := offered_replayed S (untorn hacts') hdone'
  have hstart : Twin (start S) (start S) := ⟨.alive _ .first, rfl, rfl, rfl, rfl⟩
  obtain ⟨htwin, hplain⟩ := hstart.copies hS hr rfl rfl rfl hcopies
  have hmatching := hplain.of_workIn hwork hwork'
  have houtcome : (run S acts).1.outcome? = (run S acts').1.outcome? :=
    hakin.outcome?.trans (htwin.outcome?.trans hakin'.outcome?.symm)
  refine ⟨hmatching, ⟨?_, ?_, houtcome⟩, fun post post' => ⟨?_, ?_⟩⟩
  · rw [status_eq S hacts.1 hacts.2, status_eq S hacts'.1 hacts'.2, hmatching.reported]
  · exact hakin.last.trans (htwin.last.trans hakin'.last.symm)
  · obtain ⟨⟨later, htold, hnone⟩, -⟩ := destroyed_after S acts post
    obtain ⟨⟨later', htold', hnone'⟩, -⟩ := destroyed_after S acts' post'
    refine hmatching.of_workIn ?_ ?_
    · rw [htold, workIn_append, hnone, List.append_nil]
    · rw [htold', workIn_append, hnone', List.append_nil]
  · intro htorn htorn'
    refine ⟨htorn.status, htorn'.status, fun error => ?_⟩
    rw [htorn.failure_iff, htorn'.failure_iff, (destroyed_after S acts post).2,
      (destroyed_after S acts' post').2, houtcome]

end Equivalence

/-- The intents 1 and 0 are offered to two engines that halt at 0. In the second run both come several
times, and most copies of 0 come too late. -/
theorem fused_repeats :
    publishedIn (run fused [.submit 1, .work, .submit 0, .work]).2 =
      publishedIn (run fused [.submit 1, .submit 1, .submit 1, .submit 0, .work, .work, .submit 0,
        .work, .work, .submit 0]).2 ∧
    reportsIn (run fused [.submit 1, .work, .submit 0, .work]).2 =
      reportsIn (run fused [.submit 1, .submit 1, .submit 1, .submit 0, .work, .work, .submit 0,
        .work, .work, .submit 0]).2 ∧
    ((∃ id, resultsIn id (run fused ([.submit 1, .work, .submit 0, .work] ++ .destroy ::
        [.effect 0 [] .waits, .effect 1 [] .waits, .resume 0, .resume 0])).2 =
          [.error (.reduction "0" "blown")]) ↔
      ∃ id, resultsIn id (run fused ([.submit 1, .submit 1, .submit 1, .submit 0, .work, .work,
        .submit 0, .work, .work, .submit 0] ++ .destroy ::
        [.effect 0 [] .waits, .effect 1 [] .waits, .resume 0, .resume 0])).2 =
          [.error (.reduction "0" "blown")]) := by
  have hcopies : Copies (· = ·) [1, 0] [1, 1, 1, 0, 0, 0] :=
    .cons rfl (by decide : ∀ d ∈ [1, 1], (1 == d) = true)
      (.cons rfl (by decide : ∀ d ∈ [0, 0], (0 == d) = true) .nil)
  obtain ⟨hmatching, -, hend⟩ := repeats_are_harmless (S := fused) (r := (· = ·)) rfl
    (fun i c h => ⟨by simp [h], h ▸ ⟨fun _ => rfl, fun _ => rfl, rfl, fun _ _ _ => rfl⟩⟩)
    [.submit 1, .work, .submit 0, .work]
    [.submit 1, .submit 1, .submit 1, .submit 0, .work, .work, .submit 0, .work, .work, .submit 0]
    (by decide) (by decide) nofun nofun hcopies
  obtain ⟨-, hresults⟩ := hend [.effect 0 [] .waits, .effect 1 [] .waits, .resume 0, .resume 0]
    [.effect 0 [] .waits, .effect 1 [] .waits, .resume 0, .resume 0]
  have hdown : ∀ {e : Engine Nat Nat}, e.teardowns = [.returned (.error (.reduction "0" "blown"))] →
      TornDown e := by
    intro e he
    rw [TornDown, he]
    simp
  exact ⟨hmatching.published, hmatching.reported, (hresults (hdown rfl) (hdown rfl)).2.2 _⟩

end Engine

end IntentLoop
