import IntentLoop.Proofs.Engine.Failure
/-!
# Onlookers change nothing

Some parts of a setup only let others look on: the name of the engine, the reporter, the observer, and
whether failures are returned to whoever tears the engine down. Leaving them out makes a setup `bare`.
What is told of the run of a bare setup is what is told of the run of the full one, less the calls of the
observer, the addressee of reports and the failures returned (`Event.bare?`), and the engine is the same
but for the results that it keeps (`Engine.bare`). `step_bare` says so for one act, and `run_bare` for
runs.

Two setups that differ in such parts only have the same bare setup, so that their runs can be told apart
by no more than that (`onlookers_change_nothing`).
-/

namespace IntentLoop

variable {σ ι ε : Type}

/-! ### Setups and engines without onlookers -/

namespace Setup

/-- The setup without those who look on. -/
def bare (S : Setup σ ι ε) : Setup σ ι ε :=
  { S with settings := { strict := false }, reporter := .log, observer := none }

/-- Two setups have all in common but those who look on. -/
structure Alike (S S' : Setup σ ι ε) : Prop where
  rules : S.rules = S'.rules
  initial : S.initial = S'.initial
  filter : S.filter = S'.filter
  handler : S.handler = S'.handler

theorem Alike.bare_eq {S S' : Setup σ ι ε} (h : S.Alike S') : S.bare = S'.bare := by
  rw [bare, bare, h.rules, h.initial, h.filter, h.handler]

/-- The observer, if there is one, never breaks off. -/
def Undisturbed (S : Setup σ ι ε) : Prop :=
  ∀ o, S.observer = some o → ∀ state, o.notice state = .ok ()

end Setup

namespace Engine

variable {S S' : Setup σ ι ε} {e : Engine σ ι}

/-- A result without the failure of a reduction. -/
def discreet : Except EngineError Unit → Except EngineError Unit
  | .error (.reduction _ _) => .ok ()
  | result => result

def Worker.bare : Worker σ ι → Worker σ ι
  | .returned result => .returned (discreet result)
  | worker => worker

def Teardown.bare : Teardown → Teardown
  | .returned result => .returned (discreet result)
  | teardown => teardown

/-- The engine, with failures left out of the results that it keeps. -/
def bare (e : Engine σ ι) : Engine σ ι :=
  { e with worker := e.worker.bare, teardowns := e.teardowns.map Teardown.bare }

/-- What is told of the event without onlookers: no call of the observer, a report to nobody in
particular, and the end of a teardown without the failure that it may return. -/
def Event.bare? : Event σ ι ε → Option (Event σ ι ε)
  | .observed _ => none
  | .reported _ component error => some (.reported .log component error)
  | .teardownEnded id result => some (.teardownEnded id (discreet result))
  | event => some event

def bareIn (events : List (Event σ ι ε)) : List (Event σ ι ε) := events.filterMap Event.bare?

/-- What is left of an act without onlookers. -/
def bareAfter (after : Engine σ ι × List (Event σ ι ε)) : Engine σ ι × List (Event σ ι ε) :=
  (after.1.bare, bareIn after.2)

theorem bareIn_append (events more : List (Event σ ι ε)) :
    bareIn (events ++ more) = bareIn events ++ bareIn more := List.filterMap_append

theorem Deciding.bareIn_eq {events : List (Event σ ι ε)} (h : Deciding events) :
    bareIn events = events := by
  induction events with
  | nil => rfl
  | cons event rest ih =>
    have hevent : event.bare? = some event := by
      have hdecides := h event List.mem_cons_self
      cases event <;> first | rfl | cases hdecides
    have hrest := ih fun other hmem => h other (List.mem_cons_of_mem _ hmem)
    rw [bareIn, List.filterMap_cons_some hevent, ← bareIn, hrest]

@[simp] theorem bare_isAlive (e : Engine σ ι) : e.bare.isAlive = e.isAlive := by
  unfold isAlive bare
  cases e.worker <;> rfl

theorem bare_outcome? (e : Engine σ ι) : e.bare.outcome? = e.outcome?.map discreet := by
  unfold outcome? bare
  cases e.worker <;> rfl

theorem bare_getElem? (e : Engine σ ι) (id : Nat) :
    e.bare.teardowns[id]? = (e.teardowns[id]?).map Teardown.bare := List.getElem?_map

theorem bare_resultOf (e : Engine σ ι) (id : Nat) :
    e.bare.resultOf id = (e.resultOf id).map discreet := by
  unfold resultOf
  rw [bare_getElem?]
  cases e.teardowns[id]? with
  | none => rfl
  | some t => cases t <;> rfl

theorem bare_set (e : Engine σ ι) (id : Nat) (t : Teardown) :
    e.bare.teardowns.set id t.bare = (e.teardowns.set id t).map Teardown.bare := by
  rw [List.map_set]
  rfl

/-! ### Acts -/

theorem submit_bare (i : ι) (e : Engine σ ι) :
    e.bare.submit i = bareAfter (e.submit i : Engine σ ι × List (Event σ ι ε)) := by
  unfold submit
  rw [bare_isAlive]
  cases e.isAlive <;> rfl

theorem submitAll_bare (intents : List ι) (e : Engine σ ι) :
    e.bare.submitAll intents = bareAfter (e.submitAll intents : Engine σ ι × List (Event σ ι ε)) := by
  have htold : ∀ tell : ι → Event σ ι ε, (∀ i, (tell i).bare? = some (tell i)) →
      bareIn (intents.map tell) = intents.map tell := by
    intro tell h
    rw [bareIn, List.filterMap_map, ← List.filterMap_eq_map]
    exact congrArg (List.filterMap · intents) (funext h)
  unfold submitAll
  rw [bare_isAlive]
  cases e.isAlive with
  | true => exact Prod.ext rfl (htold .accepted fun _ => rfl).symm
  | false => exact Prod.ext rfl (htold .rejected fun _ => rfl).symm

theorem moveEffect_bare (id : Nat) (intents : List ι) (exit : Exit) (e : Engine σ ι) :
    e.bare.moveEffect id intents exit =
      bareAfter (e.moveEffect id intents exit : Engine σ ι × List (Event σ ι ε)) := by
  have heffects : e.bare.effects = e.effects := rfl
  have hshutdown : e.bare.shutdown = e.shutdown := rfl
  unfold moveEffect
  rw [heffects, hshutdown, submitAll_bare]
  split
  · split
    · rfl
    · cases exit with
      | waits => rfl
      | completes | panics =>
        refine Prod.ext rfl ?_
        dsimp only [bareAfter]
        rw [bareIn_append]
        rfl
  · rfl

theorem finishTeardown_bare (id : Nat) (result : Except EngineError Unit) (e : Engine σ ι) :
    e.bare.finishTeardown id (discreet result) =
      bareAfter (e.finishTeardown id result : Engine σ ι × List (Event σ ι ε)) := by
  have hset := bare_set e id (.returned result)
  unfold finishTeardown bareAfter
  simp only [bare, ← hset]
  rfl

theorem resume_bare (id : Nat) (e : Engine σ ι) :
    e.bare.resume id = bareAfter (e.resume id : Engine σ ι × List (Event σ ι ε)) := by
  have hactive : e.bare.active = e.active := rfl
  have hclaimed : e.bare.claimed = e.claimed := rfl
  unfold resume
  rw [bare_getElem?, bare_outcome?, hactive, hclaimed]
  cases ht : e.teardowns[id]? with
  | none => rfl
  | some t =>
    cases t with
    | awaitingEffects =>
      dsimp only [Option.map_some, Teardown.bare]
      split
      · split
        · exact finishTeardown_bare id (.ok ()) e
        · have hset := bare_set e id .awaitingWorker
          simp only [bareAfter, bare, ← hset]
          rfl
      · rfl
    | awaitingWorker =>
      dsimp only [Option.map_some, Teardown.bare]
      cases e.outcome? with
      | none => rfl
      | some result => exact finishTeardown_bare id result e
    | returned result => rfl

theorem track_bare (effect : Option ε) (e : Engine σ ι) : e.bare.track effect = (e.track effect).bare := by
  cases effect <;> rfl

/-- The observer is told of a state that is made public, and that is all. -/
theorem publish_bare (hS : S.Undisturbed) (next : σ) (e : Engine σ ι) :
    (e.publish S next).1 = .ok () ∧
      e.bare.publish S.bare next = (.ok (), bareAfter (e.publish S next).2) := by
  have hnotice : notice S next = .ok () := by
    unfold notice
    cases ho : S.observer with
    | none => rfl
    | some o => exact hS o ho next
  have hnews : bareIn (news S next) = news S.bare next := by
    unfold news
    cases S.observer <;> rfl
  rcases publish_cases S next e with ⟨hsame, hp⟩ | ⟨hopen, hdiff, hp⟩
  · rcases publish_cases S.bare next e.bare with ⟨-, hb⟩ | ⟨hopen, hdiff, -⟩
    · rw [hp, hb]
      exact ⟨rfl, rfl⟩
    · exact absurd hsame (by simp [show e.broadcast.closed = false from hopen,
        show S.rules.same e.broadcast.last next = false from hdiff])
  · rcases publish_cases S.bare next e.bare with ⟨hsame, -⟩ | ⟨-, -, hb⟩
    · exact absurd hsame (by simp [show e.bare.broadcast.closed = false from hopen,
        show S.bare.rules.same e.bare.broadcast.last next = false from hdiff])
    · rw [hp, hb, hnotice]
      refine ⟨rfl, ?_⟩
      rw [bareAfter, hnews]
      rfl

theorem halt_bare (i : ι) (p : Panic) (e : Engine σ ι) :
    e.bare.halt S.bare i p = bareAfter (e.halt S i p) := by
  have hresult : discreet (if S.settings.strict then
      .error (.reduction (S.rules.describe i) p.message) else .ok ()) = .ok () := by
    cases S.settings.strict <;> rfl
  unfold halt bareAfter bare
  simp only [retire, Worker.bare, hresult]
  rfl

theorem receive_bare (hS : S.Undisturbed) (state : σ) (previous : Option ι) (i : ι)
    (e : Engine σ ι) :
    e.bare.receive S.bare state previous i = bareAfter (e.receive S state previous i) := by
  have hfate : fate S.bare state previous i e.effects.length =
      fate S state previous i e.effects.length := rfl
  have hdecided := fate_decided S state previous i e.effects.length
  have heffects : e.bare.effects = e.effects := rfl
  unfold receive
  rw [heffects, hfate]
  generalize fate S state previous i e.effects.length = decision at hdecided ⊢
  obtain ⟨f, called⟩ := decision
  -- up to the decision the same is told
  have htold : ∀ more, bareIn (.received i :: called ++ more) = .received i :: called ++ bareIn more := by
    intro more
    rw [bareIn_append]
    exact congrArg (fun events => .received i :: events ++ bareIn more) hdecided.deciding.bareIn_eq
  have htold_nil := htold []
  rw [List.append_nil] at htold_nil
  cases f with
  | crashed p => exact Prod.ext rfl (htold [.crashed p]).symm
  | repeated | refused =>
    dsimp only
    exact Prod.ext rfl (htold_nil.trans (List.append_nil _)).symm
  | failed p effect =>
    dsimp only
    rw [track_bare, halt_bare]
    exact Prod.ext rfl (htold _).symm
  | applied next effect =>
    obtain ⟨hok, hbare⟩ := publish_bare hS next (e.track effect)
    dsimp only
    rw [track_bare, hbare, hok]
    refine Prod.ext rfl ?_
    dsimp only [bareAfter]
    rw [bareIn_append, htold]
    rfl

theorem work_idle (S : Setup σ ι ε) {state : σ} {previous : Option ι}
    (hw : e.worker = .alive state previous) (hs : e.shutdown = false) (hi : e.inbox = []) :
    e.work S = (e, []) := by
  unfold work
  rw [hw]
  dsimp only
  rw [hs, hi]
  rfl

theorem work_bare (hS : S.Undisturbed) (e : Engine σ ι) :
    e.bare.work S.bare = bareAfter (e.work S) := by
  cases halive : e.isAlive with
  | false =>
    rw [work_dead S halive, work_dead S.bare ((bare_isAlive e).trans halive)]
    rfl
  | true =>
    obtain ⟨state, previous, hw⟩ : ∃ state previous, e.worker = .alive state previous := by
      unfold isAlive at halive
      split at halive
      · exact ⟨_, _, ‹_›⟩
      all_goals cases halive
    have hbare : e.bare.worker = .alive state previous := by rw [bare, hw]; rfl
    cases hs : e.shutdown with
    | true =>
      rw [work_signalled S hs halive,
        work_signalled (e := e.bare) S.bare hs ((bare_isAlive e).trans halive)]
      rfl
    | false =>
      cases hi : e.inbox with
      | nil =>
        rw [work_idle S hw hs hi, work_idle (e := e.bare) S.bare hbare hs hi]
        rfl
      | cons i rest =>
        rw [work_received S hw hs hi, work_received (e := e.bare) S.bare hbare hs hi]
        exact receive_bare hS state previous i { e with inbox := rest }

/-- **Without onlookers an act does just the same.** -/
theorem step_bare (hS : S.Undisturbed) (e : Engine σ ι) (act : Act ι) :
    e.bare.step S.bare act = bareAfter (e.step S act) := by
  cases act with
  | submit i => exact submit_bare i e
  | work => exact work_bare hS e
  | effect id intents exit => exact moveEffect_bare id intents exit e
  | resume id => exact resume_bare id e
  | destroy =>
    have hlength : e.bare.teardowns.length = e.teardowns.length := List.length_map _
    have hteardowns : e.bare.teardowns ++ [Teardown.awaitingEffects] =
        (e.teardowns ++ [Teardown.awaitingEffects]).map Teardown.bare := by
      rw [List.map_append]
      rfl
    rw [step, hlength, hteardowns]
    rfl
  | subscribe | read | unsubscribe | drop => rfl

/-! ### Runs -/

/-- **Without onlookers a run goes just the same.** -/
theorem runFrom_bare (hS : S.Undisturbed) (e : Engine σ ι) (acts : List (Act ι)) :
    e.bare.runFrom S.bare acts = bareAfter (e.runFrom S acts) := by
  induction acts generalizing e with
  | nil => rfl
  | cons act rest ih =>
    rw [runFrom_cons, runFrom_cons, step_bare hS]
    dsimp only [bareAfter]
    rw [ih, bareIn_append]
    rfl

theorem run_bare (hS : S.Undisturbed) (acts : List (Act ι)) :
    run S.bare acts = bareAfter (run S acts) := runFrom_bare hS (start S) acts

theorem takes_bare (e : Engine σ ι) (act : Act ι) : e.bare.takes act = e.takes act := by
  cases act with
  | resume id =>
    have hactive : e.bare.active = e.active := rfl
    have hclaimed : e.bare.claimed = e.claimed := rfl
    have hstage : e.bare.teardowns[id]? = some .awaitingEffects ↔
        e.teardowns[id]? = some .awaitingEffects := by
      rw [bare_getElem?]
      cases e.teardowns[id]? with
      | none => simp
      | some t => cases t <;> simp [Teardown.bare]
    unfold takes
    simp only [hactive, hclaimed, hstage]
  | submit | work | effect | subscribe | read | unsubscribe | destroy | drop => rfl

theorem takersFrom_bare (hS : S.Undisturbed) (e : Engine σ ι) (acts : List (Act ι)) :
    takersFrom S.bare e.bare acts = takersFrom S e acts := by
  induction acts generalizing e with
  | nil => rfl
  | cons act rest ih =>
    rw [takersFrom, takersFrom, takes_bare, step_bare hS]
    exact congrArg _ (ih (e.step S act).1)

/-! ### What is left of the differences -/

theorem reportsIn_bareIn (events : List (Event σ ι ε)) :
    reportsIn (bareIn events) = (reportsIn events).map fun report => (.log, report.2) := by
  have hevent : ∀ event : Event σ ι ε, event.bare?.bind Event.reported? =
      event.reported?.map fun report => (.log, report.2) := by
    intro event
    cases event <;> rfl
  rw [reportsIn, bareIn, List.filterMap_filterMap, reportsIn, List.map_filterMap]
  exact congrArg (List.filterMap · events) (funext hevent)

theorem halted_mem_bareIn {events : List (Event σ ι ε)} {error : EngineError} :
    .halted error ∈ bareIn events ↔ .halted error ∈ events := by
  unfold bareIn
  rw [List.mem_filterMap]
  constructor
  · rintro ⟨event, hmem, hevent⟩
    cases event <;> cases hevent
    exact hmem
  · exact fun hmem => ⟨_, hmem, rfl⟩

theorem addressee_run (S : Setup σ ι ε) (acts : List (Act ι)) :
    reportsIn (run S acts).2 = ((reportsIn (run S acts).2).map (·.2)).map (S.reporter, ·) := by
  cases legacy_run S acts with
  | well _ hquiet => rw [hquiet.unreported]; rfl
  | halted _ _ _ _ hreports => rw [hreports]; rfl
  | crashed _ _ _ hreports => rw [hreports]; rfl

/-- The call of `destroy` that took the worker returns what the worker left, and any other nothing. -/
theorem result_of_call {acts : List (Act ι)} {id : Nat} {result : Except EngineError Unit}
    (h : (run S acts).1.resultOf id = some result) :
    (takersFrom S (start S) acts = [id] ∧ (run S acts).1.outcome? = some result) ∨
      takersFrom S (start S) acts ≠ [id] ∧ result = .ok () := by
  obtain ⟨t, ht, hresult⟩ := Option.bind_eq_some_iff.mp h
  obtain rfl : t = .returned result := by
    cases t <;> cases hresult
    rfl
  have hdelivery := delivery_run S acts
  generalize takersFrom S (start S) acts = takers at hdelivery ⊢
  cases hdelivery with
  | waiting _ hwaits => cases hwaits id _ ht
  | taken taker _ htaker hothers =>
    by_cases hid : id = taker
    · subst hid
      rw [ht] at htaker
      rcases htaker with hw | ⟨left, hr, hleft⟩
      · cases hw
      · cases hleft
        exact Or.inl ⟨rfl, hr⟩
    · rcases hothers id _ hid ht with hw | hok
      · cases hw
      · cases hok
        exact Or.inr ⟨fun htakers => hid (List.head_eq_of_cons_eq htakers).symm, rfl⟩

/-- Both engines of a kind halted at a failure, and the call of `destroy` that took the worker returned
it in the engine that returns failures, and nothing in the other. -/
structure Outspoken (S S' : Setup σ ι ε) (id : Nat) (past past' : List (Event σ ι ε)) : Prop where
  strict : S.settings.strict = true
  lenient : S'.settings.strict = false
  results : ∃ intent message, .halted (.reduction intent message) ∈ past ∧
    .halted (.reduction intent message) ∈ past' ∧
    resultsIn id past = [.error (.reduction intent message)] ∧ resultsIn id past' = [.ok ()]

/-- What workers leave that did the same is the same, if it is not the failure at which both halted. -/
theorem outcome_alike {e e' : Engine σ ι} {past past' : List (Event σ ι ε)}
    {result result' : Except EngineError Unit} (h : Legacy S e past) (h' : Legacy S' e' past')
    (hr : e.outcome? = some result) (hr' : e'.outcome? = some result')
    (hsame : discreet result = discreet result')
    (htold : ∀ error, .halted error ∈ past ↔ .halted error ∈ past') :
    result = result' ∨ ∃ intent message, .halted (.reduction intent message) ∈ past ∧
      result = failure S (.reduction intent message) ∧
      result' = failure S' (.reduction intent message) := by
  rcases h.outcome hr with ⟨rfl, hh, -⟩ | ⟨i, m, rfl, hh, -⟩ | ⟨p, rfl, hh, -⟩
  · rcases h'.outcome hr' with ⟨rfl, -⟩ | ⟨i', m', rfl, hh', -⟩ | ⟨p', rfl, -⟩
    · exact Or.inl rfl
    · exact absurd ((htold _).mpr ((hh' _).mpr rfl)) (hh _)
    · cases hsame
  · have hin : .halted (.reduction i m) ∈ past := (hh _).mpr rfl
    rcases h'.outcome hr' with ⟨-, hh', -⟩ | ⟨i', m', rfl, hh', -⟩ | ⟨p', -, hh', -⟩
    · exact absurd ((htold _).mp hin) (hh' _)
    · refine Or.inr ⟨i, m, hin, rfl, ?_⟩
      rw [(hh' _).mp ((htold _).mp hin)]
    · exact absurd ((htold _).mp hin) (hh' _)
  · rcases h'.outcome hr' with ⟨rfl, -⟩ | ⟨i', m', rfl, hh', -⟩ | ⟨p', rfl, -⟩
    · cases hsame
    · exact absurd ((htold _).mpr ((hh' _).mpr rfl)) (hh _)
    · exact Or.inl hsame

/-- So are the results of a call of `destroy`, in runs that tell the same. -/
theorem results_alike {acts : List (Act ι)} {id : Nat} {result result' : Except EngineError Unit}
    (hr : (run S acts).1.resultOf id = some result) (hr' : (run S' acts).1.resultOf id = some result')
    (hsame : discreet result = discreet result')
    (htakers : takersFrom S (start S) acts = takersFrom S' (start S') acts)
    (htold : ∀ error, .halted error ∈ (run S acts).2 ↔ .halted error ∈ (run S' acts).2) :
    [result] = [result'] ∨ takersFrom S (start S) acts = [id] ∧
      (Outspoken S S' id (run S acts).2 (run S' acts).2 ∨
        Outspoken S' S id (run S' acts).2 (run S acts).2) := by
  rcases result_of_call hr with ⟨htook, hleft⟩ | ⟨hother, rfl⟩
  · rcases result_of_call hr' with ⟨-, hleft'⟩ | ⟨hother, -⟩
    · rcases outcome_alike (legacy_run S acts) (legacy_run S' acts) hleft hleft' hsame htold with
        rfl | ⟨intent, message, hhalted, rfl, rfl⟩
      · exact Or.inl rfl
      · have hhalted' := (htold _).mp hhalted
        have hin : resultsIn id (run S acts).2 = [failure S (.reduction intent message)] := by
          rw [results_run, hr]
          rfl
        have hin' : resultsIn id (run S' acts).2 = [failure S' (.reduction intent message)] := by
          rw [results_run, hr']
          rfl
        unfold failure at hin hin' ⊢
        cases hstrict : S.settings.strict with
        | true =>
          cases hstrict' : S'.settings.strict with
          | true => exact Or.inl rfl
          | false =>
            rw [hstrict] at hin
            rw [hstrict'] at hin'
            exact Or.inr ⟨htook, Or.inl ⟨hstrict, hstrict', _, _, hhalted, hhalted', hin, hin'⟩⟩
        | false =>
          cases hstrict' : S'.settings.strict with
          | false => exact Or.inl rfl
          | true =>
            rw [hstrict] at hin
            rw [hstrict'] at hin'
            exact Or.inr ⟨htook, Or.inr ⟨hstrict', hstrict, _, _, hhalted', hhalted, hin', hin⟩⟩
    · exact absurd (htakers.symm.trans htook) hother
  · rcases result_of_call hr' with ⟨htook, -⟩ | ⟨-, rfl⟩
    · exact absurd (htakers.trans htook) hother
    · exact Or.inl rfl

/-- **Onlookers change nothing.** Let two setups differ in no more than the name of the engine, whether
failures are returned, the reporter and an observer that never breaks off, and let the same be done to
their engines. After any acts, the next act tells the same of both but for calls of the observer, the
addressee of reports and failures that are returned, and so do all acts so far: the same intents are
accepted, rejected and received, the same effects are launched and end, the same states are published,
and the readers of streams find the same. The engines agree in all but the results that they keep. Each
reporter has been told the same, in the same order.

The results of calls of `destroy` are the same as well, but for the call that took the worker, if both
workers halted: in an engine that returns failures, it returns the one that was reported, and in the
other nothing. -/
theorem onlookers_change_nothing {S S' : Setup σ ι ε} (halike : S.Alike S') (hS : S.Undisturbed)
    (hS' : S'.Undisturbed) (acts : List (Act ι)) :
    (∀ act, bareIn ((run S acts).1.step S act).2 = bareIn ((run S' acts).1.step S' act).2) ∧
    bareIn (run S acts).2 = bareIn (run S' acts).2 ∧
    (run S acts).1.bare = (run S' acts).1.bare ∧
    ((run S acts).1.status = (run S' acts).1.status ∧
      (run S acts).1.active = (run S' acts).1.active ∧
      (run S acts).1.current = (run S' acts).1.current ∧
      (run S acts).1.isAlive = (run S' acts).1.isAlive) ∧
    (∃ told : List (String × EngineError), reportsIn (run S acts).2 = told.map (S.reporter, ·) ∧
      reportsIn (run S' acts).2 = told.map (S'.reporter, ·)) ∧
    takersFrom S (start S) acts = takersFrom S' (start S') acts ∧
    ∀ id, resultsIn id (run S acts).2 = resultsIn id (run S' acts).2 ∨
      takersFrom S (start S) acts = [id] ∧
        (Outspoken S S' id (run S acts).2 (run S' acts).2 ∨
          Outspoken S' S id (run S' acts).2 (run S acts).2) := by
  have hrun : bareAfter (run S acts) = bareAfter (run S' acts) := by
    rw [← run_bare hS, ← run_bare hS', halike.bare_eq]
  obtain ⟨hengine, htold⟩ := Prod.mk.inj hrun
  have hhalted : ∀ error, .halted error ∈ (run S acts).2 ↔ .halted error ∈ (run S' acts).2 := by
    intro error
    rw [← halted_mem_bareIn, htold, halted_mem_bareIn]
  have htakers : takersFrom S (start S) acts = takersFrom S' (start S') acts := by
    have hstart : (start S).bare = (start S').bare := by
      show start S.bare = start S'.bare
      rw [halike.bare_eq]
    rw [← takersFrom_bare hS, ← takersFrom_bare hS', halike.bare_eq, hstart]
  have hresults : ∀ id, ((run S acts).1.resultOf id).map discreet =
      ((run S' acts).1.resultOf id).map discreet := by
    intro id
    rw [← bare_resultOf, hengine, bare_resultOf]
  refine ⟨?_, htold, hengine, ⟨?_, ?_, ?_, ?_⟩, ?_, htakers, ?_⟩
  · intro act
    have hstep : bareAfter ((run S acts).1.step S act) = bareAfter ((run S' acts).1.step S' act) := by
      rw [← step_bare hS, ← step_bare hS', hengine, halike.bare_eq]
    exact congrArg Prod.snd hstep
  · show (run S acts).1.bare.status = (run S' acts).1.bare.status
    rw [hengine]
  · show (run S acts).1.bare.active = (run S' acts).1.bare.active
    rw [hengine]
  · show (run S acts).1.bare.current = (run S' acts).1.bare.current
    rw [hengine]
  · rw [← bare_isAlive, hengine, bare_isAlive]
  · refine ⟨(reportsIn (run S acts).2).map (·.2), addressee_run S acts, ?_⟩
    have hsame : (reportsIn (run S acts).2).map (·.2) = (reportsIn (run S' acts).2).map (·.2) := by
      have hbare := congrArg (fun events => (reportsIn events).map (·.2)) htold
      simpa [reportsIn_bareIn, Function.comp_def] using hbare
    rw [hsame]
    exact addressee_run S' acts
  · intro id
    have hsame := hresults id
    rw [results_run, results_run]
    cases hr : (run S acts).1.resultOf id with
    | none =>
      rw [hr, Option.map_none] at hsame
      exact Or.inl (by rw [Option.map_eq_none_iff.mp hsame.symm])
    | some result =>
      rw [hr, Option.map_some] at hsame
      obtain ⟨result', hr', hdiscreet⟩ := Option.map_eq_some_iff.mp hsame.symm
      rw [hr']
      exact results_alike hr hr' hdiscreet.symm htakers hhalted

/-- `fused` under another name, with another reporter and an observer, and it keeps failures to itself. -/
def fusedAside : Setup Nat Nat Unit :=
  { fused with
    settings := { name := "aside", strict := false }
    reporter := .log
    observer := some { name := "watch", notice := fun _ => .ok () } }

/-- Both halt at 0 and report that, each to its own reporter, and it is in `fused` only that the first of
two calls of `destroy` returns it. -/
theorem fused_aside :
    bareIn (run fused [.submit 1, .work, .submit 0, .work, .destroy, .destroy, .effect 0 [] .waits,
        .effect 1 [] .waits, .resume 0, .resume 1, .resume 0]).2 =
      bareIn (run fusedAside [.submit 1, .work, .submit 0, .work, .destroy, .destroy,
        .effect 0 [] .waits, .effect 1 [] .waits, .resume 0, .resume 1, .resume 0]).2 ∧
    Outspoken fused fusedAside 0 (run fused [.submit 1, .work, .submit 0, .work, .destroy, .destroy,
        .effect 0 [] .waits, .effect 1 [] .waits, .resume 0, .resume 1, .resume 0]).2
      (run fusedAside [.submit 1, .work, .submit 0, .work, .destroy, .destroy, .effect 0 [] .waits,
        .effect 1 [] .waits, .resume 0, .resume 1, .resume 0]).2 := by
  have halike : fused.Alike fusedAside := ⟨rfl, rfl, rfl, rfl⟩
  have hnone : fused.Undisturbed := nofun
  have hwatch : fusedAside.Undisturbed := by
    rintro o ho state
    cases ho
    rfl
  obtain ⟨-, htold, -, -, -, -, hresults⟩ := onlookers_change_nothing halike hnone hwatch
    [.submit 1, .work, .submit 0, .work, .destroy, .destroy, .effect 0 [] .waits,
      .effect 1 [] .waits, .resume 0, .resume 1, .resume 0]
  refine ⟨htold, ?_⟩
  rcases hresults 0 with hsame | ⟨-, houtspoken | houtspoken⟩
  · exact absurd hsame (by decide)
  · exact houtspoken
  · exact absurd houtspoken.strict (by decide)

end Engine

end IntentLoop
