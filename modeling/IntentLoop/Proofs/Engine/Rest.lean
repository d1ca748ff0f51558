import IntentLoop.Proofs.Engine.Runs
/-!
# Engines at rest

A worker that has ended takes no more intents, and one that finds the shutdown signal ends. From then
on the engine is at rest: whatever is submitted, whoever moves, no callback is made, nothing is
published, and the current state stays as it is (`Resting.runFrom`).

All other acts are listed as those of the worker are: the moves of effects in `Moved`, and the calls of
`destroy` that go on in `Resumed`.
-/

namespace IntentLoop.Engine

variable {σ ι ε : Type} {S : Setup σ ι ε} {e : Engine σ ι}

namespace Event

/-- Is the event something that only the worker does? -/
def ofWorker : Event σ ι ε → Bool
  | .received _ | .compared _ _ | .repeated _ | .validated _ _ | .refused _ | .performed _ _
  | .launched _ _ | .reduced _ _ | .applied _ _ | .published _ | .observed _ | .halted _
  | .reported _ _ _ | .crashed _ => true
  | _ => false

/-- Does the event tell how an intent is decided on? -/
def decides : Event σ ι ε → Bool
  | .compared _ _ | .repeated _ | .validated _ _ | .refused _ | .performed _ _ | .launched _ _
  | .reduced _ _ => true
  | _ => false

def reported? : Event σ ι ε → Option (Reporter × String × EngineError)
  | .reported reporter component error => some (reporter, component, error)
  | _ => none

end Event

/-- All that the worker did. -/
def workIn (past : List (Event σ ι ε)) : List (Event σ ι ε) := past.filter (·.ofWorker)

/-- The reports made. -/
def reportsIn (past : List (Event σ ι ε)) : List (Reporter × String × EngineError) :=
  past.filterMap Event.reported?

@[simp] theorem workIn_append (past later : List (Event σ ι ε)) :
    workIn (past ++ later) = workIn past ++ workIn later := List.filter_append past later

@[simp] theorem reportsIn_append (past later : List (Event σ ι ε)) :
    reportsIn (past ++ later) = reportsIn past ++ reportsIn later := List.filterMap_append

theorem filterMap_workIn {β : Type} {f : Event σ ι ε → Option β}
    (hf : ∀ event, event.ofWorker = false → f event = none) (past : List (Event σ ι ε)) :
    (workIn past).filterMap f = past.filterMap f := by
  have hsame : (fun event => if event.ofWorker then f event else none) = f := by
    funext event
    cases h : event.ofWorker with
    | true => rfl
    | false => exact (hf event h).symm
  rw [workIn, List.filterMap_filter, hsame]

theorem receivedIn_workIn (past : List (Event σ ι ε)) :
    receivedIn (workIn past) = receivedIn past := by
  refine filterMap_workIn (fun event h => ?_) past
  cases event <;> first | rfl | cases h

theorem publishedIn_workIn (past : List (Event σ ι ε)) :
    publishedIn (workIn past) = publishedIn past := by
  refine filterMap_workIn (fun event h => ?_) past
  cases event <;> first | rfl | cases h

theorem observedIn_workIn (past : List (Event σ ι ε)) :
    observedIn (workIn past) = observedIn past := by
  refine filterMap_workIn (fun event h => ?_) past
  cases event <;> first | rfl | cases h

theorem reportsIn_workIn (past : List (Event σ ι ε)) :
    reportsIn (workIn past) = reportsIn past := by
  refine filterMap_workIn (fun event h => ?_) past
  cases event <;> first | rfl | cases h

/-! ### The worker's events -/

/-- All of the events are the worker's. -/
def Working (events : List (Event σ ι ε)) : Prop := ∀ event ∈ events, event.ofWorker = true

namespace Working

variable {events more : List (Event σ ι ε)}

theorem append (h : Working events) (hm : Working more) : Working (events ++ more) := by
  intro event hmem
  rcases List.mem_append.mp hmem with hmem | hmem
  · exact h event hmem
  · exact hm event hmem

theorem cons {event : Event σ ι ε} (hevent : event.ofWorker = true) (h : Working events) :
    Working (event :: events) := by
  intro other hmem
  rcases List.mem_cons.mp hmem with rfl | hmem
  · exact hevent
  · exact h other hmem

theorem nil : Working ([] : List (Event σ ι ε)) := fun _ hmem => nomatch hmem

end Working

/-- The events tell of nothing but how an intent is decided on. -/
def Deciding (events : List (Event σ ι ε)) : Prop := ∀ event ∈ events, event.decides = true

namespace Deciding

variable {events more : List (Event σ ι ε)}

theorem append (h : Deciding events) (hm : Deciding more) : Deciding (events ++ more) := by
  intro event hmem
  rcases List.mem_append.mp hmem with hmem | hmem
  · exact h event hmem
  · exact hm event hmem

theorem one {event : Event σ ι ε} (h : event.decides = true) : Deciding [event] := by
  intro other hmem
  rw [List.mem_singleton.mp hmem]
  exact h

theorem working (h : Deciding events) : Working events := by
  intro event hmem
  have hevent := h event hmem
  cases event <;> first | rfl | cases hevent

theorem reports (h : Deciding events) : reportsIn events = [] := by
  refine List.filterMap_eq_nil_iff.mpr fun event hmem => ?_
  have hevent := h event hmem
  cases event <;> first | rfl | cases hevent

theorem reportsIn_cons (h : Deciding events) (i : ι) (more : List (Event σ ι ε)) :
    reportsIn (.received i :: events ++ more) = reportsIn more := by
  rw [reportsIn_append]
  show reportsIn events ++ reportsIn more = reportsIn more
  rw [h.reports, List.nil_append]

end Deciding

theorem compare_deciding {previous : Option ι} {i : ι} {answer : Attempt Bool}
    {compared : List (Event σ ι ε)} (h : compare S previous i = (answer, compared)) :
    Deciding compared := by
  cases previous with
  | none =>
    cases h
    exact fun _ hmem => nomatch hmem
  | some p =>
    cases h
    exact .one rfl

theorem perform_deciding {state : σ} {i : ι} {id : Nat} {answer : Attempt (Option ε)}
    {performed : List (Event σ ι ε)} (h : perform S state i id = (answer, performed)) :
    Deciding performed := by
  unfold perform at h
  split at h
  · cases h
    exact fun _ hmem => nomatch hmem
  · split at h
    · cases h
      exact .one rfl
    · cases h
      exact .one rfl
    · cases h
      exact (Deciding.one rfl).append (.one rfl)

theorem Decided.deciding {state : σ} {previous : Option ι} {i : ι} {id : Nat} {f : Fate σ ε}
    {called : List (Event σ ι ε)} (h : Decided S state previous i id (f, called)) :
    Deciding called := by
  cases h with
  | crashed hc => exact compare_deciding hc
  | repeated hc => exact (compare_deciding hc).append (.one rfl)
  | unvalidated hc _ => exact (compare_deciding hc).append (.one rfl)
  | refused hc _ => exact ((compare_deciding hc).append (.one rfl)).append (.one rfl)
  | unperformed hc _ hp =>
    exact ((compare_deciding hc).append (.one rfl)).append (perform_deciding hp)
  | unreduced hc _ hp _ =>
    exact (((compare_deciding hc).append (.one rfl)).append (perform_deciding hp)).append (.one rfl)
  | applied hc _ hp _ =>
    exact (((compare_deciding hc).append (.one rfl)).append (perform_deciding hp)).append (.one rfl)

theorem news_working (S : Setup σ ι ε) (next : σ) : Working (news S next : List (Event σ ι ε)) := by
  unfold news
  cases S.observer with
  | none => exact .cons rfl .nil
  | some _ => exact .cons rfl (.cons rfl .nil)

/-! ### Moves of effects -/

/-- All that can come of a move of an effect. -/
inductive Moved (id : Nat) (intents : List ι) (e : Engine σ ι) :
    Engine σ ι × List (Event σ ι ε) → Prop
  /-- There is no such effect, or it has ended. -/
  | still (h : e.effects[id]? ≠ some .running) : Moved id intents e (e, [])
  | cancelled (hr : e.effects[id]? = some .running) (hs : e.shutdown = true) :
      Moved id intents e (e.endEffect id .cancelled)
  | waits (hr : e.effects[id]? = some .running) (hs : e.shutdown = false) :
      Moved id intents e (e.submitAll intents)
  | ends (how : Ending) (hr : e.effects[id]? = some .running) (hs : e.shutdown = false)
      (hhow : how ≠ .cancelled) :
      Moved id intents e
        (((e.submitAll intents : Engine σ ι × List (Event σ ι ε)).1.endEffect id how :
            Engine σ ι × List (Event σ ι ε)).1,
          (e.submitAll intents).2 ++ [.effectEnded id how])

theorem moveEffect_moved (id : Nat) (intents : List ι) (exit : Exit) (e : Engine σ ι) :
    Moved id intents e (e.moveEffect id intents exit : Engine σ ι × List (Event σ ι ε)) := by
  unfold moveEffect
  split
  · rename_i hr
    by_cases hs : e.shutdown = true
    · rw [if_pos hs]
      exact .cancelled hr hs
    · rw [if_neg hs]
      rw [Bool.not_eq_true] at hs
      cases exit with
      | waits => exact .waits hr hs
      | completes => exact .ends .completed hr hs (by simp)
      | panics => exact .ends .panicked hr hs (by simp)
  · rename_i hr
    exact .still fun h => hr h

/-! ### Teardowns that go on -/

/-- All that can come of looking whether a teardown can go on. -/
inductive Resumed (id : Nat) (e : Engine σ ι) : Engine σ ι × List (Event σ ι ε) → Prop
  | still : Resumed id e (e, [])
  /-- All effects have ended; the worker is next. -/
  | claimed (ht : e.teardowns[id]? = some .awaitingEffects) (hn : e.active = 0)
      (hc : e.claimed = false) :
      Resumed id e
        ({ e with claimed := true, teardowns := e.teardowns.set id .awaitingWorker }, [])
  /-- All effects have ended, and another teardown awaits the worker. -/
  | spared (ht : e.teardowns[id]? = some .awaitingEffects) (hn : e.active = 0)
      (hc : e.claimed = true) : Resumed id e (e.finishTeardown id (.ok ()))
  | joined (result : Except EngineError Unit) (ht : e.teardowns[id]? = some .awaitingWorker)
      (hr : e.outcome? = some result) : Resumed id e (e.finishTeardown id result)

theorem resume_resumed (id : Nat) (e : Engine σ ι) :
    Resumed id e (e.resume id : Engine σ ι × List (Event σ ι ε)) := by
  unfold resume
  split
  · rename_i ht
    by_cases hn : e.active = 0
    · rw [if_pos hn]
      cases hc : e.claimed with
      | true => exact .spared ht hn hc
      | false => exact .claimed ht hn hc
    · rw [if_neg hn]
      exact .still
  · rename_i ht
    split
    · rename_i result hr
      exact .joined result ht hr
    · exact .still
  · exact .still

/-! ### Acts of others -/

/-- None of the events is the worker's. -/
def Workless (events : List (Event σ ι ε)) : Prop := ∀ event ∈ events, event.ofWorker = false

theorem Workless.workIn {events : List (Event σ ι ε)} (h : Workless events) : workIn events = [] :=
  List.filter_eq_nil_iff.mpr fun event hmem => by rw [h event hmem]; exact Bool.false_ne_true

theorem submitAll_workless (intents : List ι) (e : Engine σ ι) :
    Workless (e.submitAll intents : Engine σ ι × List (Event σ ι ε)).2 := by
  unfold submitAll
  split <;> simp [Workless, Event.ofWorker]

theorem Moved.workless {id : Nat} {intents : List ι} {after : Engine σ ι × List (Event σ ι ε)}
    (h : Moved id intents e after) : Workless after.2 := by
  cases h with
  | still => simp [Workless]
  | cancelled => simp [Workless, endEffect, Event.ofWorker]
  | waits => exact e.submitAll_workless intents
  | ends how =>
    intro event hmem
    rcases List.mem_append.mp hmem with hmem | hmem
    · exact e.submitAll_workless intents event hmem
    · rw [List.mem_singleton.mp hmem]
      rfl

theorem Resumed.workless {id : Nat} {after : Engine σ ι × List (Event σ ι ε)}
    (h : Resumed id e after) : Workless after.2 := by
  cases h with
  | still | claimed => simp [Workless]
  | spared | joined => simp [Workless, finishTeardown, Event.ofWorker]

theorem step_workless (S : Setup σ ι ε) (e : Engine σ ι) {act : Act ι} (h : act ≠ .work) :
    Workless (e.step S act).2 := by
  cases act with
  | work => exact absurd rfl h
  | submit i =>
    show Workless (e.submit i).2
    unfold submit
    split <;> simp [Workless, Event.ofWorker]
  | effect id intents exit => exact (e.moveEffect_moved id intents exit).workless
  | resume id => exact (e.resume_resumed id).workless
  | subscribe | read | unsubscribe | destroy | drop => simp [step, Workless, Event.ofWorker]

theorem step_others (S : Setup σ ι ε) (e : Engine σ ι) {act : Act ι} (h : act ≠ .work) :
    (e.step S act).1.worker = e.worker ∧ (e.step S act).1.current = e.current ∧
      (e.shutdown = true → (e.step S act).1.shutdown = true) := by
  have apart : ∀ after : Engine σ ι × List (Event σ ι ε), Beside e after →
      after.1.worker = e.worker ∧ after.1.current = e.current ∧
        (e.shutdown = true → after.1.shutdown = true) := fun after hb =>
    ⟨hb.worker, congrArg Broadcast.last hb.broadcast, hb.shutdown.trans⟩
  cases act with
  | work => exact absurd rfl h
  | submit i => exact apart _ (e.step_apart S rfl)
  | effect id intents exit => exact apart _ (e.step_apart S rfl)
  | resume id => exact apart _ (e.step_apart S rfl)
  | read n => exact ⟨rfl, e.broadcast.read_last n, id⟩
  | subscribe | unsubscribe => exact ⟨rfl, rfl, id⟩
  | destroy | drop => exact ⟨rfl, rfl, fun _ => rfl⟩

/-! ### At rest -/

/-- The worker has ended, or will when it moves. -/
def Resting (e : Engine σ ι) : Prop := e.isAlive = false ∨ e.shutdown = true

theorem isAlive_of_worker {e' : Engine σ ι} (h : e'.worker = e.worker) : e'.isAlive = e.isAlive := by
  rw [isAlive, isAlive, h]

namespace Resting

theorem work (h : Resting e) {after : Engine σ ι × List (Event σ ι ε)} (hw : Worked S e after) :
    after.1.isAlive = false ∧ after.2 = [] ∧ after.1.broadcast = e.broadcast ∧
      after.1.effects = e.effects := by
  have hno : ∀ state previous, e.worker = .alive state previous → e.shutdown = false → False := by
    intro state previous hw hs
    rcases h with hdead | hstop
    · rw [isAlive, hw] at hdead
      cases hdead
    · rw [hs] at hstop
      cases hstop
  cases hw with
  | ended hdead => exact ⟨hdead, rfl, rfl, rfl⟩
  | stopped => exact ⟨rfl, rfl, rfl, rfl⟩
  | idle state previous hw hs => exact (hno state previous hw hs).elim
  | received state previous hw hs => exact (hno state previous hw hs).elim

theorem step (S : Setup σ ι ε) (h : Resting e) (act : Act ι) :
    Resting (e.step S act).1 ∧ Workless (e.step S act).2 ∧
      (e.step S act).1.current = e.current := by
  by_cases hact : act = .work
  · subst hact
    obtain ⟨hdead, hnone, hbroadcast, -⟩ := h.work (work_worked S e)
    refine ⟨Or.inl hdead, ?_, congrArg Broadcast.last hbroadcast⟩
    show Workless (e.work S).2
    rw [hnone]
    exact fun _ hmem => nomatch hmem
  · obtain ⟨hworker, hcurrent, hshutdown⟩ := step_others S e hact
    refine ⟨?_, step_workless S e hact, hcurrent⟩
    exact h.imp (isAlive_of_worker hworker).trans hshutdown

/-- **An engine at rest does nothing more.** -/
theorem runFrom (S : Setup σ ι ε) (h : Resting e) (acts : List (Act ι)) :
    Resting (e.runFrom S acts).1 ∧ workIn (e.runFrom S acts).2 = [] ∧
      (e.runFrom S acts).1.current = e.current := by
  refine runFrom_induct
    (P := fun e' past => Resting e' ∧ workIn past = [] ∧ e'.current = e.current) ⟨h, rfl, rfl⟩ ?_
  intro act _ e' past ⟨hrest, hnone, hcurrent⟩
  obtain ⟨hrest', hworkless, hcurrent'⟩ := hrest.step S act
  exact ⟨hrest', by rw [workIn_append, hnone, hworkless.workIn]; rfl, hcurrent'.trans hcurrent⟩

end Resting

/-! ### A worker that has ended -/

theorem submitAll_dead (h : e.isAlive = false) (intents : List ι) :
    e.submitAll intents = (e, (intents.map .rejected : List (Event σ ι ε))) := by
  rw [submitAll, if_neg (by rw [h]; exact Bool.false_ne_true)]

theorem submit_dead (h : e.isAlive = false) (i : ι) :
    e.submit i = (e, ([.rejected i] : List (Event σ ι ε))) := by
  rw [submit, if_neg (by rw [h]; exact Bool.false_ne_true)]

/-- No event accepts an intent. -/
def Closed (events : List (Event σ ι ε)) : Prop := ∀ i, .accepted i ∉ events

theorem Moved.closed {id : Nat} {intents : List ι} {after : Engine σ ι × List (Event σ ι ε)}
    (h : Moved id intents e after) (hdead : e.isAlive = false) : Closed after.2 := by
  cases h with
  | still => simp [Closed]
  | cancelled => simp [Closed, endEffect]
  | waits => simp [Closed, submitAll_dead hdead]
  | ends how => simp [Closed, submitAll_dead hdead]

theorem Resumed.closed {id : Nat} {after : Engine σ ι × List (Event σ ι ε)}
    (h : Resumed id e after) : Closed after.2 := by
  cases h with
  | still | claimed => simp [Closed]
  | spared | joined => simp [Closed, finishTeardown]

theorem work_dead (S : Setup σ ι ε) (h : e.isAlive = false) : e.work S = (e, []) := by
  unfold isAlive at h
  unfold work
  split
  · rename_i hw
    rw [hw] at h
    cases h
  · rfl
  · rfl

theorem step_dead (S : Setup σ ι ε) (h : e.isAlive = false) (act : Act ι) :
    (e.step S act).1.isAlive = false ∧ Closed (e.step S act).2 := by
  by_cases hact : act = .work
  · subst hact
    show (e.work S).1.isAlive = false ∧ Closed (e.work S).2
    rw [work_dead S h]
    exact ⟨h, fun _ hmem => nomatch hmem⟩
  · refine ⟨(isAlive_of_worker (step_others S e hact).1).trans h, ?_⟩
    cases act with
    | work => exact absurd rfl hact
    | submit i =>
      show Closed (e.submit i).2
      rw [submit_dead h]
      simp [Closed]
    | effect id intents exit => exact (e.moveEffect_moved id intents exit).closed h
    | resume id => exact (e.resume_resumed id).closed
    | subscribe | read | unsubscribe | destroy | drop => simp [step, Closed]

theorem alive_of_step (S : Setup σ ι ε) {act : Act ι} (h : (e.step S act).1.isAlive = true) :
    e.isAlive = true := by
  cases hdead : e.isAlive with
  | true => rfl
  | false =>
    rw [(step_dead S hdead act).1] at h
    cases h

theorem runFrom_dead (S : Setup σ ι ε) (h : e.isAlive = false) (acts : List (Act ι)) :
    (e.runFrom S acts).1.isAlive = false ∧ Closed (e.runFrom S acts).2 := by
  refine runFrom_induct (P := fun e' past => e'.isAlive = false ∧ Closed past)
    ⟨h, fun _ hmem => nomatch hmem⟩ ?_
  intro act _ e' past ⟨hdead, hclosed⟩
  obtain ⟨hdead', hclosed'⟩ := step_dead S hdead act
  refine ⟨hdead', fun i hmem => ?_⟩
  rcases List.mem_append.mp hmem with hmem | hmem
  · exact hclosed i hmem
  · exact hclosed' i hmem

/-! ### Status -/

theorem Moved.status {id : Nat} {intents : List ι} {after : Engine σ ι × List (Event σ ι ε)}
    (h : Moved id intents e after) : after.1.status = e.status := by
  have hsent : (e.submitAll intents : Engine σ ι × List (Event σ ι ε)).1.status = e.status := by
    unfold submitAll
    split <;> rfl
  cases h with
  | still => rfl
  | cancelled => rfl
  | waits => exact hsent
  | ends how => exact hsent

/-- The status is the one that it was, or a teardown has ended. -/
def Settled (e : Engine σ ι) (after : Engine σ ι × List (Event σ ι ε)) : Prop :=
  after.1.status = e.status ∨
    after.1.status = .destroyed ∧ ∃ id result, .teardownEnded id result ∈ after.2

theorem Resumed.settled {id : Nat} {after : Engine σ ι × List (Event σ ι ε)}
    (h : Resumed id e after) : Settled e after := by
  cases h with
  | still => exact Or.inl rfl
  | claimed => exact Or.inl rfl
  | spared => exact Or.inr ⟨rfl, id, _, List.mem_singleton.mpr rfl⟩
  | joined result => exact Or.inr ⟨rfl, id, result, List.mem_singleton.mpr rfl⟩

theorem step_settled (S : Setup σ ι ε) (e : Engine σ ι) {act : Act ι} (h : act ≠ .work) :
    Settled e (e.step S act) := by
  cases act with
  | work => exact absurd rfl h
  | submit i =>
    left
    show (e.submit i : Engine σ ι × List (Event σ ι ε)).1.status = e.status
    unfold submit
    split <;> rfl
  | effect id intents exit => exact Or.inl (e.moveEffect_moved id intents exit).status
  | resume id => exact (e.resume_resumed id).settled
  | subscribe | read | unsubscribe | destroy | drop => exact Or.inl rfl

/-- Once the worker has ended, the status is settled until a teardown ends. -/
theorem runFrom_settled (S : Setup σ ι ε) (h : e.isAlive = false) (acts : List (Act ι)) :
    Settled e (e.runFrom S acts) := by
  refine (runFrom_induct (S := S) (e := e)
    (P := fun e' past => e'.isAlive = false ∧ Settled e (e', past)) ⟨h, Or.inl rfl⟩ ?_).2
  intro act _ e' past ⟨hdead, hsettled⟩
  refine ⟨(step_dead S hdead act).1, ?_⟩
  have hstep : Settled e' (e'.step S act) := by
    by_cases hact : act = .work
    · subst hact
      exact Or.inl (congrArg (fun after => after.1.status) (work_dead S hdead))
    · exact step_settled S e' hact
  rcases hstep with hsame | ⟨hend, id, result, hmem⟩
  · rcases hsettled with hs | ⟨hs, id, result, hmem⟩
    · exact Or.inl (hsame.trans hs)
    · exact Or.inr ⟨hsame.trans hs, id, result, List.mem_append_left _ hmem⟩
  · exact Or.inr ⟨hend, id, result, List.mem_append_right _ hmem⟩

end IntentLoop.Engine
