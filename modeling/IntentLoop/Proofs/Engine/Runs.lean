import IntentLoop.Engine.Engine
import IntentLoop.Proofs.History
/-!
# Runs of an engine

What is said of runs is proved act by act (`runFrom_induct`). Most acts do not concern the worker or
the broadcast at all, and `step_apart` sets them aside once and for all. What the worker does when
it moves is listed in `Worked`, and what comes of an intent that it takes in `Receipt`: how it
decides on the intent (`Decided`) is nobody else's business, and the state that comes of it may
be made public (`publish_cases`).

A history is read through the events that matter: the intents received, the states published and
those shown to the observer, and the states that the reader of one stream has found.
-/

namespace IntentLoop.Engine

variable {σ ι ε : Type}

/-! ### Runs -/

theorem runFrom_append (S : Setup σ ι ε) (e : Engine σ ι) (acts more : List (Act ι)) :
    e.runFrom S (acts ++ more) =
      (((e.runFrom S acts).1.runFrom S more).1,
        (e.runFrom S acts).2 ++ ((e.runFrom S acts).1.runFrom S more).2) :=
  History.after_append (step S) e acts more

theorem runFrom_cons (S : Setup σ ι ε) (e : Engine σ ι) (act : Act ι) (acts : List (Act ι)) :
    e.runFrom S (act :: acts) =
      (((e.step S act).1.runFrom S acts).1,
        (e.step S act).2 ++ ((e.step S act).1.runFrom S acts).2) :=
  History.after_cons (step S) e act acts

/-- A run is what came before an act of it, the act, and what came after. -/
theorem run_split (S : Setup σ ι ε) (pre : List (Act ι)) (act : Act ι) (post : List (Act ι)) :
    run S (pre ++ act :: post) =
      ((((run S pre).1.step S act).1.runFrom S post).1,
        (run S pre).2 ++ (((run S pre).1.step S act).2 ++
          (((run S pre).1.step S act).1.runFrom S post).2)) := by
  rw [run, runFrom_append, runFrom_cons]
  rfl

/-- **What holds at first and is kept by every act of a run holds after it.** -/
theorem runFrom_induct {S : Setup σ ι ε} {P : Engine σ ι → List (Event σ ι ε) → Prop}
    {e : Engine σ ι} {acts : List (Act ι)} (start : P e [])
    (keep : ∀ act ∈ acts, ∀ {e past}, P e past → P (e.step S act).1 (past ++ (e.step S act).2)) :
    P (e.runFrom S acts).1 (e.runFrom S acts).2 :=
  History.after_induct (step S) start keep

/-! ### What a history tells -/

namespace Event

def received? : Event σ ι ε → Option ι
  | .received i => some i
  | _ => none

def published? : Event σ ι ε → Option σ
  | .published s => some s
  | _ => none

def observed? : Event σ ι ε → Option σ
  | .observed s => some s
  | _ => none

/-- The state that the reader of a stream has found. -/
def found? (stream : Nat) : Event σ ι ε → Option σ
  | .found n (.state s) => if n = stream then some s else none
  | _ => none

/-- Does the event tell nothing of intents received or of states made public? -/
def isPrivate : Event σ ι ε → Bool
  | .received _ | .published _ | .observed _ | .found _ _ => false
  | _ => true

end Event

/-- The intents received, in order. -/
def receivedIn (past : List (Event σ ι ε)) : List ι := past.filterMap Event.received?

/-- The states published, in order, without the first one. -/
def publishedIn (past : List (Event σ ι ε)) : List σ := past.filterMap Event.published?

/-- The calls of the observer, in order. -/
def observedIn (past : List (Event σ ι ε)) : List σ := past.filterMap Event.observed?

/-- The states that the reader of a stream has found, in order. -/
def foundIn (stream : Nat) (past : List (Event σ ι ε)) : List σ :=
  past.filterMap (Event.found? stream)

@[simp] theorem receivedIn_append (past later : List (Event σ ι ε)) :
    receivedIn (past ++ later) = receivedIn past ++ receivedIn later := List.filterMap_append

@[simp] theorem publishedIn_append (past later : List (Event σ ι ε)) :
    publishedIn (past ++ later) = publishedIn past ++ publishedIn later := List.filterMap_append

@[simp] theorem observedIn_append (past later : List (Event σ ι ε)) :
    observedIn (past ++ later) = observedIn past ++ observedIn later := List.filterMap_append

@[simp] theorem foundIn_append (n : Nat) (past later : List (Event σ ι ε)) :
    foundIn n (past ++ later) = foundIn n past ++ foundIn n later := List.filterMap_append

/-- Nothing of intents received or of states made public. -/
def Private (events : List (Event σ ι ε)) : Prop := ∀ event ∈ events, event.isPrivate

namespace Private

variable {events : List (Event σ ι ε)}

theorem append {more : List (Event σ ι ε)} (h : Private events) (hm : Private more) :
    Private (events ++ more) := by
  intro event hmem
  rcases List.mem_append.mp hmem with hmem | hmem
  · exact h event hmem
  · exact hm event hmem

theorem filterMap_append {β : Type} (h : Private events) {f : Event σ ι ε → Option β}
    (hf : ∀ event, event.isPrivate → f event = none) (more : List (Event σ ι ε)) :
    (events ++ more).filterMap f = more.filterMap f := by
  have hnil : events.filterMap f = [] :=
    List.filterMap_eq_nil_iff.mpr fun event hmem => hf event (h event hmem)
  rw [List.filterMap_append, hnil, List.nil_append]

theorem receivedIn_append (h : Private events) (more : List (Event σ ι ε)) :
    receivedIn (events ++ more) = receivedIn more := by
  refine h.filterMap_append (fun event hp => ?_) more
  cases event <;> first | rfl | cases hp

theorem publishedIn_append (h : Private events) (more : List (Event σ ι ε)) :
    publishedIn (events ++ more) = publishedIn more := by
  refine h.filterMap_append (fun event hp => ?_) more
  cases event <;> first | rfl | cases hp

theorem observedIn_append (h : Private events) (more : List (Event σ ι ε)) :
    observedIn (events ++ more) = observedIn more := by
  refine h.filterMap_append (fun event hp => ?_) more
  cases event <;> first | rfl | cases hp

theorem foundIn_append (h : Private events) (n : Nat) (more : List (Event σ ι ε)) :
    foundIn n (events ++ more) = foundIn n more := by
  refine h.filterMap_append (fun event hp => ?_) more
  cases event <;> first | rfl | cases hp

theorem receivedIn_eq_nil (h : Private events) : receivedIn events = [] :=
  List.append_nil events ▸ h.receivedIn_append []

theorem publishedIn_eq_nil (h : Private events) : publishedIn events = [] :=
  List.append_nil events ▸ h.publishedIn_append []

theorem observedIn_eq_nil (h : Private events) : observedIn events = [] :=
  List.append_nil events ▸ h.observedIn_append []

theorem foundIn_eq_nil (h : Private events) (n : Nat) : foundIn n events = [] :=
  List.append_nil events ▸ h.foundIn_append n []

/-! An intent is received, it is decided on in private, and more is told. -/

theorem receivedIn_cons (h : Private events) (i : ι) (more : List (Event σ ι ε)) :
    receivedIn (.received i :: events ++ more) = i :: receivedIn more :=
  congrArg (i :: ·) (h.receivedIn_append more)

theorem publishedIn_cons (h : Private events) (i : ι) (more : List (Event σ ι ε)) :
    publishedIn (.received i :: events ++ more) = publishedIn more := h.publishedIn_append more

theorem observedIn_cons (h : Private events) (i : ι) (more : List (Event σ ι ε)) :
    observedIn (.received i :: events ++ more) = observedIn more := h.observedIn_append more

theorem foundIn_cons (h : Private events) (i : ι) (n : Nat) (more : List (Event σ ι ε)) :
    foundIn n (.received i :: events ++ more) = foundIn n more := h.foundIn_append n more

end Private

/-! ### Acts beside the worker -/

/-- Something happens beside the worker and the broadcast. -/
structure Beside (e : Engine σ ι) (after : Engine σ ι × List (Event σ ι ε)) : Prop where
  worker : after.1.worker = e.worker
  broadcast : after.1.broadcast = e.broadcast
  shutdown : after.1.shutdown = e.shutdown
  silent : Private after.2

theorem Beside.refl (e : Engine σ ι) : Beside e (e, ([] : List (Event σ ι ε))) :=
  ⟨rfl, rfl, rfl, fun _ h => nomatch h⟩

theorem Beside.trans {e mid after : Engine σ ι} {first last : List (Event σ ι ε)}
    (h : Beside e (mid, first)) (hl : Beside mid (after, last)) : Beside e (after, first ++ last) :=
  ⟨hl.worker.trans h.worker, hl.broadcast.trans h.broadcast, hl.shutdown.trans h.shutdown,
    h.silent.append hl.silent⟩

theorem submit_beside (i : ι) (e : Engine σ ι) :
    Beside e (e.submit i : Engine σ ι × List (Event σ ι ε)) := by
  unfold submit
  split
  · exact ⟨rfl, rfl, rfl, by simp [Private, Event.isPrivate]⟩
  · exact ⟨rfl, rfl, rfl, by simp [Private, Event.isPrivate]⟩

theorem submitAll_beside (intents : List ι) (e : Engine σ ι) :
    Beside e (e.submitAll intents : Engine σ ι × List (Event σ ι ε)) := by
  unfold submitAll
  split
  · exact ⟨rfl, rfl, rfl, by simp [Private, Event.isPrivate]⟩
  · exact ⟨rfl, rfl, rfl, by simp [Private, Event.isPrivate]⟩

theorem endEffect_beside (id : Nat) (how : Ending) (e : Engine σ ι) :
    Beside e (e.endEffect id how : Engine σ ι × List (Event σ ι ε)) :=
  ⟨rfl, rfl, rfl, by simp [endEffect, Private, Event.isPrivate]⟩

theorem moveEffect_beside (id : Nat) (intents : List ι) (exit : Exit) (e : Engine σ ι) :
    Beside e (e.moveEffect id intents exit : Engine σ ι × List (Event σ ι ε)) := by
  unfold moveEffect
  split
  · split
    · exact e.endEffect_beside id .cancelled
    · have hsent : Beside e (e.submitAll intents : Engine σ ι × List (Event σ ι ε)) :=
        e.submitAll_beside intents
      cases exit with
      | waits => exact hsent
      | completes => exact hsent.trans (endEffect_beside id .completed _)
      | panics => exact hsent.trans (endEffect_beside id .panicked _)
  · exact .refl e

theorem resume_beside (id : Nat) (e : Engine σ ι) :
    Beside e (e.resume id : Engine σ ι × List (Event σ ι ε)) := by
  have hfinish : ∀ result,
      Beside e (e.finishTeardown id result : Engine σ ι × List (Event σ ι ε)) := fun result =>
    ⟨rfl, rfl, rfl, by simp [finishTeardown, Private, Event.isPrivate]⟩
  unfold resume
  split
  · split
    · split
      · exact hfinish (.ok ())
      · exact ⟨rfl, rfl, rfl, fun _ h => nomatch h⟩
    · exact .refl e
  · split
    · exact hfinish _
    · exact .refl e
  · exact .refl e

/-- Does the act concern neither the worker nor the broadcast? -/
def Act.isApart : Act ι → Bool
  | .submit _ | .effect _ _ _ | .resume _ => true
  | _ => false

theorem step_apart (S : Setup σ ι ε) (e : Engine σ ι) {act : Act ι} (h : act.isApart) :
    Beside e (e.step S act) := by
  cases act with
  | submit i => exact e.submit_beside i
  | effect id intents exit => exact e.moveEffect_beside id intents exit
  | resume id => exact e.resume_beside id
  | work | subscribe | read | unsubscribe | destroy | drop => cases h

/-! ### One intent -/

/-- How an intent can be decided on, and the callbacks that are made for it. -/
inductive Decided (S : Setup σ ι ε) (state : σ) (previous : Option ι) (i : ι) (id : Nat) :
    Fate σ ε × List (Event σ ι ε) → Prop
  | crashed {p : Panic} {compared : List (Event σ ι ε)}
      (hc : compare S previous i = (.error p, compared)) :
      Decided S state previous i id (.crashed p, compared)
  | repeated {compared : List (Event σ ι ε)} (hc : compare S previous i = (.ok true, compared)) :
      Decided S state previous i id (.repeated, compared ++ [.repeated i])
  /-- Validation broke off. -/
  | unvalidated {p : Panic} {compared : List (Event σ ι ε)}
      (hc : compare S previous i = (.ok false, compared)) (hv : S.rules.valid i state = .error p) :
      Decided S state previous i id (.failed p none, compared ++ [.validated i state])
  | refused {compared : List (Event σ ι ε)} (hc : compare S previous i = (.ok false, compared))
      (hv : S.rules.valid i state = .ok false) :
      Decided S state previous i id (.refused, compared ++ [.validated i state] ++ [.refused i])
  /-- The handler broke off. -/
  | unperformed {p : Panic} {compared performed : List (Event σ ι ε)}
      (hc : compare S previous i = (.ok false, compared)) (hv : S.rules.valid i state = .ok true)
      (hp : perform S state i id = (.error p, performed)) :
      Decided S state previous i id (.failed p none, compared ++ [.validated i state] ++ performed)
  /-- The reduction broke off. -/
  | unreduced {p : Panic} {effect : Option ε} {compared performed : List (Event σ ι ε)}
      (hc : compare S previous i = (.ok false, compared)) (hv : S.rules.valid i state = .ok true)
      (hp : perform S state i id = (.ok effect, performed))
      (hr : S.rules.reduce i state = .error p) :
      Decided S state previous i id
        (.failed p effect, compared ++ [.validated i state] ++ performed ++ [.reduced i state])
  | applied {next : σ} {effect : Option ε} {compared performed : List (Event σ ι ε)}
      (hc : compare S previous i = (.ok false, compared)) (hv : S.rules.valid i state = .ok true)
      (hp : perform S state i id = (.ok effect, performed))
      (hr : S.rules.reduce i state = .ok next) :
      Decided S state previous i id
        (.applied next effect, compared ++ [.validated i state] ++ performed ++ [.reduced i state])

theorem fate_decided (S : Setup σ ι ε) (state : σ) (previous : Option ι) (i : ι) (id : Nat) :
    Decided S state previous i id (fate S state previous i id) := by
  unfold fate
  dsimp only
  split
  · rename_i hc
    exact .crashed (Prod.ext hc rfl)
  · rename_i hc
    exact .repeated (Prod.ext hc rfl)
  · rename_i hc
    split
    · rename_i hv
      exact .unvalidated (Prod.ext hc rfl) hv
    · rename_i hv
      exact .refused (Prod.ext hc rfl) hv
    · rename_i hv
      split
      · rename_i hp
        exact .unperformed (Prod.ext hc rfl) hv (Prod.ext hp rfl)
      · rename_i hp
        split
        · rename_i hr
          exact .unreduced (Prod.ext hc rfl) hv (Prod.ext hp rfl) hr
        · rename_i hr
          exact .applied (Prod.ext hc rfl) hv (Prod.ext hp rfl) hr

theorem compare_private {S : Setup σ ι ε} {previous : Option ι} {i : ι} {answer : Attempt Bool}
    {compared : List (Event σ ι ε)} (h : compare S previous i = (answer, compared)) :
    Private compared := by
  cases previous <;> cases h <;> simp [Private, Event.isPrivate]

theorem perform_private {S : Setup σ ι ε} {state : σ} {i : ι} {id : Nat}
    {answer : Attempt (Option ε)} {performed : List (Event σ ι ε)}
    (h : perform S state i id = (answer, performed)) : Private performed := by
  unfold perform at h
  split at h
  · cases h
    simp [Private]
  · split at h <;> cases h <;> simp [Private, Event.isPrivate]

theorem Private.singleton {event : Event σ ι ε} (h : event.isPrivate) : Private [event] := by
  intro other hmem
  exact List.mem_singleton.mp hmem ▸ h

theorem Decided.silent {S : Setup σ ι ε} {state : σ} {previous : Option ι} {i : ι} {id : Nat}
    {f : Fate σ ε} {called : List (Event σ ι ε)} (h : Decided S state previous i id (f, called)) :
    Private called := by
  cases h with
  | crashed hc => exact compare_private hc
  | repeated hc => exact (compare_private hc).append (.singleton rfl)
  | unvalidated hc _ => exact (compare_private hc).append (.singleton rfl)
  | refused hc _ => exact ((compare_private hc).append (.singleton rfl)).append (.singleton rfl)
  | unperformed hc _ hp =>
    exact ((compare_private hc).append (.singleton rfl)).append (perform_private hp)
  | unreduced hc _ hp _ =>
    exact (((compare_private hc).append (.singleton rfl)).append (perform_private hp)).append
      (.singleton rfl)
  | applied hc _ hp _ =>
    exact (((compare_private hc).append (.singleton rfl)).append (perform_private hp)).append
      (.singleton rfl)

/-- What is told of a state that is made public. -/
def news (S : Setup σ ι ε) (next : σ) : List (Event σ ι ε) :=
  match S.observer with
  | none => [.published next]
  | some _ => [.published next, .observed next]

@[simp] theorem receivedIn_news (S : Setup σ ι ε) (next : σ) : receivedIn (news S next) = [] := by
  unfold news
  cases S.observer <;> rfl

@[simp] theorem publishedIn_news (S : Setup σ ι ε) (next : σ) :
    publishedIn (news S next) = [next] := by
  unfold news
  cases S.observer <;> rfl

@[simp] theorem observedIn_news (S : Setup σ ι ε) (next : σ) :
    observedIn (news S next) = if S.observer.isSome then [next] else [] := by
  unfold news
  cases S.observer <;> rfl

@[simp] theorem foundIn_news (S : Setup σ ι ε) (next : σ) (n : Nat) :
    foundIn n (news S next) = [] := by
  unfold news
  cases S.observer <;> rfl

/-- What the observer makes of a state. -/
def notice (S : Setup σ ι ε) (next : σ) : Attempt Unit :=
  match S.observer with
  | none => .ok ()
  | some o => o.notice next

/-- The engine after a state was made public. -/
def announce (next : σ) (e : Engine σ ι) : Engine σ ι :=
  { e with broadcast := { e.broadcast with
      last := next
      streams := e.broadcast.streams.map (·.deliver next) } }

/-- A state is made public unless the broadcast is closed or the last one is the same. -/
theorem publish_cases (S : Setup σ ι ε) (next : σ) (e : Engine σ ι) :
    ((e.broadcast.closed = true ∨ S.rules.same e.broadcast.last next = true) ∧
        e.publish S next = (.ok (), e, [])) ∨
      (e.broadcast.closed = false ∧ S.rules.same e.broadcast.last next = false ∧
        e.publish S next = (notice S next, e.announce next, news S next)) := by
  unfold publish Broadcast.publish
  by_cases h : (e.broadcast.closed || S.rules.same e.broadcast.last next) = true
  · refine Or.inl ⟨by simpa using h, ?_⟩
    simp only [h, if_true]
    rfl
  · rw [Bool.not_eq_true, Bool.or_eq_false_iff] at h
    refine Or.inr ⟨h.1, h.2, ?_⟩
    simp only [h.1, h.2, Bool.or_self, Bool.false_eq_true, if_false, if_true, notice, news,
      announce]
    cases S.observer <;> rfl

@[simp] theorem track_broadcast (effect : Option ε) (e : Engine σ ι) :
    (e.track effect).broadcast = e.broadcast := by
  cases effect <;> rfl

@[simp] theorem track_shutdown (effect : Option ε) (e : Engine σ ι) :
    (e.track effect).shutdown = e.shutdown := by
  cases effect <;> rfl

/-- All that can come of an intent which the worker takes. -/
inductive Receipt (S : Setup σ ι ε) (state : σ) (previous : Option ι) (i : ι) (e : Engine σ ι) :
    Engine σ ι × List (Event σ ι ε) → Prop
  /-- The filter broke off. -/
  | crashed (p : Panic) (called : List (Event σ ι ε))
      (hd : Decided S state previous i e.effects.length (.crashed p, called)) :
      Receipt S state previous i e
        (e.retire (.crashed p), .received i :: called ++ [.crashed p])
  /-- It is a repeat, or not valid. -/
  | skipped (f : Fate σ ε) (called : List (Event σ ι ε))
      (hd : Decided S state previous i e.effects.length (f, called))
      (hskip : f = .repeated ∨ f = .refused) :
      Receipt S state previous i e
        ({ e with worker := .alive state (some i) }, .received i :: called)
  /-- Validation, the handler or the reduction broke off. -/
  | failed (p : Panic) (effect : Option ε) (called : List (Event σ ι ε))
      (hd : Decided S state previous i e.effects.length (.failed p effect, called)) :
      Receipt S state previous i e
        (((e.track effect).halt S i p).1, .received i :: called ++ ((e.track effect).halt S i p).2)
  /-- The new state is kept and not published. -/
  | kept (next : σ) (effect : Option ε) (called : List (Event σ ι ε))
      (hd : Decided S state previous i e.effects.length (.applied next effect, called))
      (hsame : e.broadcast.closed = true ∨ S.rules.same e.broadcast.last next = true) :
      Receipt S state previous i e
        ({ e.track effect with worker := .alive next (some i) },
          .received i :: called ++ [.applied i next])
  | published (next : σ) (effect : Option ε) (called : List (Event σ ι ε))
      (hd : Decided S state previous i e.effects.length (.applied next effect, called))
      (hopen : e.broadcast.closed = false)
      (hdiff : S.rules.same e.broadcast.last next = false) (hn : notice S next = .ok ()) :
      Receipt S state previous i e
        ({ (e.track effect).announce next with worker := .alive next (some i) },
          .received i :: called ++ news S next ++ [.applied i next])
  /-- The observer broke off. -/
  | unnoticed (next : σ) (effect : Option ε) (called : List (Event σ ι ε)) (p : Panic)
      (hd : Decided S state previous i e.effects.length (.applied next effect, called))
      (hopen : e.broadcast.closed = false)
      (hdiff : S.rules.same e.broadcast.last next = false) (hn : notice S next = .error p) :
      Receipt S state previous i e
        (((e.track effect).announce next).retire (.crashed p),
          .received i :: called ++ news S next ++ [.crashed p])

theorem receive_receipt (S : Setup σ ι ε) (state : σ) (previous : Option ι) (i : ι)
    (e : Engine σ ι) : Receipt S state previous i e (e.receive S state previous i) := by
  have hd := fate_decided S state previous i e.effects.length
  unfold receive
  cases hf : fate S state previous i e.effects.length with
  | mk f called =>
  rw [hf] at hd
  cases f with
  | crashed p => exact .crashed p called hd
  | repeated => exact .skipped .repeated called hd (Or.inl rfl)
  | refused => exact .skipped .refused called hd (Or.inr rfl)
  | failed p effect => exact .failed p effect called hd
  | applied next effect =>
    rcases publish_cases S next (e.track effect) with ⟨hsame, hp⟩ | ⟨hopen, hdiff, hp⟩
    · rw [track_broadcast] at hsame
      simp only [hp, List.append_nil]
      exact .kept next effect called hd hsame
    · rw [track_broadcast] at hopen hdiff
      simp only [hp]
      cases hn : notice S next with
      | ok _ => exact .published next effect called hd hopen hdiff hn
      | error p => exact .unnoticed next effect called p hd hopen hdiff hn

/-- All that the worker can do when it moves. -/
inductive Worked (S : Setup σ ι ε) (e : Engine σ ι) : Engine σ ι × List (Event σ ι ε) → Prop
  | ended (h : e.isAlive = false) : Worked S e (e, [])
  | stopped (state : σ) (previous : Option ι) (hw : e.worker = .alive state previous)
      (hs : e.shutdown = true) : Worked S e (e.retire (.returned (.ok ())), [])
  | idle (state : σ) (previous : Option ι) (hw : e.worker = .alive state previous)
      (hs : e.shutdown = false) (hi : e.inbox = []) : Worked S e (e, [])
  | received (state : σ) (previous : Option ι) (hw : e.worker = .alive state previous)
      (hs : e.shutdown = false) (i : ι) (rest : List ι) (hi : e.inbox = i :: rest)
      {after : Engine σ ι × List (Event σ ι ε)}
      (hr : Receipt S state previous i { e with inbox := rest } after) : Worked S e after

theorem work_worked (S : Setup σ ι ε) (e : Engine σ ι) : Worked S e (e.work S) := by
  unfold work
  split
  · rename_i state previous hw
    by_cases hs : e.shutdown = true
    · rw [if_pos hs]
      exact .stopped state previous hw hs
    · rw [if_neg hs]
      rw [Bool.not_eq_true] at hs
      split
      · rename_i hi
        exact .idle state previous hw hs hi
      · rename_i i rest hi
        exact .received state previous hw hs i rest hi (receive_receipt S state previous i _)
  · rename_i hw
    exact .ended (by rw [isAlive, hw])
  · rename_i hw
    exact .ended (by rw [isAlive, hw])

end IntentLoop.Engine
