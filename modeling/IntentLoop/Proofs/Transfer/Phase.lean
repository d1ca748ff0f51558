import IntentLoop.Proofs.Transfer.Parts
import IntentLoop.Proofs.Transfer.Path
/-!
# How far the effect of a transfer has come

The effect stands somewhere on its way, its session is fetching, waiting or over, and the executor knows who
waits for a token or an answer. `Phase` says which of these go together, and which outcomes the engine has
accepted by then: none before the effect has told one, and never more than that one. As long as nothing was
told of a failure (`Harmless`), the effect can still come to an outcome; a value that becomes the outcome
has come a way that was told event by event (`settlement`, `Led`, `Promising`).

The worker is at its own place meanwhile (`Path`), and neither waits for the other. `OnCourse` is what holds
of both after every run; the acts that keep it are the matter of the next module. Here are those that leave
the effect, its session and its check alone (`Phase.congr`), and those that take the effect in and out of a
poll (`Phase.relive`).
-/

namespace IntentLoop.Transfer

open IntentLoop.Auth (RequestError Access Token)
open IntentLoop.Poll (Poller Session)
open Engine (launchesIn publishedIn Life)

variable {plan : Plan} {t : Transfer} {past events : List Event}

/-! ### What is told of a transfer -/

/-- Does the event tell of a check, or of the fetch of a token, that failed? -/
def Event.isFailure : Event → Bool
  | .poller (.ended _ (.error _)) => true
  | .access (.fetched _ (.error _)) => true
  | .access (.returned _ (.request (.error _))) => true
  | _ => false

/-- No check and no fetch of a token has failed. -/
def Harmless (past : List Event) : Prop := ∀ event ∈ past, event.isFailure = false

theorem Harmless.append (h : Harmless past) (hev : Harmless events) : Harmless (past ++ events) := by
  intro event hmem
  rcases List.mem_append.mp hmem with hmem | hmem
  · exact h event hmem
  · exact hev event hmem

theorem onEngine_harmless (t : Transfer) (act : Engine.Threads.Act Intent) : Harmless (t.onEngine act).2 := by
  intro event hmem
  obtain ⟨_, -, rfl⟩ := List.mem_map.mp hmem
  rfl

theorem poller_harmless {told : List (Poll.Event RequestError String)}
    (h : ∀ i e, .ended i (.error e) ∉ told) : Harmless (told.map .poller) := by
  intro event hmem
  obtain ⟨event, hevent, rfl⟩ := List.mem_map.mp hmem
  cases event with
  | ended i result =>
    cases result with
    | ok o => rfl
    | error e => exact absurd hevent (h i e)
  | started | fetch | evaluated | cancelled | dropped => rfl

theorem onPoller_harmless (t : Transfer) {act : Poll.Act RequestError String}
    (hact : ∀ i e, act ≠ .fetched i (.error e)) : Harmless (t.onPoller plan act).2 :=
  poller_harmless (Poller.step_unfailed hact)

theorem onRates_harmless (t : Transfer) (act : Cache.TimedCache.Act String String) :
    Harmless (t.onRates act).2 := by
  intro event hmem
  obtain ⟨_, -, rfl⟩ := List.mem_map.mp hmem
  rfl

/-- All that is told of a value on its way: a fetch gives a token, a request is made with it and gives
the value, the matcher is asked about the value, the outcome comes to the engine, and the state is
published. -/
def settlement (j k : Nat) (token : Token) (v : String) : List Event :=
  [.access (.fetched j (.ok token)), .access (.requested k token),
    .access (.returned k (.request (.ok v))), .poller (.evaluated 0 v),
    .engine (.accepted (.outcome (.final v))), .engine (.published (.settled v))]

/-- A value has come so far on its way. -/
def Led (n : Nat) (v : String) (past : List Event) : Prop :=
  ∃ j k token, ((settlement j k token v).take n).Sublist past

namespace Led

variable {n : Nat} {v : String}

theorem append (h : Led n v past) (events : List Event) : Led n v (past ++ events) := by
  obtain ⟨j, k, token, hsub⟩ := h
  exact ⟨j, k, token, hsub.trans (List.sublist_append_left past events)⟩

theorem next (h : Led n v past) {event : Event}
    (hevent : ∀ j k token, (settlement j k token v).take (n + 1) =
      (settlement j k token v).take n ++ [event]) (hmem : event ∈ events) :
    Led (n + 1) v (past ++ events) := by
  obtain ⟨j, k, token, hsub⟩ := h
  refine ⟨j, k, token, ?_⟩
  rw [hevent]
  exact hsub.append (List.singleton_sublist.mpr hmem)

theorem answered {k : Nat} {token : Token} (hs : t.access.Sourced (accessIn past))
    (hrequesting : t.access.stage? k = some (.requesting token)) :
    Led 3 v (past ++ [.access (.returned k (.request (.ok v)))]) := by
  obtain ⟨j, hsub⟩ := hs.used k token hrequesting
  refine ⟨j, k, token, ?_⟩
  exact ((hsub.map Event.access).trans (map_accessIn_sublist past)).append (List.Sublist.refl _)

end Led

/-! ### The only session -/

/-- The poller has one session, which has the budget of the plan. -/
structure Alone (plan : Plan) (p : Poller RequestError String) (s : Session RequestError String) :
    Prop where
  sessions : ∃ signal, p.sessions = [{ signal, session := s }]
  budget : s.budget = max 1 plan.retries

namespace Alone

variable {p q : Poller RequestError String} {s : Session RequestError String}

theorem congr (h : Alone plan p s) (hq : q.sessions = p.sessions) : Alone plan q s where
  sessions := hq ▸ h.sessions
  budget := h.budget

theorem start (hp : p.sessions = []) (interval : Duration) :
    Alone plan (p.start interval plan.retries) (.start interval plan.retries) where
  sessions := ⟨p.register.registered, by rw [Poller.sessions_start, hp, List.nil_append]⟩
  budget := rfl

theorem stage? (h : Alone plan p s) : p.stage? 0 = some s.stage := by
  obtain ⟨signal, hp⟩ := h.sessions
  rw [Poller.stage?, Poller.session?, hp]
  rfl

/-- The session moves. -/
theorem acted (h : Alone plan p s) {act : Poll.Act RequestError String}
    {move : Bool → Session RequestError String →
      Session RequestError String × List (Poll.Event RequestError String)}
    (hmove : Session.IsMove plan.terms p.now 0 act move) :
    ∃ after, Session.Acted plan.terms p.now 0 (p.isCancelled 0) s act after ∧
      Alone plan (p.onSession 0 move).1 after.1 ∧ (p.onSession 0 move).2 = after.2 := by
  obtain ⟨signal, hp⟩ := h.sessions
  have hcancelled : p.isCancelled 0 = p.raised signal := by
    rw [Poller.isCancelled, hp]
    rfl
  have hacted := hmove (p.raised signal) s
  refine ⟨move (p.raised signal) s, hcancelled ▸ hacted, ?_⟩
  rw [Poller.onSession, hp]
  exact ⟨⟨⟨signal, rfl⟩, hacted.counted.budget.trans h.budget⟩, rfl⟩

end Alone

/-- There is one session at most, and it has the budget of the plan. -/
structure Few (plan : Plan) (p : Poller RequestError String) : Prop where
  single : p.sessions.length ≤ 1
  budget : ∀ m ∈ p.sessions, m.session.budget = max 1 plan.retries

theorem Few.of_nil {p : Poller RequestError String} (h : p.sessions = []) : Few plan p where
  single := by
    rw [h]
    exact Nat.zero_le 1
  budget m hm := by
    rw [h] at hm
    cases hm

theorem Few.congr {p q : Poller RequestError String} (h : Few plan p) (hq : q.sessions = p.sessions) :
    Few plan q where
  single := hq ▸ h.single
  budget := hq ▸ h.budget

theorem Alone.few {p : Poller RequestError String} {s : Session RequestError String}
    (h : Alone plan p s) : Few plan p := by
  obtain ⟨signal, hp⟩ := h.sessions
  refine ⟨by rw [hp]; exact Nat.le_refl 1, fun m hm => ?_⟩
  rw [hp] at hm
  rw [List.mem_singleton.mp hm]
  exact h.budget

theorem Few.drop {p : Poller RequestError String} (h : Few plan p) (i : Nat) :
    Few plan (p.step plan.terms (.drop i)).1 := by
  show Few plan (p.onSession i fun _ => Session.drop i).1
  unfold Poller.onSession
  cases hm : p.sessions[i]? with
  | none => exact h
  | some m =>
    refine ⟨Nat.le_trans (Nat.le_of_eq List.length_set) h.single, fun n hn => ?_⟩
    rcases List.mem_or_eq_of_mem_set hn with hn | rfl
    · exact h.budget n hn
    · have hdropped := (Session.isMove_drop plan.terms p.now i (p.raised m.signal) m.session).counted
      exact hdropped.budget.trans (h.budget m (List.mem_of_getElem? hm))

/-- The session in this stage may still come to an outcome, and if it has come to a final value, this has
come by its way. -/
def Promising (plan : Plan) (past : List Event) : Poll.Stage RequestError String → Prop
  | .matching v => Harmless past ∧ Led 3 v past
  | .ended (.ok o) => Harmless past ∧ ∀ v, o = .final v → plan.terms.accepts v = true ∧ Led 4 v past
  | .ended (.error _) => True
  | .opening | .fetching | .waiting _ _ | .cleared _ _ | .dropped => Harmless past


namespace Promising

variable {s : Session RequestError String}

theorem append {stage : Poll.Stage RequestError String} (h : Promising plan past stage)
    (hev : Harmless events) : Promising plan (past ++ events) stage := by
  cases stage with
  | matching v => exact ⟨h.1.append hev, h.2.append events⟩
  | ended result =>
    cases result with
    | ok o => exact ⟨h.1.append hev, fun v hv => (h.2 v hv).imp_right fun hled => hled.append events⟩
    | error e => trivial
  | opening | fetching | waiting | cleared | dropped => exact Harmless.append h hev

/-- What the session does by itself. -/
theorem acted (h : Promising plan past s.stage) {now : Duration} {raised : Bool}
    {act : Poll.Act RequestError String}
    {after : Session RequestError String × List (Poll.Event RequestError String)}
    (ha : Session.Acted plan.terms now 0 raised s act after)
    (hact : act = .proceed 0 ∨ act = .matched 0 ∨ act = .look 0) :
    Promising plan (past ++ after.2.map .poller) after.1.stage := by
  have hev : Harmless (after.2.map .poller) := by
    refine poller_harmless (ha.unfailed ?_)
    rcases hact with rfl | rfl | rfl <;> exact nofun
  cases ha with
  | still => exact h.append hev
  | opened hs =>
    rw [hs] at h
    exact Harmless.append h hev
  | resumed value due hs | early value due hs | clears value due hs =>
    rw [hs] at h
    exact Harmless.append h hev
  | concluded value o hs hv =>
    rw [hs] at h
    refine ⟨h.1.append hev, ?_⟩
    rintro v rfl
    have haccepts : plan.terms.accepts value = true ∧ value = v := by
      unfold Session.verdict at hv
      split at hv
      · exact ⟨‹_›, by cases hv; rfl⟩
      · split at hv <;> cases hv
    obtain ⟨haccepts, rfl⟩ := haccepts
    exact ⟨haccepts, h.2.next (fun _ _ _ => rfl) (by simp)⟩
  | waits value hs =>
    rw [hs] at h
    exact h.1.append hev
  | halted value due hs =>
    rw [hs] at h
    exact ⟨Harmless.append h hev, nofun⟩
  | failed | noticed | asks | dropped => simp at hact

/-- What the session makes of its check. -/
theorem fetched (hs : s.stage = .fetching) {result : Except RequestError String}
    (hv : ∀ v, result = .ok v → Harmless past ∧ Led 3 v past) {now : Duration} {raised : Bool}
    {after : Session RequestError String × List (Poll.Event RequestError String)}
    (ha : Session.Acted plan.terms now 0 raised s (.fetched 0 result) after) :
    Promising plan (past ++ after.2.map .poller) after.1.stage := by
  cases ha with
  | still h => simp [hs, Poll.Stage.takes] at h
  | failed e => trivial
  | noticed v =>
    refine ⟨(hv v rfl).1.append fun event hmem => ?_, fun w hw => ?_⟩
    · rw [List.mem_singleton.mp hmem]
      rfl
    · cases hw
  | asks v =>
    exact ⟨(hv v rfl).1.append fun _ hmem => absurd hmem List.not_mem_nil, (hv v rfl).2.append _⟩

end Promising

/-! ### How far a transfer has come -/

theorem onEngine_stages (t : Transfer) (act : Engine.Threads.Act Intent) :
    (t.onEngine act).1.stages =
      t.stages ++ (launchesIn (t.engine.step setup act).2).map fun _ => .launched := by
  unfold onEngine launchesIn
  rw [List.map_filterMap]
  refine congrArg (t.stages ++ List.filterMap · _) (funext fun event => ?_)
  cases event <;> rfl

/-- Where the only effect stands, for the engine and for itself. -/
structure Stands (life : Life) (stage : Stage) (t : Transfer) : Prop where
  effects : t.engine.effects = [life]
  stages : t.stages = [stage]

namespace Stands

variable {life : Life} {stage : Stage}

theorem life? (h : Stands life stage t) : t.engine.effects[0]? = some life := by
  rw [h.effects]
  rfl

theorem other (h : Stands life stage t) (id : Nat) : t.engine.effects[id + 1]? = none := by
  rw [h.effects]
  rfl

theorem stage_eq (h : Stands life stage t) : t.stage 0 = stage := by
  rw [Transfer.stage, h.stages]
  rfl

theorem unique {life' : Life} {stage' : Stage} (h : Stands life stage t) (h' : Stands life' stage' t) :
    life = life' ∧ stage = stage' :=
  ⟨(List.cons.inj (h.effects.symm.trans h'.effects)).1, (List.cons.inj (h.stages.symm.trans h'.stages)).1⟩

theorem congr {t' : Transfer} (h : Stands life stage t) (heffects : t'.engine.effects = t.engine.effects)
    (hstages : t'.stages = t.stages) : Stands life stage t' where
  effects := heffects.trans h.effects
  stages := hstages.trans h.stages

end Stands

/-- The effect is at work. -/
def Life.isAtWork : Life → Bool
  | .resting | .polled => true
  | .dropping | .ended _ => false

/-- How far the effect of a transfer has come, and which outcomes the engine has accepted by then. -/
inductive Phase (plan : Plan) (t : Transfer) (past : List Event) : List (Poll.Outcome String) → Prop
  | before (heffects : t.engine.effects = []) (hstages : t.stages = [])
      (hsessions : t.poller.sessions = []) (hpast : Harmless past) : Phase plan t past []
  | launched (life : Life) (hat : Stands life .launched t) (hlife : Life.isAtWork life = true)
      (hsessions : t.poller.sessions = []) (hpast : Harmless past) : Phase plan t past []
  /-- The session is on its way. -/
  | polling (life : Life) (s : Session RequestError String) (hat : Stands life (.polling 0) t)
      (hlife : Life.isAtWork life = true) (hs : Alone plan t.poller s)
      (hpast : Promising plan past s.stage) : Phase plan t past []
  /-- A check waits for its token or for its answer. -/
  | checking (life : Life) (k : Nat) (stage : Auth.Stage String RequestError String)
      (s : Session RequestError String) (hat : Stands life (.checking 0 k none) t)
      (hlife : Life.isAtWork life = true) (hs : Alone plan t.poller s) (hfetching : s.stage = .fetching)
      (hcaller : t.access.callers[k]? = some { purpose := .request 0, stage })
      (hstage : stage.isUnderWay = true) (hpast : Harmless past) : Phase plan t past []
  /-- A check is over. -/
  | checked (life : Life) (result : Except RequestError String) (s : Session RequestError String)
      (hat : Stands life (.checked 0 result) t) (hlife : Life.isAtWork life = true)
      (hs : Alone plan t.poller s) (hfetching : s.stage = .fetching)
      (hpast : ∀ v, result = .ok v → Harmless past ∧ Led 3 v past) : Phase plan t past []
  /-- The engine has taken the outcome. -/
  | told (life : Life) (o : Poll.Outcome String) (hat : Stands life .ended t) (hs : Few plan t.poller)
      (hpast : Harmless past) (hled : ∀ v, o = .final v → plan.terms.accepts v = true ∧ Led 5 v past) :
      Phase plan t past [o]
  /-- No outcome will come any more: a check has failed, there was a teardown, or the worker had ended. -/
  | silent (life : Life) (stage : Stage) (hat : Stands life stage t) (hs : Few plan t.poller)
      (hover : stage = .ended ∨ life = .dropping) : Phase plan t past []

namespace Phase

variable {t' : Transfer} {os : List (Poll.Outcome String)}

theorem few (h : Phase plan t past os) : Few plan t.poller := by
  cases h with
  | before _ _ hsessions => exact .of_nil hsessions
  | launched _ _ _ hsessions => exact .of_nil hsessions
  | polling _ _ _ _ hs => exact hs.few
  | checking _ _ _ _ _ _ hs => exact hs.few
  | checked _ _ _ _ _ hs => exact hs.few
  | told _ _ _ hs => exact hs
  | silent _ _ _ hs => exact hs

theorem congr (h : Phase plan t past os) (heffects : t'.engine.effects = t.engine.effects)
    (hstages : t'.stages = t.stages) (hsessions : t'.poller.sessions = t.poller.sessions)
    (hcallers : t'.access.callers = t.access.callers) (hev : Harmless events) :
    Phase plan t' (past ++ events) os := by
  have stands : ∀ {life stage}, Stands life stage t → Stands life stage t' := fun hat =>
    hat.congr heffects hstages
  cases h with
  | before he hst hse hpast =>
    exact .before (heffects.trans he) (hstages.trans hst) (hsessions.trans hse) (hpast.append hev)
  | launched life hat hlife hse hpast =>
    exact .launched life (stands hat) hlife (hsessions.trans hse) (hpast.append hev)
  | polling life s hat hlife hs hpast =>
    exact .polling life s (stands hat) hlife (hs.congr hsessions) (hpast.append hev)
  | checking life k stage s hat hlife hs hfetching hcaller hstage hpast =>
    exact .checking life k stage s (stands hat) hlife (hs.congr hsessions) hfetching (hcallers ▸ hcaller)
      hstage (hpast.append hev)
  | checked life result s hat hlife hs hfetching hpast =>
    refine .checked life result s (stands hat) hlife (hs.congr hsessions) hfetching fun v hv => ?_
    exact ⟨(hpast v hv).1.append hev, (hpast v hv).2.append events⟩
  | told life o hat hs hpast hled =>
    refine .told life o (stands hat) (hs.congr hsessions) (hpast.append hev) fun v hv => ?_
    exact (hled v hv).imp_right fun hled => hled.append events
  | silent life stage hat hs hover => exact .silent life stage (stands hat) (hs.congr hsessions) hover

/-- Only the life of the effect has changed. If it is being dropped now, no outcome will come any more. -/
theorem relive (h : Phase plan t past os) {old new : Life} {stage : Stage} (hold : Stands old stage t)
    (hnew : Stands new stage t') (hdropping : old = .dropping → stage = .ended)
    (hlife : Life.isAtWork new = true ∨ new = .dropping ∨ stage = .ended)
    (hsessions : t'.poller.sessions = t.poller.sessions)
    (hcallers : t'.access.callers = t.access.callers) (hev : Harmless events) :
    Phase plan t' (past ++ events) os := by
  have hended : stage = .ended ∨ new = .dropping → Few plan t.poller → Phase plan t' (past ++ events) [] :=
    fun hover hfew => .silent new stage hnew (hfew.congr hsessions) hover
  cases h with
  | before he => exact absurd (he.symm.trans hold.effects) nofun
  | launched life hat _ hse hpast =>
    obtain ⟨rfl, rfl⟩ := hat.unique hold
    rcases hlife with hlife | hover | hover
    · exact .launched new hnew hlife (hsessions.trans hse) (hpast.append hev)
    · exact hended (Or.inr hover) (.of_nil hse)
    · cases hover
  | polling life s hat _ hs hpast =>
    obtain ⟨rfl, rfl⟩ := hat.unique hold
    rcases hlife with hlife | hover | hover
    · exact .polling new s hnew hlife (hs.congr hsessions) (hpast.append hev)
    · exact hended (Or.inr hover) hs.few
    · cases hover
  | checking life k st s hat _ hs hfetching hcaller hstage hpast =>
    obtain ⟨rfl, rfl⟩ := hat.unique hold
    rcases hlife with hlife | hover | hover
    · exact .checking new k st s hnew hlife (hs.congr hsessions) hfetching (hcallers ▸ hcaller) hstage
        (hpast.append hev)
    · exact hended (Or.inr hover) hs.few
    · cases hover
  | checked life result s hat _ hs hfetching hpast =>
    obtain ⟨rfl, rfl⟩ := hat.unique hold
    rcases hlife with hlife | hover | hover
    · refine .checked new result s hnew hlife (hs.congr hsessions) hfetching fun v hv => ?_
      exact ⟨(hpast v hv).1.append hev, (hpast v hv).2.append events⟩
    · exact hended (Or.inr hover) hs.few
    · cases hover
  | told life o hat hs hpast hled =>
    obtain ⟨rfl, rfl⟩ := hat.unique hold
    refine .told new o hnew (hs.congr hsessions) (hpast.append hev) fun v hv => ?_
    exact (hled v hv).imp_right fun hled => hled.append events
  | silent life st hat hs hover =>
    obtain ⟨rfl, rfl⟩ := hat.unique hold
    exact hended (Or.inl (hover.elim id hdropping)) hs

end Phase

/-- A transfer on its course. -/
structure OnCourse (plan : Plan) (t : Transfer) (past : List Event) : Prop where
  path : ∃ m r, Path m r t.engine (engineIn past)
  phase : Phase plan t past (outcomesIn (engineIn past))
  settled : ∀ v, State.settled v ∈ publishedIn (engineIn past) →
    plan.terms.accepts v = true ∧ Led 6 v past

end IntentLoop.Transfer
