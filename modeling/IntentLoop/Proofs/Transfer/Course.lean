import IntentLoop.Proofs.Transfer.Phase
/-!
# The course of a transfer

Where an effect looks up no rates and tells no failures, a transfer that nobody resets stays on its course
(`OnCourse.step`, `onCourse_run`), whoever acts at which moment. The worker goes its way (`OnCourse.work`),
and the effect is taken in and out of polls (`OnCourse.look`, `OnCourse.leave`). While it is being polled,
each move of it is followed from one part to the next: what the executor makes of the caller of a check
(`Polled.request`), what the session makes of the value or the error (`Polled.deliver`) and does by itself
(`Polled.session`), and what the effect then tells the engine (`Polled.conclude`).

What this comes to for those outside is `transfer_course`.
-/

namespace IntentLoop.Transfer

open IntentLoop.Auth (RequestError Access Token)
open IntentLoop.Poll (Poller Session)
open Engine (launchesIn publishedIn Life)

variable {plan : Plan} {t : Transfer} {past events : List Event}

namespace OnCourse

theorem start (plan : Plan) (wallClock : Timestamp) : OnCourse plan (new plan wallClock) [] where
  path := ⟨.idle, .idle, .start⟩
  phase := .before rfl rfl rfl nofun
  settled := nofun

theorem beside (h : OnCourse plan t past) {t' : Transfer} (hengine : t'.engine = t.engine)
    (hnone : engineIn events = [])
    (hphase : Phase plan t' (past ++ events) (outcomesIn (engineIn past))) :
    OnCourse plan t' (past ++ events) := by
  have hsame : engineIn (past ++ events) = engineIn past := by
    rw [engineIn_append, hnone, List.append_nil]
  refine ⟨?_, ?_, fun v hv => ?_⟩
  · rw [hsame, hengine]
    exact h.path
  · rw [hsame]
    exact hphase
  · rw [hsame] at hv
    exact (h.settled v hv).imp_right fun hled => hled.append events

theorem nothing (h : OnCourse plan t past) : OnCourse plan (t, ([] : List Event)).1 (past ++ []) := by
  rw [List.append_nil]
  exact h

/-- An act of the engine that is not the worker's. -/
theorem apart (h : OnCourse plan t past) {t₀ : Transfer} (hengine : t₀.engine = t.engine)
    {act : Engine.Threads.Act Intent} (hact : act ≠ .work)
    (husual : ∀ i, act.intent? = some i → i.isUsual = true)
    (hphase : Phase plan (t₀.onEngine act).1 (past ++ (t₀.onEngine act).2)
      (outcomesIn (engineIn past) ++ outcomesIn (t₀.engine.step setup act).2)) :
    OnCourse plan (t₀.onEngine act).1 (past ++ (t₀.onEngine act).2) := by
  obtain ⟨m, r, hpath⟩ := h.path
  have hall : engineIn (past ++ (t₀.onEngine act).2) =
      engineIn past ++ (t₀.engine.step setup act).2 := by
    rw [engineIn_append, onEngine, engineIn_engine]
  rw [← hengine] at hpath
  refine ⟨⟨m, r, ?_⟩, ?_, fun v hv => ?_⟩
  · rw [hall]
    exact hpath.apart hact husual
  · rw [hall, outcomesIn_append]
    exact hphase
  · have haside := Engine.Threads.step_aside setup t₀.engine hact
    rw [hall, Engine.publishedIn_append, (Plain.of_workless haside.workless).publishedIn,
      List.append_nil] at hv
    exact (h.settled v hv).imp_right fun hled => hled.append _

theorem aside (h : OnCourse plan t past) {act : Engine.Threads.Act Intent} (hact : act ≠ .work)
    (husual : ∀ i, act.intent? = some i → i = .submit)
    (heffects : (t.engine.step setup act).1.effects = t.engine.effects) :
    OnCourse plan (t.onEngine act).1 (past ++ (t.onEngine act).2) := by
  refine h.apart rfl hact (fun i hi => husual i hi ▸ rfl) ?_
  rw [outcomesIn_step t.engine fun o ho => absurd (husual _ ho) nofun, List.append_nil]
  refine h.phase.congr heffects ?_ rfl rfl (onEngine_harmless t act)
  have haside := Engine.Threads.step_aside setup t.engine hact
  rw [onEngine_stages, Engine.launchesIn_of_workless haside.workless]
  exact List.append_nil _

theorem work (h : OnCourse plan t past) :
    OnCourse plan (t.onEngine .work).1 (past ++ (t.onEngine .work).2) := by
  obtain ⟨m, r, hpath⟩ := h.path
  obtain ⟨⟨m', r', hnext⟩, hlaunch⟩ := hpath.work
  have hall : engineIn (past ++ (t.onEngine .work).2) =
      engineIn past ++ (t.engine.step setup .work).2 := by
    rw [engineIn_append, onEngine, engineIn_engine]
  have houtcomes : outcomesIn (engineIn (past ++ (t.onEngine .work).2)) = outcomesIn (engineIn past) := by
    rw [hall, outcomesIn_append, outcomesIn_step t.engine (by rintro o ⟨⟩), List.append_nil]
  have hev := onEngine_harmless t .work
  have hphase : Phase plan (t.onEngine .work).1 (past ++ (t.onEngine .work).2)
      (outcomesIn (engineIn past)) := by
    cases hlaunch with
    | nothing heffects hlaunches =>
      refine h.phase.congr heffects ?_ rfl rfl hev
      rw [onEngine_stages]
      show t.stages ++ (launchesIn (t.engine.work setup).2).map _ = t.stages
      rw [hlaunches]
      exact List.append_nil _
    | effect hbefore heffects hlaunches =>
      have hphase := h.phase
      generalize outcomesIn (engineIn past) = os at hphase ⊢
      cases hphase with
      | before _ hst hse hpast =>
        refine .launched .resting ⟨heffects, ?_⟩ rfl hse (hpast.append hev)
        rw [onEngine_stages, hst]
        show [] ++ (launchesIn (t.engine.work setup).2).map _ = _
        rw [hlaunches]
        rfl
      | launched _ hat | polling _ _ hat | checking _ _ _ _ hat | checked _ _ _ hat | told _ _ hat
      | silent _ _ hat => exact absurd (hat.effects.symm.trans hbefore) (List.cons_ne_nil _ _)
  refine ⟨⟨m', r', ?_⟩, houtcomes ▸ hphase, fun v hv => ?_⟩
  · rw [hall]
    exact hnext
  · rw [hall, Engine.publishedIn_append] at hv
    rcases List.mem_append.mp hv with hold | hnew
    · exact (h.settled v hold).imp_right fun hled => hled.append _
    · -- a settled state is that of an outcome which was accepted before
      have hled : plan.terms.accepts v = true ∧ Led 5 v past := by
        have hmem : .final v ∈ outcomesIn (engineIn past) := by
          rw [← houtcomes, hall]
          refine hnext.accepted ?_
          rw [Engine.publishedIn_append]
          exact List.mem_append_right _ hnew
        have hphase := h.phase
        generalize outcomesIn (engineIn past) = os at hphase hmem
        cases hphase with
        | told life o _ _ _ hled => exact hled v (List.mem_singleton.mp hmem).symm
        | before | launched | polling | checking | checked | silent => cases hmem
      refine ⟨hled.1, hled.2.next (fun _ _ _ => rfl) ?_⟩
      exact List.mem_map_of_mem (published_of_mem_publishedIn hnew)

/-! ### In and out of polls -/

/-- An act that changes nothing but the life of the only effect. -/
theorem relive (h : OnCourse plan t past) {act : Engine.Threads.Act Intent} (hact : act ≠ .work)
    (hnone : act.intent? = none) {old new : Life} {stage : Stage} (hold : Stands old stage t)
    (hnew : (t.engine.step setup act).1.effects = [new]) (hdropping : old = .dropping → stage = .ended)
    (hlife : Life.isAtWork new = true ∨ new = .dropping ∨ stage = .ended) :
    OnCourse plan (t.onEngine act).1 (past ++ (t.onEngine act).2) := by
  have haside := Engine.Threads.step_aside setup t.engine hact
  refine h.apart rfl hact (by rw [hnone]; nofun) ?_
  rw [outcomesIn_step t.engine (by rw [hnone]; nofun), List.append_nil]
  refine h.phase.relive hold ⟨hnew, ?_⟩ hdropping hlife rfl rfl (onEngine_harmless t act)
  rw [onEngine_stages, Engine.launchesIn_of_workless haside.workless]
  exact (List.append_nil _).trans hold.stages

theorem stands (h : OnCourse plan t past) {id : Nat} {life : Life}
    (hl : t.engine.effects[id]? = some life) : id = 0 ∧ ∃ stage, Stands life stage t := by
  have hat : ∃ life stage, Stands life stage t := by
    have hphase := h.phase
    generalize outcomesIn (engineIn past) = os at hphase
    cases hphase with
    | before he =>
      rw [he] at hl
      cases hl
    | launched _ hat | polling _ _ hat | checking _ _ _ _ hat | checked _ _ _ hat | told _ _ hat
    | silent _ _ hat => exact ⟨_, _, hat⟩
  obtain ⟨life', stage, hat⟩ := hat
  cases id with
  | zero =>
    rw [hat.life?] at hl
    cases hl
    exact ⟨rfl, stage, hat⟩
  | succ id =>
    rw [hat.other] at hl
    cases hl

theorem look (h : OnCourse plan t past) (id : Nat) :
    OnCourse plan (t.onEngine (.look id)).1 (past ++ (t.onEngine (.look id)).2) := by
  by_cases hresting : t.engine.effects[id]? = some .resting
  · obtain ⟨rfl, stage, hat⟩ := h.stands hresting
    have hlook : (t.engine.step setup (.look 0)).1.effects =
        [if t.engine.isSignalled 0 then .dropping else .polled] := by
      show (t.engine.look 0).1.effects = _
      unfold Engine.Threads.look
      rw [hresting]
      show t.engine.effects.set 0 _ = _
      rw [hat.effects]
      rfl
    refine h.relive nofun rfl hat hlook nofun ?_
    cases t.engine.isSignalled 0 with
    | true => exact Or.inr (Or.inl rfl)
    | false => exact Or.inl rfl
  · have hlook : t.engine.look id = (t.engine, []) := by
      unfold Engine.Threads.look
      split
      · exact absurd ‹_› hresting
      · rfl
    exact h.aside nofun nofun (congrArg (·.1.effects) hlook)

theorem abandon (h : OnCourse plan t past) {stage : Stage} (hat : Stands .dropping stage t)
    (hstage : stage ≠ .ended) :
    OnCourse plan (t.abandon plan 0 stage).1 (past ++ (t.abandon plan 0 stage).2) := by
  have hos : outcomesIn (engineIn past) = [] := by
    have hphase := h.phase
    generalize outcomesIn (engineIn past) = os at hphase ⊢
    cases hphase with
    | told _ _ hat' => exact absurd (hat.unique hat').2 hstage
    | before | launched | polling | checking | checked | silent => rfl
  have hfew := h.phase.few
  have hgone : ∀ {t' : Transfer} {events : List Event} {stage' : Stage}, t'.engine = t.engine →
      t'.stages = t.stages.set 0 stage' → Few plan t'.poller → engineIn events = [] →
      OnCourse plan t' (past ++ events) := by
    intro t' events stage' hengine hstages hfew' hnone
    refine h.beside hengine hnone ?_
    rw [hos]
    refine .silent .dropping stage' ⟨(congrArg _ hengine).trans hat.effects, ?_⟩ hfew' (Or.inr rfl)
    rw [hstages, hat.stages]
    rfl
  cases stage with
  | ended => exact absurd rfl hstage
  | launched => exact hgone rfl rfl hfew rfl
  | rating session caller => exact hgone rfl rfl hfew (engineIn_rates _)
  | checking session caller rate => exact hgone rfl rfl hfew (engineIn_access _)
  | polling session => exact hgone rfl rfl (hfew.drop session) (engineIn_poller _)
  | rated session rate => exact hgone rfl rfl (hfew.drop session) (engineIn_poller _)
  | checked session result => exact hgone rfl rfl (hfew.drop session) (engineIn_poller _)

theorem leave (h : OnCourse plan t past) (id : Nat) :
    OnCourse plan (t.leave plan id).1 (past ++ (t.leave plan id).2) := by
  unfold Transfer.leave
  cases hl : t.engine.effects[id]? with
  | none => exact h.nothing
  | some life =>
    obtain ⟨rfl, stage, hat⟩ := h.stands hl
    have hset : ∀ new, t.engine.effects.set 0 new = [new] := by
      intro new
      rw [hat.effects]
      rfl
    cases life with
    | resting | ended => exact h.nothing
    | polled =>
      dsimp only
      rw [hat.stage_eq]
      by_cases hstage : stage = .ended
      · have hleave : (t.engine.step setup (.leave 0 stage.exit)).1.effects = [.ended .completed] := by
          rw [hstage]
          show (t.engine.leave 0 .completes).1.effects = _
          unfold Engine.Threads.leave
          rw [hl]
          exact hset _
        exact h.relive nofun rfl hat hleave nofun (Or.inr (Or.inr hstage))
      · have hleave : (t.engine.step setup (.leave 0 stage.exit)).1.effects = [.resting] := by
          have hexit : stage.exit = .waits := by
            cases stage <;> first | rfl | exact absurd rfl hstage
          rw [hexit]
          show (t.engine.leave 0 .waits).1.effects = _
          unfold Engine.Threads.leave
          rw [hl]
          exact hset _
        exact h.relive nofun rfl hat hleave nofun (Or.inl rfl)
    | dropping =>
      dsimp only
      rw [hat.stage_eq]
      split
      · rename_i hstage
        have hleave : (t.engine.step setup (.leave 0 .waits)).1.effects = [.ended .cancelled] := by
          show (t.engine.leave 0 .waits).1.effects = _
          unfold Engine.Threads.leave
          rw [hl]
          exact hset _
        exact h.relive nofun rfl hat hleave (fun _ => hstage) (Or.inr (Or.inr hstage))
      · exact h.abandon hat ‹_›

end OnCourse

/-! ### The effect at work -/

/-- The effect is being polled, and has told nothing. -/
structure Polled (plan : Plan) (stage : Stage) (t : Transfer) (past : List Event) : Prop where
  course : OnCourse plan t past
  untold : outcomesIn (engineIn past) = []
  stands : Stands .polled stage t

namespace Polled

variable {stage : Stage} {s : Session RequestError String}

theorem goes (h : Polled plan stage t past) {t' : Transfer} (hengine : t'.engine = t.engine)
    (hnone : engineIn events = []) (hphase : Phase plan t' (past ++ events) []) :
    OnCourse plan t' (past ++ events) :=
  h.course.beside hengine hnone (h.untold ▸ hphase)

theorem toStage (h : Polled plan stage t past) {t' : Transfer} {stage' : Stage}
    (hengine : t'.engine = t.engine) (hstages : t'.stages = t.stages.set 0 stage') :
    Stands .polled stage' t' where
  effects := (congrArg _ hengine).trans h.stands.effects
  stages := by
    rw [hstages, h.stands.stages]
    rfl

theorem start (h : Polled plan .launched t past) (hsessions : t.poller.sessions = [])
    (hpast : Harmless past) :
    OnCourse plan (t.start plan 0).1 (past ++ (t.start plan 0).2) := by
  have hstart : t.start plan 0 =
      ((t.onPoller plan (.start plan.interval plan.retries)).1.setStage 0 (.polling 0),
        (t.onPoller plan (.start plan.interval plan.retries)).2) := by
    unfold Transfer.start
    rw [hsessions]
    rfl
  have hev : Harmless (t.onPoller plan (.start plan.interval plan.retries)).2 := onPoller_harmless t nofun
  rw [hstart]
  refine h.goes rfl (engineIn_poller _) ?_
  exact .polling .polled (.start plan.interval plan.retries) (h.toStage rfl rfl) rfl
    (Alone.start hsessions plan.interval) (hpast.append hev)

theorem session (h : Polled plan (.polling 0) t past) (hs : Alone plan t.poller s)
    (hpast : Promising plan past s.stage) {act : Poll.Act RequestError String}
    (hact : act = .proceed 0 ∨ act = .matched 0 ∨ act = .look 0) :
    OnCourse plan (t.onPoller plan act).1 (past ++ (t.onPoller plan act).2) := by
  have goes : ∀ {move : Bool → Session RequestError String →
        Session RequestError String × List (Poll.Event RequestError String)},
      Session.IsMove plan.terms t.poller.now 0 act move →
      t.poller.step plan.terms act = t.poller.onSession 0 move →
      OnCourse plan (t.onPoller plan act).1 (past ++ (t.onPoller plan act).2) := by
    intro move hmove hstep
    obtain ⟨after, hacted, halone, hevents⟩ := hs.acted hmove
    rw [← hstep] at halone hevents
    refine h.goes rfl (engineIn_poller _) (.polling .polled after.1 ?_ rfl halone ?_)
    · exact h.stands.congr rfl rfl
    · show Promising plan (past ++ (t.poller.step plan.terms act).2.map .poller) _
      rw [hevents]
      exact hpast.acted hacted hact
  rcases hact with rfl | rfl | rfl
  · exact goes (Session.isMove_proceed plan.terms t.poller.now 0) rfl
  · exact goes (Session.isMove_matched plan.terms t.poller.now 0) rfl
  · exact goes (Session.isMove_look plan.terms t.poller.now 0) rfl

theorem deliver {result : Except RequestError String} (h : Polled plan (.checked 0 result) t past)
    (hs : Alone plan t.poller s) (hfetching : s.stage = .fetching)
    (hpast : ∀ v, result = .ok v → Harmless past ∧ Led 3 v past) :
    OnCourse plan (t.deliver plan 0 0 result).1 (past ++ (t.deliver plan 0 0 result).2) := by
  obtain ⟨after, hacted, halone, hevents⟩ :=
    hs.acted (Session.isMove_fetched plan.terms t.poller.now 0 result)
  refine h.goes rfl (engineIn_poller _) (.polling .polled after.1 (h.toStage rfl rfl) rfl halone ?_)
  have hfetched := Promising.fetched hfetching hpast hacted
  rw [← hevents] at hfetched
  exact hfetched

/-- An act of the caller of a check, and where that takes the check. -/
theorem request (h : Polled plan stage t past) (hs : Alone plan t.poller s)
    (hfetching : s.stage = .fetching) (hpast : Harmless past)
    (hsourced : t.access.Sourced (accessIn past)) {k : Nat}
    {act : Access.Act String RequestError String}
    (hadvance : Access.Advance 0 k t.access (t.access.step plan.family act)) :
    OnCourse plan (t.request plan 0 0 k none act).1 (past ++ (t.request plan 0 0 k none act).2) := by
  have hnone : engineIn (t.onAccess plan act).2 = [] := engineIn_access _
  -- the check is over
  have hdone : ∀ {result : Except RequestError String},
      (t.onAccess plan act).1.access.stage? k = some (.returned (.request result)) →
      (∀ v, result = .ok v → Harmless (past ++ (t.onAccess plan act).2) ∧
        Led 3 v (past ++ (t.onAccess plan act).2)) →
      OnCourse plan (t.request plan 0 0 k none act).1 (past ++ (t.request plan 0 0 k none act).2) := by
    intro result hk hv
    have hrequest : t.request plan 0 0 k none act =
        ((t.onAccess plan act).1.setStage 0 (.checked 0 result), (t.onAccess plan act).2) := by
      unfold Transfer.request
      dsimp only
      rw [hk]
    rw [hrequest]
    exact h.goes rfl hnone (.checked .polled result s (h.toStage rfl rfl) rfl hs hfetching hv)
  cases hadvance with
  | waits stage hcaller hstage hfetched hreturned =>
    have hk : (t.onAccess plan act).1.access.stage? k = some stage :=
      Access.stage?_of_getElem? hcaller
    have hrequest : t.request plan 0 0 k none act =
        ((t.onAccess plan act).1.setStage 0 (.checking 0 k none), (t.onAccess plan act).2) := by
      unfold Transfer.request
      dsimp only
      rw [hk]
      cases stage with
      | queued | granted | fetching | requesting => rfl
      | returned | dropped => cases hstage
    rw [hrequest]
    refine h.goes rfl hnone (.checking .polled k stage s (h.toStage rfl rfl) rfl hs hfetching hcaller hstage
      (hpast.append fun event hmem => ?_))
    obtain ⟨told, htold, rfl⟩ := List.mem_map.mp hmem
    cases told with
    | fetched j result =>
      cases result with
      | ok token => rfl
      | error e => exact absurd htold (hfetched j e)
    | returned j result => exact absurd htold (hreturned j result)
    | began | fetch | obtained | requested | blocked | reported | dropped | invalidated => rfl
  | answered token v hbefore hstage hevents =>
    have htold : (t.onAccess plan act).2 = [.access (.returned k (.request (.ok v)))] :=
      congrArg (List.map Event.access) hevents
    refine hdone hstage fun w hw => ?_
    cases hw
    rw [htold]
    refine ⟨hpast.append fun event hmem => ?_, Led.answered hsourced hbefore⟩
    rw [List.mem_singleton.mp hmem]
    rfl
  | failed error hstage => exact hdone hstage nofun

/-- The session is over: the effect tells its outcome, which the engine takes or not, or has nothing to
tell. -/
theorem conclude (h : Polled plan (.polling 0) t past) (hplan : plan.tellsFailures = false)
    (hs : Alone plan t.poller s) {result : Except RequestError (Poll.Outcome String)}
    (hended : s.stage = .ended result) (hpast : Promising plan past s.stage) :
    OnCourse plan (t.conclude plan 0 result).1 (past ++ (t.conclude plan 0 result).2) := by
  rw [hended] at hpast
  cases result with
  | error e =>
    have hnothing : t.conclude plan 0 (.error e) = (t.setStage 0 .ended, []) := by
      simp [Transfer.conclude, Plan.told?, hplan]
    rw [hnothing]
    exact h.goes rfl rfl (.silent .polled .ended (h.toStage rfl rfl) hs.few (Or.inl rfl))
  | ok o =>
    obtain ⟨hharmless, hled⟩ := hpast
    have htold : t.conclude plan 0 (.ok o) = (t.setStage 0 .ended).onEngine (.send 0 (.outcome o)) := rfl
    have hsend : Engine.Threads.Act.send 0 (Intent.outcome o) ≠ .work := nofun
    have hengine : (t.setStage 0 .ended).engine = t.engine := rfl
    have hat : Stands .polled .ended ((t.setStage 0 .ended).onEngine (.send 0 (.outcome o))).1 := by
      have hset : Stands .polled .ended (t.setStage 0 .ended) := h.toStage rfl rfl
      have haside := Engine.Threads.step_aside setup t.engine hsend
      refine ⟨?_, ?_⟩
      · show (t.engine.send 0 (.outcome o)).1.effects = _
        rw [Engine.Threads.send_effects]
        exact h.stands.effects
      · rw [onEngine_stages, hset.stages]
        show [Stage.ended] ++ (launchesIn (t.engine.step setup (.send 0 (.outcome o))).2).map _ = _
        rw [Engine.launchesIn_of_workless haside.workless]
        rfl
    have hev := onEngine_harmless (t.setStage 0 .ended) (.send 0 (.outcome o))
    rw [htold]
    refine h.course.apart hengine hsend (fun i hi => by cases hi; rfl) ?_
    rw [h.untold, List.nil_append]
    rcases outcomesIn_send t.engine 0 o with hno | hone
    · have hno' : outcomesIn ((t.setStage 0 .ended).engine.step setup (.send 0 (.outcome o))).2 = [] := hno
      rw [hno']
      exact .silent .polled .ended hat hs.few (Or.inl rfl)
    · have hone' : outcomesIn ((t.setStage 0 .ended).engine.step setup (.send 0 (.outcome o))).2 = [o] :=
        hone
      have hmem : .accepted (.outcome o) ∈ (t.engine.step setup (.send 0 (.outcome o))).2 :=
        accepted_of_mem_outcomesIn (hone ▸ List.mem_singleton_self o)
      rw [hone']
      refine .told .polled o hat hs.few (hharmless.append hev) ?_
      rintro v rfl
      exact ⟨(hled v rfl).1, (hled v rfl).2.next (fun _ _ _ => rfl) (List.mem_map_of_mem hmem)⟩

theorem proceed (h : Polled plan (.polling 0) t past) (hrates : plan.rateTtl = none)
    (hplan : plan.tellsFailures = false) (hs : Alone plan t.poller s)
    (hpast : Promising plan past s.stage) (hsourced : t.access.Sourced (accessIn past)) :
    OnCourse plan (t.proceed plan 0 0).1 (past ++ (t.proceed plan 0 0).2) := by
  unfold Transfer.proceed
  rw [hs.stage?]
  cases hstage : s.stage with
  | opening | cleared => exact h.session hs hpast (Or.inl rfl)
  | matching => exact h.session hs hpast (Or.inr (Or.inl rfl))
  | waiting => exact h.session hs hpast (Or.inr (Or.inr rfl))
  | ended result => exact h.conclude hplan hs hstage hpast
  | dropped => exact h.course.nothing
  | fetching =>
    have hcheck : t.check plan 0 0 =
        t.request plan 0 0 t.access.callers.length none (.begin (.request 0)) := by
      unfold Transfer.check
      rw [hrates]
      rfl
    dsimp only
    rw [hcheck]
    rw [hstage] at hpast
    exact h.request hs hstage hpast hsourced (Access.begin_advance 0 t.access)

end Polled

namespace OnCourse

theorem moveEffect (h : OnCourse plan t past) (hrates : plan.rateTtl = none)
    (hplan : plan.tellsFailures = false) (hsourced : t.access.Sourced (accessIn past)) (id : Nat)
    (m : Move) :
    OnCourse plan (t.moveEffect plan id m).1 (past ++ (t.moveEffect plan id m).2) := by
  by_cases hpolled : t.engine.effects[id]? = some .polled
  · obtain ⟨rfl, stage, hat⟩ := h.stands hpolled
    have hmoves : t.moveEffect plan 0 m = t.move plan 0 stage m := by
      unfold Transfer.moveEffect
      rw [hpolled, ← hat.stage_eq]
    rw [hmoves]
    have hphase := h.phase
    generalize hos : outcomesIn (engineIn past) = os at hphase
    cases hphase with
    | before he =>
      rw [he] at hpolled
      cases hpolled
    | launched life hat' _ hsessions hpast =>
      obtain ⟨rfl, rfl⟩ := hat.unique hat'
      have hp : Polled plan .launched t past := ⟨h, hos, hat⟩
      cases m with
      | go => exact hp.start hsessions hpast
      | callRates | ratesAnswered | takeRate | takeTurn | tokenFetched | answered => exact h.nothing
    | polling life s hat' _ hs hpast =>
      obtain ⟨rfl, rfl⟩ := hat.unique hat'
      have hp : Polled plan (.polling 0) t past := ⟨h, hos, hat⟩
      cases m with
      | go => exact hp.proceed hrates hplan hs hpast hsourced
      | callRates | ratesAnswered | takeRate | takeTurn | tokenFetched | answered => exact h.nothing
    | checking life k st s hat' _ hs hfetching hcaller hstage hpast =>
      obtain ⟨rfl, rfl⟩ := hat.unique hat'
      have hp : Polled plan (.checking 0 k none) t past := ⟨h, hos, hat⟩
      cases m with
      | takeTurn =>
        exact hp.request hs hfetching hpast hsourced (Access.resume_advance hcaller hstage)
      | tokenFetched result =>
        exact hp.request hs hfetching hpast hsourced
          (Access.fetched_advance plan.family hcaller hstage result)
      | answered result =>
        exact hp.request hs hfetching hpast hsourced
          (Access.answered_advance plan.family hcaller hstage result)
      | go | callRates | ratesAnswered | takeRate => exact h.nothing
    | checked life result s hat' _ hs hfetching hpast =>
      obtain ⟨rfl, rfl⟩ := hat.unique hat'
      have hp : Polled plan (.checked 0 result) t past := ⟨h, hos, hat⟩
      cases m with
      | go => exact hp.deliver hs hfetching hpast
      | callRates | ratesAnswered | takeRate | takeTurn | tokenFetched | answered => exact h.nothing
    | told life o hat' =>
      obtain ⟨rfl, rfl⟩ := hat.unique hat'
      cases m <;> exact h.nothing
    | silent life st hat' _ hover =>
      obtain ⟨rfl, rfl⟩ := hat.unique hat'
      obtain rfl := hover.resolve_right nofun
      cases m <;> exact h.nothing
  · have hstill : t.moveEffect plan id m = (t, []) := by
      unfold Transfer.moveEffect
      split
      · exact absurd ‹_› hpolled
      · rfl
    rw [hstill]
    exact h.nothing

/-- **Every act but a reset keeps a transfer on its course.** -/
theorem step (h : OnCourse plan t past) (hrates : plan.rateTtl = none)
    (hplan : plan.tellsFailures = false) (hsourced : t.access.Sourced (accessIn past)) {act : Act}
    (hact : act ≠ .reset) : OnCourse plan (t.step plan act).1 (past ++ (t.step plan act).2) := by
  -- acts that concern only parts with nothing to do with the course
  have beside : ∀ {t' : Transfer} {events : List Event}, t'.engine = t.engine → t'.stages = t.stages →
      t'.poller.sessions = t.poller.sessions → t'.access.callers = t.access.callers → Harmless events →
      engineIn events = [] → OnCourse plan t' (past ++ events) := fun he hst hse hc hev hnone =>
    h.beside he hnone (h.phase.congr (congrArg _ he) hst hse hc hev)
  cases act with
  | submit =>
    have heffects : (t.engine.step setup (.submit .submit)).1.effects = t.engine.effects :=
      Engine.Threads.submit_effects _ _
    exact h.aside nofun (fun i hi => by cases hi; rfl) heffects
  | reset => exact absurd rfl hact
  | work => exact h.work
  | look id => exact h.look id
  | move id m => exact h.moveEffect hrates hplan hsourced id m
  | leave id => exact h.leave id
  | cancel => exact beside rfl rfl rfl rfl (onPoller_harmless t nofun) rfl
  | invalidateToken =>
    exact beside rfl rfl rfl rfl (fun event hmem => List.mem_singleton.mp hmem ▸ rfl) rfl
  | invalidateRates => exact beside rfl rfl rfl rfl (onRates_harmless t .invalidate) rfl
  | destroy => exact h.aside nofun nofun rfl
  | silence id =>
    refine h.aside nofun nofun ?_
    rcases Engine.Threads.step_silence_cases setup t.engine id with hs | hs <;> rw [hs]
  | signal =>
    refine h.aside nofun nofun ?_
    rcases Engine.Threads.step_signal_cases setup t.engine with ⟨-, hs⟩ | ⟨-, hs⟩ <;> rw [hs]
  | resume id =>
    refine h.aside nofun nofun ?_
    have hresumed := t.engine.resume_resumed id
    show (t.engine.resume id).1.effects = _
    generalize t.engine.resume id = after at hresumed ⊢
    cases hresumed <;> rfl
  | pass time => exact beside rfl rfl rfl rfl nofun rfl

end OnCourse

/-! ### Runs -/

/-- **A transfer stays on its course.** -/
theorem onCourse_run (wallClock : Timestamp) {acts : List Act} (hrates : plan.rateTtl = none)
    (hplan : plan.tellsFailures = false) (hacts : .reset ∉ acts) :
    OnCourse plan (run plan wallClock acts).1 (run plan wallClock acts).2 := by
  have hkept : OnCourse plan (run plan wallClock acts).1 (run plan wallClock acts).2 ∧
      Accounted (run plan wallClock acts).1 (run plan wallClock acts).2 := by
    refine History.after_induct (step plan) (P := fun t past => OnCourse plan t past ∧ Accounted t past)
      ⟨.start plan wallClock, .new plan wallClock⟩ ?_
    intro act hmem t past h
    have hact : act ≠ .reset := fun hreset => hacts (hreset ▸ hmem)
    exact ⟨h.1.step hrates hplan h.2.sourced hact, h.2.chain (step_chain plan t act)⟩
  exact hkept.1

theorem Few.fetches_le {p : Poller RequestError String}
    {past : List (Poll.Event RequestError String)} (h : Few plan p) (ht : p.Tally past) :
    Poll.fetchesIn past ≤ max 1 plan.retries := by
  rw [ht.fetches]
  match hp : p.sessions, h.single with
  | [], _ => exact Nat.zero_le _
  | [m], _ =>
    have hm : m ∈ p.sessions := hp ▸ List.mem_singleton_self m
    exact h.budget m hm ▸ (ht.within m hm).attempts
  | _ :: _ :: _, hlong => exact absurd hlong (by simp)

theorem Mark.states_prefix (m : Mark) :
    ∃ last, ((∃ v, last = .settled v) ∨ ∃ text, last = .failed text) ∧
      State.idle :: m.states <+: [.idle, .pending, last] := by
  cases m with
  | idle => exact ⟨.settled "", Or.inl ⟨_, rfl⟩, ⟨[.pending, .settled ""], rfl⟩⟩
  | pending => exact ⟨.settled "", Or.inl ⟨_, rfl⟩, ⟨[.settled ""], rfl⟩⟩
  | finished o =>
    refine ⟨(Intent.outcome o).next, ?_, List.prefix_refl _⟩
    cases o with
    | final v => exact Or.inl ⟨v, rfl⟩
    | timeout v => exact Or.inr ⟨_, rfl⟩
    | cancelled v => exact Or.inr ⟨_, rfl⟩

theorem Phase.length_le {os : List (Poll.Outcome String)} (h : Phase plan t past os) : os.length ≤ 1 := by
  cases h with
  | told => exact Nat.le_refl 1
  | before | launched | polling | checking | checked | silent => exact Nat.zero_le 1

/-- Where something has failed, no outcome comes to the engine, and the effect was launched. -/
theorem Phase.of_failure {os : List (Poll.Outcome String)} (h : Phase plan t past os) {event : Event}
    (hmem : event ∈ past) (hfailure : event.isFailure = true) :
    os = [] ∧ t.engine.effects.length = 1 := by
  have hharmful : ¬Harmless past := fun hpast => by
    rw [hpast event hmem] at hfailure
    cases hfailure
  cases h with
  | before _ _ _ hpast => exact absurd hpast hharmful
  | launched _ _ _ _ hpast => exact absurd hpast hharmful
  | told _ _ _ _ hpast => exact absurd hpast hharmful
  | polling _ _ hat | checking _ _ _ _ hat | checked _ _ _ hat | silent _ _ hat =>
    exact ⟨rfl, congrArg List.length hat.effects⟩

/-- What is published of a transfer in which something has failed. -/
theorem OnCourse.of_failure (h : OnCourse plan t past) {event : Event} (hmem : event ∈ past)
    (hfailure : event.isFailure = true) :
    publishedIn (engineIn past) <+: [.pending] ∧
      (t.engine.broadcast.closed = false → t.engine.hand = .free → t.engine.current = .pending) := by
  obtain ⟨m, r, hpath⟩ := h.path
  obtain ⟨hos, hlaunched⟩ := h.phase.of_failure hmem hfailure
  have hshort : ∀ {m' : Mark}, (∀ o, m' = .finished o → o ∈ outcomesIn (engineIn past)) →
      m' = .idle ∨ m' = .pending := by
    intro m' hfinished
    cases m' with
    | idle => exact Or.inl rfl
    | pending => exact Or.inr rfl
    | finished o =>
      have hno := hfinished o rfl
      rw [hos] at hno
      cases hno
  have hr := hshort hpath.finished
  refine ⟨hpath.shown.published.trans ?_, fun hopen hfree => ?_⟩
  · rcases hr with rfl | rfl
    · exact List.nil_prefix
    · exact List.prefix_rfl
  · have hgrip := hpath.grip
    rw [hfree] at hgrip
    cases hgrip
    rcases hr with rfl | rfl
    · have heffects := hpath.effects
      rw [hlaunched, hfree] at heffects
      cases heffects
    · exact hpath.shown.last_eq hopen

/-- **The course of a transfer** that looks up no rates and tells no failures, on any number of threads,
whatever its sources answer, and whenever it is submitted, cancelled or destroyed.

Its published states begin the list of idle, pending and one last state. It starts one session at most,
makes no more checks than the budget allows, and takes one outcome at most. It is settled only with a value
that the matcher accepted and that a request gave that was made with a token out of a fetch. Where a check or
the fetch of a token fails, nothing but pending is ever published, and the transfer is pending unless the
worker is still busy or there was a teardown.

A session, a check, the fetch of a token or a request begins only with a move of the effect, in a poll that
found no signal when it began. So nothing begins any more when a teardown has given the signal and no effect
is in the midst of a poll, and when a call of `destroy` has found no effect left. -/
theorem transfer_course (plan : Plan) (wallClock : Timestamp) (acts : List Act)
    (hrates : plan.rateTtl = none) (hplan : plan.tellsFailures = false) (hacts : .reset ∉ acts) :
    (∃ last, ((∃ v, last = .settled v) ∨ ∃ text, last = .failed text) ∧
      State.idle :: publishedIn (engineIn (run plan wallClock acts).2) <+: [.idle, .pending, last]) ∧
    (State.idle :: publishedIn (engineIn (run plan wallClock acts).2)).getLast? =
      some (run plan wallClock acts).1.engine.current ∧
    Poll.startsIn (pollerIn (run plan wallClock acts).2) ≤ 1 ∧
    Poll.fetchesIn (pollerIn (run plan wallClock acts).2) ≤ max 1 plan.retries ∧
    (outcomesIn (engineIn (run plan wallClock acts).2)).length ≤ 1 ∧
    ((appliedIn (engineIn (run plan wallClock acts).2)).filterMap Intent.outcome?).length ≤ 1 ∧
    (∀ v, .engine (.published (.settled v)) ∈ (run plan wallClock acts).2 →
      plan.terms.accepts v = true ∧
        ∃ j k token, (settlement j k token v).Sublist (run plan wallClock acts).2) ∧
    (∀ event ∈ (run plan wallClock acts).2, event.isFailure = true →
      publishedIn (engineIn (run plan wallClock acts).2) <+: [.pending] ∧
        ((run plan wallClock acts).1.engine.broadcast.closed = false →
          (run plan wallClock acts).1.engine.hand = .free →
          (run plan wallClock acts).1.engine.current = .pending)) ∧
    (∀ pre act post, acts = pre ++ act :: post →
      ∀ event ∈ ((run plan wallClock pre).1.step plan act).2, event.begins = true →
        ∃ id m before after, act = .move id m ∧ pre = before ++ Act.look id :: after ∧ .leave id ∉ after ∧
          (run plan wallClock before).1.engine.isSignalled id = false) ∧
    ∀ pre post, acts = pre ++ post →
      Still (run plan wallClock pre).1 ∨
        (∃ (id : Nat) (call : Engine.Call), call ≠ .awaitingEffects ∧
          (run plan wallClock pre).1.engine.teardowns[id]? = some call) →
      ∃ later, (run plan wallClock acts).2 = (run plan wallClock pre).2 ++ later ∧ Ebbing later := by
  have hcourse := onCourse_run wallClock hrates hplan hacts
  obtain ⟨m, r, hpath⟩ := hcourse.path
  have htally := (accounted_run plan wallClock acts).tally
  have hfew := hcourse.phase.few
  refine ⟨?_, hpath.shown.last, ?_, hfew.fetches_le htally, hcourse.phase.length_le, ?_, ?_, ?_, ?_, ?_⟩
  · obtain ⟨last, hlast, hprefix⟩ := r.states_prefix
    exact ⟨last, hlast, ((List.prefix_cons_inj _).mpr hpath.shown.published).trans hprefix⟩
  · rw [htally.starts]
    exact hfew.single
  · rw [hpath.applied]
    cases m with
    | idle | pending => exact Nat.zero_le 1
    | finished => exact Nat.le_refl 1
  · intro v hmem
    refine hcourse.settled v ?_
    exact List.mem_filterMap.mpr ⟨_, List.mem_filterMap.mpr ⟨_, hmem, rfl⟩, rfl⟩
  · exact fun event hmem hfailure => hcourse.of_failure hmem hfailure
  · rintro pre act post - event hmem hbegins
    obtain ⟨id, m, rfl, hpolled⟩ := step_begins plan _ hmem hbegins
    obtain ⟨before, after, rfl, hstays, hs⟩ := polled_since plan wallClock hpolled
    exact ⟨id, m, before, after, rfl, rfl, hstays, hs⟩
  · rintro pre post rfl hover
    have hstill : Still (run plan wallClock pre).1 := by
      rcases hover with hstill | ⟨id, call, hcall, hc⟩
      · exact hstill
      · exact still_of_call plan wallClock pre hc hcall
    have hebbing : Ebbing (History.after (step plan) (run plan wallClock pre).1 post).2 :=
      hstill.ebbing_after post
    exact ⟨_, congrArg Prod.snd (History.after_append (step plan) (new plan wallClock) pre post), hebbing⟩

/-- Two checks at most, for a value that says that it is final. -/
def patient : Plan where
  interval := 5
  retries := 2
  terms := { accepts := (· = "done"), timer := .exact }
  rateTtl := none
  tellsFailures := false
  executors := []

/-- A transfer that is submitted twice. -/
def submitted : List Act := [Act.submit, .submit] ++ List.replicate 10 Act.work

/-- It settles with the value of its second check. -/
def secondCheck : List Act :=
  submitted ++ [Act.look 0, .move 0 .go, .move 0 .go, .move 0 .go, .move 0 .takeTurn,
    .move 0 (.tokenFetched (.ok { secret := "s" })), .move 0 (.answered (.ok "not yet")), .move 0 .go,
    .move 0 .go, .leave 0, .work, .work, .work, .pass 5, .look 0, .move 0 .go, .move 0 .go, .move 0 .go,
    .move 0 (.answered (.ok "done")), .move 0 .go, .move 0 .go, .move 0 .go, .leave 0] ++
    List.replicate 9 Act.work

/-- The fetch of its token fails. -/
def tokenless : List Act :=
  submitted ++ [Act.look 0, .move 0 .go, .move 0 .go, .move 0 .go, .move 0 .takeTurn,
    .move 0 (.tokenFetched (.error "down")), .move 0 .go, .move 0 .go, .leave 0]

/-- It is settled before it is destroyed. Where the token cannot be fetched, it stays pending. -/
theorem settled_by_second_check :
    publishedIn (engineIn (run patient { secs := 0 } (secondCheck ++ [Act.destroy, .signal, .look 0])).2) =
        [.pending, .settled "done"] ∧
      (∃ j k token, (settlement j k token "done").Sublist
        (run patient { secs := 0 } (secondCheck ++ [Act.destroy, .signal, .look 0])).2) ∧
      (∃ later, (run patient { secs := 0 } (secondCheck ++ [Act.destroy, .signal, .look 0])).2 =
        (run patient { secs := 0 } (secondCheck ++ [Act.destroy, .signal])).2 ++ later ∧ Ebbing later) ∧
      (run patient { secs := 0 } tokenless).1.engine.current = .pending := by
  obtain ⟨-, -, -, -, -, -, hsettled, -, -, hdestroyed⟩ := transfer_course patient { secs := 0 }
    (secondCheck ++ [Act.destroy, .signal, .look 0]) rfl rfl (by decide)
  obtain ⟨-, -, -, -, -, -, -, hfailed, -, -⟩ := transfer_course patient { secs := 0 } tokenless rfl rfl
    (by decide)
  refine ⟨rfl, (hsettled "done" (by decide)).2, ?_, ?_⟩
  · refine hdestroyed (secondCheck ++ [Act.destroy, .signal]) [.look 0] rfl (Or.inl ⟨rfl, fun id => ?_⟩)
    cases id with
    | zero => decide
    | succ id => exact nofun
  · exact (hfailed (.access (.fetched 0 (.error "down"))) (by decide) rfl).2 rfl rfl

/-- The effect is fast, and the fetch of its token fails while the worker is still busy. -/
def hasty : List Act :=
  Act.submit :: List.replicate 6 Act.work ++ [Act.look 0, .move 0 .go, .move 0 .go, .move 0 .go,
    .move 0 .takeTurn, .move 0 (.tokenFetched (.error "down"))]

/-- A transfer whose effect is in the midst of a poll when it is destroyed. -/
def midPoll : List Act := submitted ++ [Act.look 0, .move 0 .go]

/-- Its first check begins after that. And the fetch of a token may have failed before the transfer is
pending. -/
theorem checked_after_destroy :
    (¬∃ later, (run patient { secs := 0 } (midPoll ++ [Act.destroy, .signal, .move 0 .go])).2 =
        (run patient { secs := 0 } midPoll).2 ++ later ∧ Ebbing later) ∧
      (∃ event ∈ (run patient { secs := 0 } hasty).2, event.isFailure = true) ∧
      (run patient { secs := 0 } hasty).1.engine.current = .idle := by
  refine ⟨?_, ⟨.access (.fetched 0 (.error "down")), by decide, rfl⟩, rfl⟩
  rintro ⟨later, hlater, hebbing⟩
  have hall : (run patient { secs := 0 } (midPoll ++ [Act.destroy, .signal, .move 0 .go])).2 =
      (run patient { secs := 0 } midPoll).2 ++ [.engine (.teardownBegun 0), .poller (.fetch 0)] := rfl
  rw [hall] at hlater
  obtain rfl := List.append_cancel_left hlater
  cases hebbing (.poller (.fetch 0)) (by decide)

end IntentLoop.Transfer
