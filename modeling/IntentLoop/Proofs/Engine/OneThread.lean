import IntentLoop.Proofs.Engine.Joining
import IntentLoop.Proofs.Engine.Turns
/-!
# One thread among several

Where nobody comes between, an engine on threads does what `Engine.step` says: a turn of the worker goes
from one intent to the next (`receipt_reaches`), a poll of an effect from its look at the signal to its wait
or its end (`effect_reaches`), and a teardown from the close to the signal. So each run of `Engine.step` is a
run on threads, event by event (`run_reached`), and what is said of all runs on threads holds of it.
-/

namespace IntentLoop.Engine

variable {σ ι ε : Type} {S : Setup σ ι ε}

/-- A launched effect, between two polls. -/
def Life.of : EffectStage → Life
  | .running => resting
  | .ended how => ended how

/-- A call of `destroy`, between two moves. -/
def Call.of : Teardown → Call
  | .awaitingEffects => awaitingEffects
  | .awaitingWorker => awaitingWorker
  | .returned result => returned result

namespace Threads

/-- An engine on threads of which nobody is in the midst of anything. -/
def of (e : Engine σ ι) : Threads σ ι ε :=
  { worker := e.worker, hand := .free, inbox := e.inbox, broadcast := e.broadcast, status := e.status
    shutdown := e.shutdown, effects := e.effects.map Life.of, silenced := [], claimed := e.claimed
    teardowns := e.teardowns.map Call.of }

/-- Some acts lead there, and tell this. -/
def Reaches (S : Setup σ ι ε) (t : Threads σ ι ε) (after : Threads σ ι ε × List (Event σ ι ε)) : Prop :=
  ∃ acts, t.runFrom S acts = after

namespace Reaches

variable {t : Threads σ ι ε} {after : Threads σ ι ε × List (Event σ ι ε)}

theorem refl (S : Setup σ ι ε) (t : Threads σ ι ε) : Reaches S t (t, []) := ⟨[], rfl⟩

theorem trans {mid : Threads σ ι ε × List (Event σ ι ε)} (h : Reaches S t mid)
    (g : Reaches S mid.1 after) : Reaches S t (after.1, mid.2 ++ after.2) := by
  obtain ⟨acts, rfl⟩ := h
  obtain ⟨more, rfl⟩ := g
  exact ⟨acts ++ more, runFrom_append S t acts more⟩

theorem congr {t' : Threads σ ι ε} {events : List (Event σ ι ε)} (h : Reaches S t after)
    (ht : after.1 = t') (he : after.2 = events) : Reaches S t (t', events) := by
  subst ht he
  exact h

theorem single (S : Setup σ ι ε) (t : Threads σ ι ε) (act : Act ι) : Reaches S t (t.step S act) :=
  ⟨[act], rfl⟩

theorem work {t' : Threads σ ι ε} {events : List (Event σ ι ε)} (hw : t.work S = (t', events))
    (h : Reaches S t' after) : Reaches S t (after.1, events ++ after.2) := by
  have hfirst := single S t .work
  rw [show t.step S .work = (t', events) from hw] at hfirst
  exact hfirst.trans h

end Reaches

variable {t : Threads σ ι ε} {state : σ} {previous : Option ι} {i : ι}

/-! ### A turn of the worker -/

theorem work_passes {hand next : Hand σ ι ε} {events : List (Event σ ι ε)}
    (hw : t.worker = .alive state previous) (hh : t.hand = hand)
    (hp : Passes S state previous t hand next events) : t.work S = (t.hold next, events) := by
  unfold Threads.work goOn
  rw [hw]
  dsimp only
  rw [hh]
  cases hp with
  | same h => simp [Broadcast.publish, h]
  | _ => simp [*]

theorem work_skips {hand : Hand σ ι ε} {events : List (Event σ ι ε)}
    (hw : t.worker = .alive state previous) (hh : t.hand = hand)
    (hs : Skips S state previous i hand events) : t.work S = (t.done state i, events) := by
  unfold Threads.work goOn
  rw [hw]
  dsimp only
  rw [hh]
  cases hs <;> simp [*]

theorem Reaches.pass {hand next : Hand σ ι ε} {events : List (Event σ ι ε)}
    {after : Threads σ ι ε × List (Event σ ι ε)} (hw : t.worker = .alive state previous)
    (hh : t.hand = hand) (hp : Passes S state previous t hand next events)
    (h : Reaches S (t.hold next) after) : Reaches S t (after.1, events ++ after.2) :=
  .work (work_passes hw hh hp) h

/-- Keep track of an effect that was launched. -/
def track (effect : Option ε) (t : Threads σ ι ε) : Threads σ ι ε :=
  if effect.isSome then { t with effects := t.effects ++ [.resting] } else t

@[simp] theorem track_worker (effect : Option ε) (t : Threads σ ι ε) :
    (t.track effect).worker = t.worker := by
  cases effect <;> rfl

/-- The handler is called, and its effect is launched. -/
theorem perform_reaches {answer : Attempt (Option ε)} {performed : List (Event σ ι ε)}
    (hw : t.worker = .alive state previous) (hh : t.hand = .valid i)
    (hp : perform S state i t.effects.length = (answer, performed)) :
    Reaches S t
      ((match answer with
        | .ok effect => (t.track effect).hold (.launched i)
        | .error p => t.hold (.failed i p)), performed) := by
  unfold perform at hp
  cases hs : S.handler with
  | none =>
    rw [hs] at hp
    cases hp
    exact .pass hw hh (.unhandled hs) (.refl S _)
  | some h =>
    rw [hs] at hp
    dsimp only at hp
    cases ha : h.perform state i with
    | error p =>
      rw [ha] at hp
      cases hp
      exact .pass hw hh (.unperformed hs ha) (.refl S _)
    | ok effect =>
      rw [ha] at hp
      cases effect with
      | none =>
        cases hp
        exact .pass hw hh (.alone hs ha) (.refl S _)
      | some effect =>
        cases hp
        have hlaunch : (t.hold (.handled i effect)).work S =
            ((t.track (some effect)).hold (.launched i), [.launched t.effects.length effect]) := by
          unfold Threads.work
          rw [show (t.hold (.handled i effect)).worker = .alive state previous from hw]
          rfl
        exact .pass hw hh (.handled hs ha) (.work hlaunch (.refl S _))

/-- An engine on threads whose worker has decided on an intent. -/
def decided (state : σ) (i : ι) (t : Threads σ ι ε) : Fate σ ε → Threads σ ι ε
  | .crashed p => t.hold (.leaving (.error p))
  | .repeated | .refused => t.done state i
  | .failed p effect => (t.track effect).hold (.failed i p)
  | .applied next effect => (t.track effect).hold (.reduced i next)

theorem decided_reaches {f : Fate σ ε} {called : List (Event σ ι ε)}
    (hw : t.worker = .alive state previous) (hh : t.hand = .taken i)
    (hd : Decided S state previous i t.effects.length (f, called)) :
    Reaches S t (t.decided state i f, called) := by
  have hfresh : ∀ {compared after}, compare S previous i = (.ok false, compared) →
      Reaches S (t.hold (.fresh i)) after → Reaches S t (after.1, compared ++ after.2) :=
    fun hc h => .pass hw hh (.compared hc) h
  have hvalid : ∀ {after}, S.rules.valid i state = .ok true →
      Reaches S (t.hold (.valid i)) after →
      Reaches S (t.hold (.fresh i)) (after.1, [.validated i state] ++ after.2) :=
    fun hv h => .pass (t := t.hold (.fresh i)) hw rfl (.validated hv) h
  cases hd with
  | crashed hc =>
    exact (Reaches.pass hw hh (.uncompared hc) (.refl S _)).congr rfl (List.append_nil _)
  | repeated hc =>
    exact (Reaches.work (work_skips hw hh (.repeated hc)) (.refl S _)).congr rfl (List.append_nil _)
  | unvalidated hc hv =>
    exact hfresh hc (.pass (t := t.hold (.fresh i)) hw rfl (.unvalidated hv) (.refl S _))
  | refused hc hv =>
    have hskip := work_skips (t := t.hold (.fresh i)) hw rfl (.refused hv)
    exact (hfresh hc (.work hskip (.refl S _))).congr rfl (by simp)
  | unperformed hc hv hp =>
    have hperform := perform_reaches (t := t.hold (.valid i)) hw rfl hp
    exact (hfresh hc (hvalid hv hperform)).congr rfl (by simp)
  | @unreduced p effect _ _ hc hv hp hr =>
    have hperform := perform_reaches (t := t.hold (.valid i)) hw rfl hp
    have hreduce := Reaches.pass (t := ((t.hold (.valid i)).track effect).hold (.launched i))
      ((track_worker effect _).trans hw) rfl (.unreduced hr) (.refl S _)
    refine (hfresh hc (hvalid hv (hperform.trans hreduce))).congr ?_ (by simp)
    cases effect <;> rfl
  | @applied next effect _ _ hc hv hp hr =>
    have hperform := perform_reaches (t := t.hold (.valid i)) hw rfl hp
    have hreduce := Reaches.pass (t := ((t.hold (.valid i)).track effect).hold (.launched i))
      ((track_worker effect _).trans hw) rfl (.reduced hr) (.refl S _)
    refine (hfresh hc (hvalid hv (hperform.trans hreduce))).congr ?_ (by simp)
    cases effect <;> rfl

theorem leaving_reaches {outcome : Attempt (Except EngineError Unit)}
    (hw : t.worker = .alive state previous) :
    Reaches S (t.hold (.leaving outcome))
      ({ t with worker := gone outcome, hand := .free, inbox := [] }, epitaph outcome) := by
  have hends : (t.hold (.leaving outcome)).work S =
      ({ t with worker := gone outcome, hand := .free, inbox := [] }, epitaph outcome) := by
    unfold Threads.work
    rw [show (t.hold (.leaving outcome)).worker = .alive state previous from hw]
    cases outcome <;> rfl
  exact (Reaches.work hends (.refl S _)).congr rfl (List.append_nil _)

theorem kept_reaches {next : σ} (hw : t.worker = .alive state previous) :
    Reaches S (t.hold (.kept i next)) (t.done next i, [.applied i next]) := by
  have happlies : (t.hold (.kept i next)).work S = (t.done next i, [.applied i next]) := by
    unfold Threads.work
    rw [show (t.hold (.kept i next)).worker = .alive state previous from hw]
    rfl
  exact .work happlies (.refl S _)

theorem failed_reaches {p : Panic} (hw : t.worker = .alive state previous) :
    Reaches S (t.hold (.failed i p))
      ({ t with
          worker := .returned (if S.settings.strict then .error (failure S i p) else .ok ())
          hand := .free, inbox := [], status := .halted },
        [.halted (failure S i p), .reported S.reporter component (failure S i p)]) := by
  have hreport := Reaches.pass (S := S) (t := t.hold (.failed i p)) hw rfl .reported (.refl S _)
  have hhalts : (t.hold (.reported i p)).work S =
      (({ t with status := .halted } : Threads σ ι ε).hold
        (.leaving (.ok (if S.settings.strict then .error (failure S i p) else .ok ()))), []) := by
    unfold Threads.work
    rw [show (t.hold (.reported i p)).worker = .alive state previous from hw]
    rfl
  exact hreport.trans (.work hhalts (leaving_reaches (t := { t with status := .halted }) hw))

/-- An engine on threads after a state was published. -/
def announce (next : σ) (t : Threads σ ι ε) : Threads σ ι ε :=
  { t with broadcast := { t.broadcast with
      last := next
      streams := t.broadcast.streams.map (·.deliver next) } }

/-- A state is published, and the observer told of it. -/
theorem publish_reaches {next : σ} (hw : t.worker = .alive state previous)
    (hopen : t.broadcast.closed = false) (hdiff : S.rules.same t.broadcast.last next = false) :
    Reaches S (t.hold (.reduced i next))
      ((t.announce next).hold
        (match notice S next with
          | .ok () => .kept i next
          | .error p => .leaving (.error p)), news S next) := by
  have hpublish : (t.hold (.reduced i next)).work S =
      ((t.announce next).hold (.announced i next), [.published next]) := by
    unfold Threads.work goOn
    rw [show (t.hold (.reduced i next)).worker = .alive state previous from hw]
    simp [hold, announce, Broadcast.publish, hopen, hdiff, hw]
  have hpass : ∀ {hand : Hand σ ι ε} {events},
      Passes S state previous ((t.announce next).hold (.announced i next)) (.announced i next) hand
        events →
      Reaches S ((t.announce next).hold (.announced i next)) ((t.announce next).hold hand, events) :=
    fun hp => (Reaches.pass (t := (t.announce next).hold (.announced i next)) hw rfl hp
      (.refl S _)).congr rfl (List.append_nil _)
  unfold notice news
  cases ho : S.observer with
  | none => exact .work hpublish (hpass (.unobserved ho))
  | some o =>
    dsimp only
    cases hn : o.notice next with
    | ok => exact .work hpublish (hpass (.observed ho hn))
    | error p => exact .work hpublish (hpass (.unnoticed ho hn))

theorem of_track (effect : Option ε) (e : Engine σ ι) :
    (of (e.track effect) : Threads σ ι ε) = (of e).track effect := by
  cases effect with
  | none => rfl
  | some effect =>
    show of { e with effects := e.effects ++ [.running] } = _
    unfold of
    rw [List.map_append]
    rfl

/-- **A turn of the worker is a run on threads.** -/
theorem receipt_reaches {e : Engine σ ι} {after : Engine σ ι × List (Event σ ι ε)}
    (hw : e.worker = .alive state previous) (hr : Receipt S state previous i e after) :
    ∃ told, after.2 = .received i :: told ∧
      Reaches S ((of e : Threads σ ι ε).hold (.taken i)) (of after.1, told) := by
  have hlength : (of e : Threads σ ι ε).effects.length = e.effects.length := List.length_map _
  have hdecide : ∀ {f called}, Decided S state previous i e.effects.length (f, called) →
      Reaches S ((of e : Threads σ ι ε).hold (.taken i))
        (((of e : Threads σ ι ε).hold (.taken i)).decided state i f, called) :=
    fun hd => decided_reaches hw rfl (hlength ▸ hd)
  have htrack : ∀ (effect : Option ε) (hand : Hand σ ι ε),
      (((of e : Threads σ ι ε).hold (.taken i)).track effect).hold hand =
        (of (e.track effect) : Threads σ ι ε).hold hand := by
    intro effect hand
    rw [of_track]
    cases effect <;> rfl
  have htracked : ∀ effect : Option ε, (e.track effect).worker = .alive state previous := by
    intro effect
    cases effect <;> exact hw
  have hbroadcast : ∀ effect : Option ε, (e.track effect).broadcast = e.broadcast := fun effect =>
    track_broadcast effect e
  cases hr with
  | crashed p called hd => exact ⟨_, rfl, (hdecide hd).trans (leaving_reaches (t := of e) hw)⟩
  | skipped f called hd hskip =>
    rcases hskip with rfl | rfl <;> exact ⟨_, rfl, hdecide hd⟩
  | failed p effect called hd =>
    have hrest := failed_reaches (S := S) (t := of (e.track effect)) (i := i) (p := p) (htracked effect)
    rw [← htrack] at hrest
    exact ⟨_, rfl, ((hdecide hd).trans hrest).congr rfl rfl⟩
  | kept next effect called hd hsame =>
    have hkept : Reaches S ((of (e.track effect)).hold (.kept i next))
      ((of (e.track effect)).done next i, [.applied i next]) := kept_reaches (htracked effect)
    rw [← hbroadcast effect] at hsame
    have hrest := Reaches.pass (t := (of (e.track effect) : Threads σ ι ε).hold (.reduced i next))
      (htracked effect) rfl (.same hsame) hkept
    rw [← htrack] at hrest
    exact ⟨_, rfl, ((hdecide hd).trans hrest).congr rfl rfl⟩
  | published next effect called hd hopen hdiff hn =>
    rw [← hbroadcast effect] at hopen hdiff
    have hpublish := publish_reaches (t := of (e.track effect)) (i := i) (htracked effect) hopen hdiff
    have hkept : Reaches S (((of (e.track effect)).announce next).hold (.kept i next))
      (((of (e.track effect)).announce next).done next i, [.applied i next]) :=
      kept_reaches (htracked effect)
    rw [hn, ← htrack] at hpublish
    refine ⟨called ++ (news S next ++ [.applied i next]), by simp, ?_⟩
    exact ((hdecide hd).trans (hpublish.trans hkept)).congr rfl rfl
  | unnoticed next effect called p hd hopen hdiff hn =>
    rw [← hbroadcast effect] at hopen hdiff
    have hpublish := publish_reaches (t := of (e.track effect)) (i := i) (htracked effect) hopen hdiff
    have hends : Reaches S (((of (e.track effect)).announce next).hold (.leaving (.error p)))
      ({ (of (e.track effect)).announce next with worker := gone (.error p), hand := .free, inbox := [] },
        epitaph (.error p)) := leaving_reaches (htracked effect)
    rw [hn, ← htrack] at hpublish
    refine ⟨called ++ (news S next ++ [.crashed p]), by simp, ?_⟩
    exact ((hdecide hd).trans (hpublish.trans hends)).congr rfl rfl

/-! ### The other acts -/

/-- A turn of the worker, whatever it finds. -/
theorem work_reaches (S : Setup σ ι ε) (e : Engine σ ι) :
    Reaches S (of e : Threads σ ι ε) (of (e.work S).1, (e.work S).2) := by
  have hworked := work_worked S e
  generalize e.work S = after at hworked
  cases hworked with
  | ended => exact .refl S _
  | stopped state previous hw hs =>
    exact .pass (t := of e) hw rfl (.quits hs) (leaving_reaches (t := of e) hw)
  | idle state previous hw hs hi =>
    exact .pass (t := of e) hw rfl (.clears hs)
      (.pass (t := (of e).hold .cleared) hw rfl (.waits hi) (.refl S _))
  | received state previous hw hs i rest hi hr =>
    obtain ⟨told, htold, hreach⟩ := receipt_reaches (e := { e with inbox := rest }) hw hr
    have htakes : ((of e : Threads σ ι ε).hold .cleared).work S =
        ((of { e with inbox := rest } : Threads σ ι ε).hold (.taken i), [.received i]) := by
      unfold Threads.work goOn
      rw [show ((of e : Threads σ ι ε).hold .cleared).worker = .alive state previous from hw]
      dsimp only [hold, of]
      rw [hi, hw]
    rw [htold]
    exact .pass (t := of e) hw rfl (.clears hs) (.work htakes hreach)

theorem getElem?_of (e : Engine σ ι) (id : Nat) :
    (of e : Threads σ ι ε).effects[id]? = e.effects[id]?.map Life.of := List.getElem?_map

theorem of_set (e : Engine σ ι) (id : Nat) (stage : EffectStage) :
    (of { e with effects := e.effects.set id stage } : Threads σ ι ε) =
      (of e).setLife id (Life.of stage) := by
  unfold of setLife
  dsimp only
  rw [List.map_set]

theorem sends_reaches {id : Nat} {life : Life} (hl : life = .polled ∨ life = .dropping)
    (hid : t.effects[id]? = some life) (intents : List ι) :
    Reaches S t
      (if t.isAlive then ({ t with inbox := t.inbox ++ intents }, intents.map .accepted)
        else (t, intents.map .rejected)) := by
  have hsend : ∀ {t : Threads σ ι ε}, t.effects[id]? = some life → ∀ i, t.send id i = t.submit i := by
    intro t hid i
    unfold send
    rw [hid]
    rcases hl with rfl | rfl <;> rfl
  induction intents generalizing t with
  | nil =>
    cases halive : t.isAlive with
    | true => exact (Reaches.refl S t).congr (by simp) rfl
    | false => exact .refl S t
  | cons i rest ih =>
    have hstep : t.step S (.send id i) = t.submit i := hsend hid i
    have hfirst := Reaches.single S t (.send id i)
    rw [hstep] at hfirst
    unfold submit at hfirst
    cases halive : t.isAlive with
    | true =>
      rw [halive] at hfirst
      have hstill : ({ t with inbox := t.inbox ++ [i] } : Threads σ ι ε).isAlive = true := halive
      have hrest := ih (t := { t with inbox := t.inbox ++ [i] }) hid
      rw [if_pos hstill] at hrest
      exact (hfirst.trans hrest).congr (by simp) rfl
    | false =>
      rw [halive] at hfirst
      have hrest := ih hid
      rw [halive] at hrest
      exact hfirst.trans hrest

theorem getElem?_setLife {id : Nat} {life : Life} (h : t.effects[id]? = some life) (new : Life) :
    (t.setLife id new).effects[id]? = some new :=
  List.getElem?_set_self (List.getElem?_eq_some_iff.mp h).1

theorem setLife_setLife (id : Nat) (life new : Life) (t : Threads σ ι ε) :
    (t.setLife id life).setLife id new = t.setLife id new := by
  unfold setLife
  dsimp only
  rw [List.set_set]

theorem setLife_self {id : Nat} {life : Life} (h : t.effects[id]? = some life) :
    t.setLife id life = t := by
  obtain ⟨hlt, hget⟩ := List.getElem?_eq_some_iff.mp h
  unfold setLife
  rw [← hget, List.set_getElem_self]

theorem resting_of_running {e : Engine σ ι} {id : Nat} (hr : e.effects[id]? = some .running) :
    (of e : Threads σ ι ε).effects[id]? = some .resting := by
  rw [getElem?_of, hr]
  rfl

theorem look_of {e : Engine σ ι} {id : Nat} (hr : e.effects[id]? = some .running) :
    (of e : Threads σ ι ε).look id =
      ((of e).setLife id (if e.shutdown then .dropping else .polled), []) := by
  unfold look
  rw [resting_of_running hr]
  simp [isSignalled, of]

/-- An effect that finds no signal submits what it has to, and is then about to leave its poll. -/
theorem polled_reaches {e : Engine σ ι} {id : Nat} (hr : e.effects[id]? = some .running)
    (hs : e.shutdown = false) (intents : List ι) :
    Reaches S (of e : Threads σ ι ε)
      ((of (e.submitAll intents : Engine σ ι × List (Event σ ι ε)).1).setLife id .polled,
        (e.submitAll intents).2) := by
  have hlook := Reaches.single S (of e : Threads σ ι ε) (.look id)
  rw [show (of e : Threads σ ι ε).step S (.look id) = (of e).look id from rfl, look_of hr, hs,
    if_neg Bool.false_ne_true] at hlook
  have hsends := sends_reaches (S := S) (Or.inl rfl)
    (getElem?_setLife (resting_of_running (ε := ε) hr) .polled) intents
  have halive : ((of e : Threads σ ι ε).setLife id .polled).isAlive = e.isAlive := rfl
  rw [halive] at hsends
  refine (hlook.trans hsends).congr ?_ ?_
  · unfold submitAll
    cases e.isAlive <;> rfl
  · unfold submitAll
    cases e.isAlive <;> rfl

/-- A move of an effect, whatever it finds. -/
theorem effect_reaches (S : Setup σ ι ε) (id : Nat) (intents : List ι) (exit : Exit) (e : Engine σ ι) :
    Reaches S (of e : Threads σ ι ε)
      (of (e.moveEffect id intents exit : Engine σ ι × List (Event σ ι ε)).1,
        (e.moveEffect id intents exit).2) := by
  have hmoved := e.moveEffect_moved (ε := ε) id intents exit
  generalize e.moveEffect id intents exit = after at hmoved
  have hsent : (e.submitAll intents : Engine σ ι × List (Event σ ι ε)).1.effects = e.effects := by
    unfold submitAll
    split <;> rfl
  have leaves : ∀ (t : Threads σ ι ε) (exit : Exit), Reaches S t (t.leave id exit) :=
    fun t exit => Reaches.single S t (.leave id exit)
  have found : ∀ {e' : Engine σ ι} (life : Life), e'.effects[id]? = some .running →
      ((of e' : Threads σ ι ε).setLife id life).effects[id]? = some life :=
    fun life hr => getElem?_setLife (resting_of_running (ε := ε) hr) life
  cases hmoved with
  | still => exact .refl S _
  | cancelled hr hs =>
    have hlook := Reaches.single S (of e : Threads σ ι ε) (.look id)
    rw [show (of e : Threads σ ι ε).step S (.look id) = (of e).look id from rfl, look_of hr, hs,
      if_pos rfl] at hlook
    have hleave := leaves ((of e).setLife id .dropping) .waits
    unfold leave at hleave
    rw [found .dropping hr] at hleave
    refine (hlook.trans hleave).congr ?_ rfl
    rw [show (finish id .cancelled ((of e : Threads σ ι ε).setLife id .dropping)).1 =
      ((of e : Threads σ ι ε).setLife id .dropping).setLife id (.ended .cancelled) from rfl,
      setLife_setLife]
    exact (of_set e id (.ended .cancelled)).symm
  | waits hr hs =>
    have hr' := hsent.symm ▸ hr
    have hleave := leaves ((of (e.submitAll intents : Engine σ ι × List (Event σ ι ε)).1).setLife id
      .polled) .waits
    unfold leave at hleave
    rw [found .polled hr'] at hleave
    refine ((polled_reaches hr hs intents).trans hleave).congr ?_ (List.append_nil _)
    exact (setLife_setLife ..).trans (setLife_self (resting_of_running hr'))
  | ends how hr hs hhow =>
    have hr' := hsent.symm ▸ hr
    obtain ⟨last, hlast⟩ : ∃ last, ((of (e.submitAll intents : Engine σ ι × List (Event σ ι ε)).1 :
        Threads σ ι ε).setLife id .polled).leave id last =
        ((of (e.submitAll intents : Engine σ ι × List (Event σ ι ε)).1).setLife id .polled).finish id
          how := by
      unfold leave
      rw [found .polled hr']
      cases how with
      | completed => exact ⟨.completes, rfl⟩
      | panicked => exact ⟨.panics, rfl⟩
      | cancelled => exact absurd rfl hhow
    have hleave := leaves ((of (e.submitAll intents : Engine σ ι × List (Event σ ι ε)).1).setLife id
      .polled) last
    rw [hlast] at hleave
    refine ((polled_reaches hr hs intents).trans hleave).congr ?_ rfl
    exact (setLife_setLife ..).trans (of_set _ id (.ended how)).symm

theorem active_of (e : Engine σ ι) : (of e : Threads σ ι ε).active = e.active := by
  unfold active Engine.active of
  rw [List.countP_map, List.count_eq_countP]
  congr 1
  funext stage
  cases stage <;> rfl

theorem of_setCall (e : Engine σ ι) (id : Nat) (call : Teardown) :
    (of { e with teardowns := e.teardowns.set id call } : Threads σ ι ε) =
      (of e).setCall id (Call.of call) := by
  unfold of setCall
  dsimp only
  rw [List.map_set]

theorem resume_effects {id : Nat} (hs : t.shutdown = true)
    (hc : t.teardowns[id]? = some .awaitingEffects) (hn : t.active = 0) :
    (t.resume id : Threads σ ι ε × List (Event σ ι ε)) = (t.setCall id .freed, []) := by
  simp [resume, hs, hc, hn]

theorem resume_freed {id : Nat} (hs : t.shutdown = true) (hc : t.teardowns[id]? = some .freed) :
    (t.resume id : Threads σ ι ε × List (Event σ ι ε)) =
      if t.claimed then t.finishTeardown id (.ok ())
      else ({ t.setCall id .awaitingWorker with claimed := true }, []) := by
  simp [resume, hs, hc]

theorem resume_joined {id : Nat} {result : Except EngineError Unit} (hs : t.shutdown = true)
    (hc : t.teardowns[id]? = some .awaitingWorker) (ho : t.outcome? = some result) :
    (t.resume id : Threads σ ι ε × List (Event σ ι ε)) = t.finishTeardown id result := by
  simp [resume, hs, hc, ho]

/-- A call of `destroy` goes on, whatever it finds. -/
theorem resume_reaches (S : Setup σ ι ε) (id : Nat) {e : Engine σ ι}
    (hs : ∀ call, e.teardowns[id]? = some call → e.shutdown = true) :
    Reaches S (of e : Threads σ ι ε)
      (of (e.resume id : Engine σ ι × List (Event σ ι ε)).1, (e.resume id).2) := by
  have hcall : ∀ {call}, e.teardowns[id]? = some call →
      (of e : Threads σ ι ε).teardowns[id]? = some (Call.of call) := by
    intro call hc
    show (e.teardowns.map Call.of)[id]? = _
    rw [List.getElem?_map, hc]
    rfl
  have hsignal : ∀ {call}, e.teardowns[id]? = some call → (of e : Threads σ ι ε).shutdown = true :=
    fun hc => hs _ hc
  have hmove := Reaches.single S (of e : Threads σ ι ε) (.resume id)
  rw [show (of e : Threads σ ι ε).step S (.resume id) = (of e).resume id from rfl] at hmove
  have hsettled : ∀ call, ((of e : Threads σ ι ε).setCall id .freed).setCall id call =
      (of e).setCall id call := by
    intro call
    unfold setCall
    dsimp only
    rw [List.set_set]
  -- a call that has found no effect left goes on at once
  have freed : e.teardowns[id]? = some .awaitingEffects → e.active = 0 →
      Reaches S (of e : Threads σ ι ε)
        (if e.claimed then (of e).finishTeardown id (.ok ())
          else ({ (of e).setCall id .awaitingWorker with claimed := true }, [])) := by
    intro hc hn
    have hfreed : ((of e : Threads σ ι ε).setCall id .freed).teardowns[id]? = some .freed :=
      List.getElem?_set_self (List.getElem?_eq_some_iff.mp (hcall hc)).1
    have hlast := resume_freed (t := (of e : Threads σ ι ε).setCall id .freed) (hsignal hc) hfreed
    rw [finishTeardown, hsettled, hsettled] at hlast
    rw [resume_effects (hsignal hc) (hcall hc) ((active_of e).trans hn)] at hmove
    have hgoes := hmove.trans (Reaches.single S _ (.resume id))
    exact hgoes.congr (congrArg Prod.fst hlast) (congrArg Prod.snd hlast)
  have hresumed := e.resume_resumed (ε := ε) id
  generalize e.resume id = after at hresumed
  cases hresumed with
  | still => exact .refl S _
  | claimed hc hn hno =>
    have hlast := freed hc hn
    rw [hno, if_neg Bool.false_ne_true] at hlast
    refine hlast.congr ?_ rfl
    have hof := of_setCall (ε := ε) { e with claimed := true } id .awaitingWorker
    exact hof.symm
  | spared hc hn hyes =>
    have hlast := freed hc hn
    rw [hyes, if_pos rfl] at hlast
    refine hlast.congr ?_ rfl
    have hof := of_setCall (ε := ε) { e with status := .destroyed } id (.returned (.ok ()))
    exact hof.symm
  | joined result hc ho =>
    rw [resume_joined (hsignal hc) (hcall hc) (show (of e : Threads σ ι ε).outcome? = some result from ho)]
      at hmove
    refine hmove.congr ?_ rfl
    have hof := of_setCall (ε := ε) { e with status := .destroyed } id (.returned result)
    exact hof.symm

/-! ### Runs -/

/-- **An act on one thread is a run on several.** -/
theorem step_reaches (S : Setup σ ι ε) {e : Engine σ ι} (hs : e.teardowns ≠ [] → e.shutdown = true)
    (act : Engine.Act ι) :
    Reaches S (of e : Threads σ ι ε) (of (e.step S act).1, (e.step S act).2) := by
  have single := Reaches.single S (of e : Threads σ ι ε)
  -- closing the broadcast and giving the signal are two acts
  have stops : ∀ {t : Threads σ ι ε} {events : List (Event σ ι ε)}, t.broadcast.closed = true →
      Reaches S (of e : Threads σ ι ε) (t, events) →
      Reaches S (of e : Threads σ ι ε) ({ t with shutdown := true }, events) := by
    intro t events hclosed h
    have hsignal := Reaches.single S t .signal
    rw [step_signal S hclosed] at hsignal
    exact (h.trans hsignal).congr rfl (List.append_nil _)
  cases act with
  | submit i =>
    refine (single (.submit i)).congr ?_ ?_
    · show ((of e : Threads σ ι ε).submit i).1 = of (e.submit i : Engine σ ι × List (Event σ ι ε)).1
      unfold submit Engine.submit
      rw [show (of e : Threads σ ι ε).isAlive = e.isAlive from rfl]
      cases e.isAlive <;> rfl
    · show ((of e : Threads σ ι ε).submit i).2 = (e.submit i : Engine σ ι × List (Event σ ι ε)).2
      unfold submit Engine.submit
      rw [show (of e : Threads σ ι ε).isAlive = e.isAlive from rfl]
      cases e.isAlive <;> rfl
  | work => exact work_reaches S e
  | effect id intents exit => exact effect_reaches S id intents exit e
  | subscribe => exact single .subscribe
  | read n => exact single (.read n)
  | unsubscribe n => exact single (.unsubscribe n)
  | destroy =>
    refine (stops ?_ (single .destroy)).congr ?_ ?_
    · rfl
    · show _ = of { e.stop with teardowns := e.teardowns ++ [.awaitingEffects] }
      unfold of
      rw [List.map_append]
      rfl
    · show [_] = [_]
      rw [show (of e : Threads σ ι ε).teardowns.length = e.teardowns.length from List.length_map _]
  | resume id =>
    refine resume_reaches S id fun call hc => hs fun hnil => ?_
    rw [hnil] at hc
    cases hc
  | drop => exact stops rfl (single .drop)

/-- **A run on one thread is a run on several**, event by event. -/
theorem run_reached (S : Setup σ ι ε) (acts : List (Engine.Act ι)) :
    ∃ more, run S more = (of (Engine.run S acts).1, (Engine.run S acts).2) := by
  have hkept : Engine.Staged (Engine.run S acts).1 ∧
      Reaches S (Threads.start S) (of (Engine.run S acts).1, (Engine.run S acts).2) :=
    Engine.runFrom_induct (P := fun e past => Engine.Staged e ∧ Reaches S (Threads.start S) (of e, past))
      ⟨.start S, .refl S _⟩ fun act _ e past ⟨hstaged, hreach⟩ => ?_
  · exact hkept.2
  · refine ⟨hstaged.step act, (hreach.trans (step_reaches S (fun hne => ?_) act)).congr rfl rfl⟩
    obtain ⟨call, hmem⟩ := List.exists_mem_of_ne_nil _ hne
    obtain ⟨id, hid⟩ := List.mem_iff_getElem?.mp hmem
    exact hstaged.signalled_of_getElem? hid

end Threads

end IntentLoop.Engine
