import IntentLoop.Proofs.Engine.Halting
import IntentLoop.Proofs.Engine.Joining
/-!
# A failure is delivered once

What the worker leaves when it ends is told by what was told of the run up to then (`Legacy`): nothing
when it was stopped, the failure that it reported when it halted and failures are to be returned, and
that it was lost when the filter or the observer broke off. The call of `destroy` that took the worker
returns just that, and all others return without a word (`Delivery`), so that of all the calls of a run
exactly one tells of a failure, if there was one.
-/

namespace IntentLoop.Engine

variable {σ ι ε : Type} {S : Setup σ ι ε} {e : Engine σ ι} {past events more : List (Event σ ι ε)}

/-! ### Calls that are answered -/

/-- Is the event a call of the filter or of the observer? -/
def Event.isAsked : Event σ ι ε → Bool
  | .compared _ _ | .observed _ => true
  | _ => false

theorem broke_append {p : Panic} :
    Broke S (events ++ more) p ↔ Broke S events p ∨ Broke S more p := by
  unfold Broke
  simp only [List.mem_append]
  constructor
  · rintro (⟨previous, i, hmem | hmem, hp⟩ | ⟨observer, state, hS, hmem | hmem, hp⟩)
    · exact Or.inl (Or.inl ⟨previous, i, hmem, hp⟩)
    · exact Or.inr (Or.inl ⟨previous, i, hmem, hp⟩)
    · exact Or.inl (Or.inr ⟨observer, state, hS, hmem, hp⟩)
    · exact Or.inr (Or.inr ⟨observer, state, hS, hmem, hp⟩)
  · rintro ((⟨previous, i, hmem, hp⟩ | ⟨observer, state, hS, hmem, hp⟩) |
      ⟨previous, i, hmem, hp⟩ | ⟨observer, state, hS, hmem, hp⟩)
    · exact Or.inl ⟨previous, i, Or.inl hmem, hp⟩
    · exact Or.inr ⟨observer, state, hS, Or.inl hmem, hp⟩
    · exact Or.inl ⟨previous, i, Or.inr hmem, hp⟩
    · exact Or.inr ⟨observer, state, hS, Or.inr hmem, hp⟩

/-- No call of the filter or of the observer broke off. -/
def Answered (S : Setup σ ι ε) (past : List (Event σ ι ε)) : Prop := ∀ p, ¬Broke S past p

namespace Answered

theorem of_unasked (h : ∀ event ∈ events, event.isAsked = false) : Answered S events := by
  rintro p (⟨previous, i, hmem, -⟩ | ⟨observer, state, -, hmem, -⟩)
  · cases h _ hmem
  · cases h _ hmem

theorem append (h : Answered S events) (hm : Answered S more) : Answered S (events ++ more) :=
  fun p hbroke => (broke_append.mp hbroke).elim (h p) (hm p)

theorem cons {event : Event σ ι ε} (hevent : event.isAsked = false) (h : Answered S events) :
    Answered S (event :: events) :=
  append (of_unasked fun _ hmem => List.mem_singleton.mp hmem ▸ hevent) h

theorem nil : Answered S [] := of_unasked nofun

theorem of_workless (h : Workless events) : Answered S events := by
  refine of_unasked fun event hmem => ?_
  have hevent := h event hmem
  cases event <;> first | rfl | cases hevent

theorem of_compare {previous : Option ι} {i : ι} {b : Bool} {compared : List (Event σ ι ε)}
    (h : compare S previous i = (.ok b, compared)) : Answered S compared := by
  cases previous with
  | none =>
    cases h
    exact nil
  | some q =>
    obtain ⟨hanswer, rfl⟩ := Prod.mk.inj h
    rintro p (⟨previous, j, hmem, hp⟩ | ⟨observer, state, -, hmem, -⟩)
    · cases List.mem_singleton.mp hmem
      rw [hanswer] at hp
      cases hp
    · cases List.mem_singleton.mp hmem

theorem of_perform {state : σ} {i : ι} {id : Nat} {answer : Attempt (Option ε)}
    {performed : List (Event σ ι ε)} (h : perform S state i id = (answer, performed)) :
    Answered S performed := by
  unfold perform at h
  split at h
  · cases h
    exact nil
  · split at h
    · cases h
      exact cons rfl nil
    · cases h
      exact cons rfl nil
    · cases h
      exact cons rfl (cons rfl nil)

theorem of_notice {next : σ} (h : notice S next = .ok ()) : Answered S (news S next) := by
  unfold notice at h
  unfold news
  cases hS : S.observer with
  | none => exact cons rfl nil
  | some observer =>
    rw [hS] at h
    have hok : observer.notice next = .ok () := h
    refine cons rfl ?_
    rintro p (⟨previous, i, hmem, -⟩ | ⟨other, state, hother, hmem, hp⟩)
    · cases List.mem_singleton.mp hmem
    · cases List.mem_singleton.mp hmem
      rw [hS] at hother
      cases hother
      rw [hok] at hp
      cases hp

theorem of_decided {state : σ} {previous : Option ι} {i : ι} {id : Nat} {f : Fate σ ε}
    {called : List (Event σ ι ε)} (h : Decided S state previous i id (f, called))
    (hf : ∀ p, f ≠ .crashed p) : Answered S called := by
  have one : ∀ {event : Event σ ι ε}, event.isAsked = false → Answered S [event] :=
    fun hevent => cons hevent nil
  cases h with
  | crashed hc => exact absurd rfl (hf _)
  | repeated hc => exact (of_compare hc).append (one rfl)
  | unvalidated hc _ => exact (of_compare hc).append (one rfl)
  | refused hc _ => exact ((of_compare hc).append (one rfl)).append (one rfl)
  | unperformed hc _ hp => exact ((of_compare hc).append (one rfl)).append (of_perform hp)
  | unreduced hc _ hp _ =>
    exact (((of_compare hc).append (one rfl)).append (of_perform hp)).append (one rfl)
  | applied hc _ hp _ =>
    exact (((of_compare hc).append (one rfl)).append (of_perform hp)).append (one rfl)

end Answered

/-! ### What the worker leaves -/

theorem reportsIn_news (S : Setup σ ι ε) (next : σ) : reportsIn (news S next) = [] := by
  unfold news
  cases S.observer <;> rfl

/-- Nothing that was told is of anything that went wrong. -/
structure Quiet (S : Setup σ ι ε) (past : List (Event σ ι ε)) : Prop where
  lasting : Lasting past
  unreported : reportsIn past = []
  answered : Answered S past

namespace Quiet

theorem nil : Quiet S [] := ⟨.nil, rfl, .nil⟩

theorem append (h : Quiet S events) (hm : Quiet S more) : Quiet S (events ++ more) where
  lasting := h.lasting.append hm.lasting
  unreported := by rw [reportsIn_append, h.unreported, hm.unreported]; rfl
  answered := h.answered.append hm.answered

theorem of_workless (h : Workless events) : Quiet S events :=
  ⟨h.lasting, reportsIn_of_workless h, .of_workless h⟩

theorem of_decided {state : σ} {previous : Option ι} {i : ι} {id : Nat} {f : Fate σ ε}
    {called : List (Event σ ι ε)} (h : Decided S state previous i id (f, called))
    (hf : ∀ p, f ≠ .crashed p) : Quiet S (.received i :: called) where
  lasting := .cons rfl h.deciding.lasting
  unreported := h.deciding.reports
  answered := .cons rfl (.of_decided h hf)

theorem of_notice {next : σ} (h : notice S next = .ok ()) : Quiet S (news S next) :=
  ⟨news_lasting S next, reportsIn_news S next, .of_notice h⟩

theorem applied (i : ι) (next : σ) : Quiet S [.applied i next] :=
  ⟨.cons rfl .nil, rfl, .cons rfl .nil⟩

end Quiet

/-- The failure of an engine that halted, as it is returned. -/
def failure (S : Setup σ ι ε) (error : EngineError) : Except EngineError Unit :=
  if S.settings.strict then .error error else .ok ()

/-- What the worker leaves, and what was told of it. -/
inductive Legacy (S : Setup σ ι ε) (e : Engine σ ι) (past : List (Event σ ι ε)) : Prop
  /-- It is there, or was stopped. -/
  | well (hw : e.isAlive = true ∨ e.worker = .returned (.ok ())) (hquiet : Quiet S past)
  | halted (intent message : String)
      (hw : e.worker = .returned (failure S (.reduction intent message)))
      (htold : ∀ error, .halted error ∈ past ↔ error = .reduction intent message)
      (hreports : reportsIn past = [(S.reporter, component, .reduction intent message)])
      (hcalls : Answered S past)
  | crashed (p : Panic) (hw : e.worker = .crashed p) (hh : ∀ error, .halted error ∉ past)
      (hreports : reportsIn past = []) (hbroke : Broke S past p)

namespace Legacy

theorem aside (h : Legacy S e past) {e' : Engine σ ι} (hworker : e'.worker = e.worker)
    (hevents : Workless events) : Legacy S e' (past ++ events) := by
  have hquiet : Quiet S events := .of_workless hevents
  have hreported : reportsIn (past ++ events) = reportsIn past := by
    rw [reportsIn_append, hquiet.unreported, List.append_nil]
  have hhalted : ∀ error, .halted error ∈ past ++ events ↔ .halted error ∈ past := by
    intro error
    rw [List.mem_append]
    exact or_iff_left (hquiet.lasting.not_halted error)
  cases h with
  | well hw hq =>
    exact .well (hw.imp (isAlive_of_worker hworker).trans hworker.trans) (hq.append hquiet)
  | halted intent message hw ht hr hc =>
    exact .halted intent message (hworker.trans hw) (fun error => (hhalted error).trans (ht error))
      (hreported.trans hr) (hc.append hquiet.answered)
  | crashed p hw hh hr hb =>
    exact .crashed p (hworker.trans hw) (fun error => mt (hhalted error).mp (hh error))
      (hreported.trans hr) (broke_append.mpr (Or.inl hb))

/-- The worker crashes: up to the call that broke off, nothing was told of the kind. -/
theorem crash (hlast : Lasting past) (hreports : reportsIn past = []) {p : Panic}
    (hbroke : Broke S past p) : Legacy S (e.retire (.crashed p)) (past ++ [.crashed p]) := by
  refine .crashed p rfl ?_ ?_ (broke_append.mpr (Or.inl hbroke))
  · intro error hmem
    rcases List.mem_append.mp hmem with hmem | hmem
    · exact hlast.not_halted error hmem
    · cases List.mem_singleton.mp hmem
  · rw [reportsIn_append, hreports]
    rfl

theorem halt (h : Quiet S past) (i : ι) (p : Panic) :
    Legacy S (e.halt S i p).1 (past ++ (e.halt S i p).2) := by
  refine .halted (S.rules.describe i) p.message rfl ?_ ?_ ?_
  · intro error
    rw [List.mem_append, or_iff_right (h.lasting.not_halted error)]
    simp [Engine.halt]
  · rw [reportsIn_append, h.unreported]
    rfl
  · exact h.answered.append (.cons rfl (.cons rfl .nil))

theorem receipt {state : σ} {previous : Option ι} {i : ι} {after : Engine σ ι × List (Event σ ι ε)}
    (h : Quiet S past) (hr : Receipt S state previous i e after) :
    Legacy S after.1 (past ++ after.2) := by
  cases hr with
  | crashed p called hd =>
    rw [← List.append_assoc]
    have hbroke : Broke S called p := by
      cases hd with
      | crashed hc => exact broke_of_compare hc
    refine crash (h.lasting.append (.cons rfl hd.deciding.lasting)) ?_ (hbroke.mono ?_)
    · rw [reportsIn_append, h.unreported]
      exact hd.deciding.reports
    · exact fun event hmem => List.mem_append_right past (List.mem_cons_of_mem _ hmem)
  | skipped f called hd hskip =>
    refine .well (Or.inl rfl) (h.append (.of_decided hd ?_))
    rintro p rfl
    rcases hskip with hno | hno <;> cases hno
  | failed p effect called hd =>
    rw [← List.append_assoc]
    exact halt (h.append (.of_decided hd nofun)) i p
  | kept next effect called hd =>
    exact .well (Or.inl rfl) (h.append ((Quiet.of_decided hd nofun).append (.applied i next)))
  | published next effect called hd _ _ hn =>
    have hquiet := ((Quiet.of_decided hd nofun).append (.of_notice hn)).append (.applied i next)
    exact .well (Or.inl rfl) (h.append hquiet)
  | unnoticed next effect called p hd _ _ hn =>
    rw [← List.append_assoc, ← List.append_assoc]
    have hbefore : Quiet S (past ++ .received i :: called) := h.append (.of_decided hd nofun)
    refine crash (hbefore.lasting.append (news_lasting S next)) ?_
      ((broke_of_notice hn).mono (List.subset_append_right _ _))
    rw [reportsIn_append, hbefore.unreported, reportsIn_news]
    rfl

theorem work (h : Legacy S e past) {after : Engine σ ι × List (Event σ ι ε)}
    (hw : Worked S e after) : Legacy S after.1 (past ++ after.2) := by
  have there : ∀ {state previous}, e.worker = .alive state previous → Quiet S past := by
    intro state previous halive
    cases h with
    | well _ hquiet => exact hquiet
    | halted intent message hw =>
      rw [halive] at hw
      cases hw
    | crashed p hw =>
      rw [halive] at hw
      cases hw
  cases hw with
  | ended | idle => rwa [List.append_nil]
  | stopped state previous halive =>
    rw [List.append_nil]
    exact .well (Or.inr rfl) (there halive)
  | received state previous halive _ i rest _ hr => exact receipt (there halive) hr

end Legacy

theorem legacy_run (S : Setup σ ι ε) (acts : List (Act ι)) :
    Legacy S (run S acts).1 (run S acts).2 := by
  refine runFrom_induct (P := Legacy S) (.well (Or.inl rfl) .nil) ?_
  intro act _ e past h
  by_cases hact : act = .work
  · subst hact
    exact h.work (work_worked S e)
  · exact h.aside (step_others S e hact).1 (step_workless S e hact)

/-! ### What calls of `destroy` return -/

def Event.result? (id : Nat) : Event σ ι ε → Option (Except EngineError Unit)
  | .teardownEnded k result => if k = id then some result else none
  | _ => none

/-- All that a call of `destroy` has returned. -/
def resultsIn (id : Nat) (past : List (Event σ ι ε)) : List (Except EngineError Unit) :=
  past.filterMap (Event.result? id)

theorem resultsIn_append (id : Nat) (past later : List (Event σ ι ε)) :
    resultsIn id (past ++ later) = resultsIn id past ++ resultsIn id later := List.filterMap_append

theorem resultsIn_eq_nil {id : Nat} {events : List (Event σ ι ε)}
    (h : ∀ event ∈ events, event.result? id = none) : resultsIn id events = [] :=
  List.filterMap_eq_nil_iff.mpr h

/-- Where a call of `destroy` has returned, with what. -/
def Teardown.result? : Teardown → Option (Except EngineError Unit)
  | .returned result => some result
  | _ => none

/-- The result of a call of `destroy`, if there is one. -/
def resultOf (e : Engine σ ι) (id : Nat) : Option (Except EngineError Unit) :=
  e.teardowns[id]?.bind Teardown.result?

theorem submitAll_results (id : Nat) (intents : List ι) (e : Engine σ ι) :
    resultsIn id (e.submitAll intents : Engine σ ι × List (Event σ ι ε)).2 = [] := by
  unfold submitAll
  split <;> simp [resultsIn, Event.result?]

theorem step_results (S : Setup σ ι ε) (e : Engine σ ι) {act : Act ι}
    (hresume : ∀ k, act ≠ .resume k) (id : Nat) :
    (e.step S act).1.resultOf id = e.resultOf id ∧ resultsIn id (e.step S act).2 = [] := by
  constructor
  · unfold resultOf
    by_cases hdestroy : act = .destroy
    · subst hdestroy
      rw [getElem?_destroy]
      split
      · rename_i hid
        rw [List.getElem?_eq_none (Nat.le_of_eq hid.symm)]
        rfl
      · rfl
    · rw [(step_untouched S e hdestroy hresume).1]
  · cases act with
    | resume k => exact absurd rfl (hresume k)
    | work =>
      refine resultsIn_eq_nil fun event hmem => ?_
      have hevent := (work_worked S e).working.1 event hmem
      cases event <;> first | rfl | cases hevent
    | submit i =>
      show resultsIn id (e.submit i).2 = []
      unfold submit
      split <;> rfl
    | effect k intents exit =>
      have hmoved := e.moveEffect_moved (ε := ε) k intents exit
      show resultsIn id (e.moveEffect k intents exit).2 = []
      generalize (e.moveEffect k intents exit : Engine σ ι × List (Event σ ι ε)) = after at hmoved ⊢
      cases hmoved with
      | still | cancelled => rfl
      | waits => exact submitAll_results id intents e
      | ends how =>
        rw [resultsIn_append, submitAll_results]
        rfl
    | subscribe | read | unsubscribe | destroy | drop => rfl

theorem Resumed.results {k : Nat} {after : Engine σ ι × List (Event σ ι ε)} (h : Resumed k e after)
    (id : Nat) : (after.1.resultOf id).toList = (e.resultOf id).toList ++ resultsIn id after.2 := by
  have hset : ∀ {old new : Teardown}, e.teardowns[k]? = some old → old.result? = none →
      ((e.teardowns.set k new)[id]?.bind Teardown.result?).toList =
        (e.resultOf id).toList ++ if k = id then new.result?.toList else [] := by
    intro old new hold hnone
    unfold resultOf
    by_cases hk : k = id
    · subst hk
      rw [List.getElem?_set_self (List.getElem?_eq_some_iff.mp hold).1, hold, if_pos rfl]
      simp [hnone]
    · rw [List.getElem?_set_ne hk, if_neg hk, List.append_nil]
  have hended : ∀ result, resultsIn id [(.teardownEnded k result : Event σ ι ε)] =
      if k = id then [result] else [] := by
    intro result
    unfold resultsIn Event.result?
    split <;> simp [*]
  cases h with
  | still => exact (List.append_nil _).symm
  | claimed ht =>
    refine (hset ht rfl).trans ?_
    split <;> rfl
  | spared ht =>
    refine (hset ht rfl).trans ?_
    exact congrArg _ (hended (.ok ())).symm
  | joined result ht =>
    refine (hset ht rfl).trans ?_
    exact congrArg _ (hended result).symm

/-- **Each call of `destroy` returns just once, if it has returned.** -/
theorem results_run (S : Setup σ ι ε) (acts : List (Act ι)) (id : Nat) :
    resultsIn id (run S acts).2 = ((run S acts).1.resultOf id).toList := by
  refine runFrom_induct (P := fun e past => resultsIn id past = (e.resultOf id).toList) rfl ?_
  intro act _ e past h
  rw [resultsIn_append, h]
  by_cases hresume : ∀ k, act ≠ .resume k
  · obtain ⟨hsame, hnone⟩ := step_results S e hresume id
    rw [hsame, hnone, List.append_nil]
  · obtain ⟨k, rfl⟩ : ∃ k, act = .resume k := by simpa using hresume
    exact ((e.resume_resumed k).results id).symm

/-- When all calls of `destroy` have returned, one of them has taken the worker. -/
theorem taken_of_returned (S : Setup σ ι ε) (acts : List (Act ι))
    (hsome : (run S acts).1.teardowns ≠ [])
    (hall : ∀ t ∈ (run S acts).1.teardowns, ∃ result, t = .returned result) :
    ∃ taker result, takersFrom S (start S) acts = [taker] ∧
      (run S acts).1.outcome? = some result ∧
      (run S acts).1.teardowns[taker]? = some (.returned result) ∧
      ∀ (id : Nat) (t : Teardown), id ≠ taker → (run S acts).1.teardowns[id]? = some t →
        t = .returned (.ok ()) := by
  have hdelivery := delivery_run S acts
  generalize takersFrom S (start S) acts = takers at hdelivery
  cases hdelivery with
  | waiting _ hwaits =>
    obtain ⟨t, hmem⟩ := List.exists_mem_of_ne_nil _ hsome
    obtain ⟨id, ht⟩ := List.mem_iff_getElem?.mp hmem
    obtain ⟨result, hreturned⟩ := hall t hmem
    rw [hwaits id t ht] at hreturned
    cases hreturned
  | taken taker _ htaker hothers =>
    rcases htaker with hw | ⟨result, hr, ht⟩
    · obtain ⟨result, hreturned⟩ := hall _ (List.mem_of_getElem? hw)
      cases hreturned
    · refine ⟨taker, result, rfl, hr, ht, ?_⟩
      intro id t hid hother
      rcases hothers id t hid hother with rfl | hok
      · obtain ⟨other, hreturned⟩ := hall _ (List.mem_of_getElem? hother)
        cases hreturned
      · exact hok

namespace Legacy

variable {result : Except EngineError Unit}

/-- What is left of a worker that has ended. -/
theorem outcome (h : Legacy S e past) (hr : e.outcome? = some result) :
    (result = .ok () ∧ (∀ error, .halted error ∉ past) ∧ Answered S past) ∨
      (∃ intent message, result = failure S (.reduction intent message) ∧
        (∀ error, .halted error ∈ past ↔ error = .reduction intent message) ∧ Answered S past) ∨
      ∃ p, result = .error (.workerLost p.message) ∧ (∀ error, .halted error ∉ past) ∧
        Broke S past p := by
  unfold outcome? at hr
  cases h with
  | well hw hquiet =>
    rcases hw with halive | hw
    · have hdead := isAlive_of_outcome? hr
      rw [halive] at hdead
      cases hdead
    · rw [hw] at hr
      exact Or.inl ⟨(Option.some.inj hr).symm, hquiet.lasting.not_halted, hquiet.answered⟩
  | halted intent message hw ht _ hc =>
    rw [hw] at hr
    exact Or.inr (Or.inl ⟨intent, message, (Option.some.inj hr).symm, ht, hc⟩)
  | crashed p hw hh _ hb =>
    rw [hw] at hr
    exact Or.inr (Or.inr ⟨p, (Option.some.inj hr).symm, hh, hb⟩)

/-- An engine halts with what it reports. -/
theorem halted_iff (h : Legacy S e past) (error : EngineError) :
    .halted error ∈ past ↔ reportsIn past = [(S.reporter, component, error)] := by
  cases h with
  | well _ hquiet => simp [hquiet.lasting.not_halted, hquiet.unreported]
  | halted intent message _ ht hreports =>
    rw [ht, hreports]
    simp [eq_comm]
  | crashed p _ hh hreports => simp [hh, hreports]

end Legacy

/-- **A failure is delivered once.** Let calls of `destroy` have been made, one after the other or at the
same time, and let all of them have returned. Exactly one of them took the worker, and it returned,
once, what the worker left. Each of the others returned once, and without a failure.

What the worker left is the failure of a reduction just if the engine halted at it and returns failures,
and then it is the one that was reported, in the only report. It is that the worker was lost just if a
call of the filter or of the observer broke off, and nothing otherwise; nothing, above all, where an
engine halted that does not return failures. -/
theorem failure_delivered_once (S : Setup σ ι ε) (acts : List (Act ι))
    (hsome : (run S acts).1.teardowns ≠ [])
    (hall : ∀ t ∈ (run S acts).1.teardowns, ∃ result, t = .returned result) :
    ∃ taker result,
      (takersFrom S (start S) acts = [taker] ∧ (run S acts).1.outcome? = some result ∧
        resultsIn taker (run S acts).2 = [result] ∧
        ∀ id < (run S acts).1.teardowns.length, id ≠ taker →
          resultsIn id (run S acts).2 = [.ok ()]) ∧
      (∀ intent message, result = .error (.reduction intent message) ↔
        S.settings.strict = true ∧ .halted (.reduction intent message) ∈ (run S acts).2) ∧
      (∀ error, .halted error ∈ (run S acts).2 ↔
        reportsIn (run S acts).2 = [(S.reporter, "engine", error)]) ∧
      ((∃ reason, result = .error (.workerLost reason)) ↔ ∃ p, Broke S (run S acts).2 p) ∧
      (result = .ok () ↔ (S.settings.strict = true → ∀ error, .halted error ∉ (run S acts).2) ∧
        ∀ p, ¬Broke S (run S acts).2 p) := by
  obtain ⟨taker, result, htakers, hr, htaker, hothers⟩ := taken_of_returned S acts hsome hall
  have hlegacy := legacy_run S acts
  have hresult : resultsIn taker (run S acts).2 = [result] := by
    rw [results_run, resultOf, htaker]
    rfl
  have hrest : ∀ id < (run S acts).1.teardowns.length, id ≠ taker →
      resultsIn id (run S acts).2 = [.ok ()] := by
    intro id hid hne
    have hget := List.getElem?_eq_getElem hid
    rw [results_run, resultOf, hget, hothers id _ hne hget]
    rfl
  refine ⟨taker, result, ⟨htakers, hr, hresult, hrest⟩, ?_, hlegacy.halted_iff, ?_⟩
  · intro intent message
    rcases hlegacy.outcome hr with ⟨rfl, hh, -⟩ | ⟨i, m, rfl, hh, -⟩ | ⟨p, rfl, hh, -⟩
    · simp [hh]
    · rw [hh, failure]
      cases S.settings.strict <;> simp [eq_comm]
    · simp [hh]
  · rcases hlegacy.outcome hr with ⟨rfl, hh, hc⟩ | ⟨i, m, rfl, hh, hc⟩ | ⟨p, rfl, hh, hb⟩
    · exact ⟨⟨nofun, fun ⟨p, hb⟩ => absurd hb (hc p)⟩, fun _ => ⟨fun _ => hh, hc⟩, fun _ => rfl⟩
    · have htold : .halted (.reduction i m) ∈ (run S acts).2 := (hh _).mpr rfl
      unfold failure
      cases hstrict : S.settings.strict with
      | true =>
        refine ⟨⟨fun ⟨_, hlost⟩ => ?_, fun ⟨p, hb⟩ => absurd hb (hc p)⟩, nofun, fun h => ?_⟩
        · cases hlost
        · exact absurd htold (h.1 rfl _)
      | false =>
        refine ⟨⟨fun ⟨_, hlost⟩ => ?_, fun ⟨p, hb⟩ => absurd hb (hc p)⟩, fun _ => ⟨nofun, hc⟩,
          fun _ => rfl⟩
        cases hlost
    · exact ⟨⟨fun _ => ⟨p, hb⟩, fun _ => ⟨_, rfl⟩⟩, nofun, fun h => absurd hb (h.2 p)⟩

/-- The reduction of 0 breaks off, and calls of `destroy` are made. The second of the first two takes the
worker and returns the failure, which the other one and a third one do not. -/
theorem fused_failure :
    resultsIn 1 (run fused [.submit 0, .work, .effect 0 [] .completes, .destroy, .destroy,
        .resume 1, .resume 0, .destroy, .resume 1, .resume 2]).2 =
      [.error (.reduction "0" "blown")] ∧
    resultsIn 0 (run fused [.submit 0, .work, .effect 0 [] .completes, .destroy, .destroy,
        .resume 1, .resume 0, .destroy, .resume 1, .resume 2]).2 = [.ok ()] ∧
    resultsIn 2 (run fused [.submit 0, .work, .effect 0 [] .completes, .destroy, .destroy,
        .resume 1, .resume 0, .destroy, .resume 1, .resume 2]).2 = [.ok ()] ∧
    reportsIn (run fused [.submit 0, .work, .effect 0 [] .completes, .destroy, .destroy,
        .resume 1, .resume 0, .destroy, .resume 1, .resume 2]).2 =
      [(.sink "main", "engine", .reduction "0" "blown")] := by
  have hcalls : (run fused [.submit 0, .work, .effect 0 [] .completes, .destroy, .destroy,
      .resume 1, .resume 0, .destroy, .resume 1, .resume 2]).1.teardowns =
      [.returned (.ok ()), .returned (.error (.reduction "0" "blown")), .returned (.ok ())] := rfl
  obtain ⟨taker, result, ⟨htakers, -, hresult, hothers⟩, hfailure, hreported, -⟩ :=
    failure_delivered_once fused [.submit 0, .work, .effect 0 [] .completes, .destroy, .destroy,
      .resume 1, .resume 0, .destroy, .resume 1, .resume 2] (by rw [hcalls]; nofun)
      (by rw [hcalls]; simp)
  have hhalted : .halted (.reduction "0" "blown") ∈
      (run fused [.submit 0, .work, .effect 0 [] .completes, .destroy, .destroy, .resume 1,
        .resume 0, .destroy, .resume 1, .resume 2]).2 := by decide
  obtain rfl : 1 = taker := List.head_eq_of_cons_eq htakers
  rw [hcalls] at hothers
  obtain rfl := (hfailure "0" "blown").mpr ⟨rfl, hhalted⟩
  exact ⟨hresult, hothers 0 (by decide) (by decide), hothers 2 (by decide) (by decide),
    (hreported _).mp hhalted⟩

end IntentLoop.Engine
