import IntentLoop.Proofs.Engine.Halting
/-!
# No intent is lost

Whoever submits an intent, it goes to one queue, and the worker takes intents from that queue one by
one. So the intents that were accepted are those received, in order, followed by those still queued;
and each of those received has met one fate, which the history tells right after its receipt
(`Accounted`). Only a worker that ends leaves intents behind.

An intent is accepted if the worker is there and rejected if it has ended, whoever submits it. A worker
that has ended stays so, and a run in which intents are rejected goes on as if they had not been
submitted (`unsent_runFrom`).
-/

namespace IntentLoop.Engine

variable {σ ι ε : Type} {S : Setup σ ι ε} {e : Engine σ ι} {past events : List (Event σ ι ε)}

/-! ### What is submitted -/

def Event.sent? : Event σ ι ε → Option (ι × Bool)
  | .accepted i => some (i, true)
  | .rejected i => some (i, false)
  | _ => none

/-- The intents submitted, in order, each with the answer to whoever submitted it. -/
def sentIn (past : List (Event σ ι ε)) : List (ι × Bool) := past.filterMap Event.sent?

/-- The intents whose submission was answered by yes. -/
def acceptedIn (past : List (Event σ ι ε)) : List ι := ((sentIn past).filter (·.2)).map (·.1)

@[simp] theorem sentIn_append (past later : List (Event σ ι ε)) :
    sentIn (past ++ later) = sentIn past ++ sentIn later := List.filterMap_append

@[simp] theorem acceptedIn_append (past later : List (Event σ ι ε)) :
    acceptedIn (past ++ later) = acceptedIn past ++ acceptedIn later := by
  simp [acceptedIn]

/-- The intents that an act submits to the engine. An effect submits none if it is not running, or if
the signal is there. -/
def offers (e : Engine σ ι) : Act ι → List ι
  | .submit i => [i]
  | .effect id intents _ =>
    if e.effects[id]? = some .running ∧ e.shutdown = false then intents else []
  | _ => []

theorem acceptedIn_of_sentIn {intents : List ι} {taken : Bool}
    (h : sentIn events = intents.map (·, taken)) :
    acceptedIn events = if taken then intents else [] := by
  rw [acceptedIn, h, List.filter_map, List.map_map]
  cases taken <;> simp [Function.comp_def]

theorem Working.sent (h : Working events) : sentIn events = [] := by
  refine List.filterMap_eq_nil_iff.mpr fun event hmem => ?_
  have hevent := h event hmem
  cases event <;> first | rfl | cases hevent

theorem submitAll_sent (intents : List ι) (e : Engine σ ι) :
    sentIn (e.submitAll intents : Engine σ ι × List (Event σ ι ε)).2 =
        intents.map (·, e.isAlive) ∧
      (e.submitAll intents : Engine σ ι × List (Event σ ι ε)).1.inbox =
        e.inbox ++ if e.isAlive then intents else [] := by
  unfold submitAll
  cases e.isAlive <;> simp [sentIn, List.filterMap_map, Function.comp_def, Event.sent?]

theorem offers_of_running {id : Nat} (intents : List ι) (exit : Exit)
    (hr : e.effects[id]? = some .running) (hs : e.shutdown = false) :
    offers e (.effect id intents exit) = intents := if_pos ⟨hr, hs⟩

theorem offers_of_not_running {id : Nat} (intents : List ι) (exit : Exit)
    (h : ¬(e.effects[id]? = some .running ∧ e.shutdown = false)) :
    offers e (.effect id intents exit) = [] := if_neg h

theorem Moved.sent {id : Nat} {intents : List ι} (exit : Exit)
    {after : Engine σ ι × List (Event σ ι ε)} (h : Moved id intents e after) :
    sentIn after.2 = (offers e (.effect id intents exit)).map (·, e.isAlive) ∧
      after.1.inbox =
        e.inbox ++ if e.isAlive then offers e (.effect id intents exit) else [] := by
  cases h with
  | still hr =>
    rw [offers_of_not_running intents exit fun h => hr h.1]
    simp [sentIn]
  | cancelled hr hs =>
    rw [offers_of_not_running intents exit fun h => by simp [hs] at h]
    simp [sentIn, endEffect, Event.sent?]
  | waits hr hs =>
    rw [offers_of_running intents exit hr hs]
    exact submitAll_sent intents e
  | ends how hr hs =>
    obtain ⟨hsent, hinbox⟩ := submitAll_sent (ε := ε) intents e
    rw [offers_of_running intents exit hr hs, sentIn_append, hsent]
    exact ⟨List.append_nil _, hinbox⟩

theorem Resumed.sent {id : Nat} {after : Engine σ ι × List (Event σ ι ε)}
    (h : Resumed id e after) : sentIn after.2 = [] ∧ after.1.inbox = e.inbox := by
  cases h with
  | still | claimed | spared | joined => exact ⟨rfl, rfl⟩

/-- **Whoever submits an intent is answered whether the worker is there.** -/
theorem step_sent (S : Setup σ ι ε) (e : Engine σ ι) (act : Act ι) :
    sentIn (e.step S act).2 = (offers e act).map (·, e.isAlive) := by
  cases act with
  | submit i =>
    show sentIn (e.submit i).2 = [(i, e.isAlive)]
    unfold submit
    cases e.isAlive <;> rfl
  | work => exact (work_worked S e).working.1.sent
  | effect id intents exit => exact ((e.moveEffect_moved id intents exit).sent exit).1
  | resume id => exact (e.resume_resumed id).sent.1
  | subscribe | read | unsubscribe | destroy | drop => rfl

theorem step_inbox (S : Setup σ ι ε) (e : Engine σ ι) {act : Act ι} (h : act ≠ .work) :
    (e.step S act).1.inbox = e.inbox ++ acceptedIn (e.step S act).2 := by
  rw [acceptedIn_of_sentIn (step_sent S e act)]
  cases act with
  | work => exact absurd rfl h
  | submit i =>
    show (e.submit i : Engine σ ι × List (Event σ ι ε)).1.inbox = e.inbox ++ if e.isAlive then [i] else []
    unfold submit
    cases e.isAlive <;> simp
  | effect id intents exit => exact ((e.moveEffect_moved (ε := ε) id intents exit).sent exit).2
  | resume id =>
    show (e.resume id : Engine σ ι × List (Event σ ι ε)).1.inbox = _
    simpa [offers] using (e.resume_resumed (ε := ε) id).sent.2
  | subscribe | read | unsubscribe | destroy | drop => simp [step, stop, offers]

/-! ### What becomes of an intent -/

/-- What becomes of a received intent. -/
inductive Verdict (σ : Type) where
  | repeated
  | refused
  /-- It was reduced in a state, to the next one. -/
  | applied (state next : σ)
  /-- The worker halted at it. If its reduction was called, that was in the state named. -/
  | halted (reduced : Option σ) (error : EngineError)
  /-- It took the worker with it. -/
  | crashed (reduced : Option σ) (panic : Panic)
  deriving DecidableEq

/-- Does the worker end at the intent? -/
def Verdict.isFatal : Verdict σ → Bool
  | .halted _ _ | .crashed _ _ => true
  | _ => false

/-- Does the event tell what becomes of an intent? -/
def Event.tellsVerdict : Event σ ι ε → Bool
  | .received _ | .repeated _ | .refused _ | .reduced _ _ | .applied _ _ | .halted _ | .crashed _ =>
    true
  | _ => false

/-- All that a history tells of what became of intents. -/
def ledgerIn (past : List (Event σ ι ε)) : List (Event σ ι ε) := past.filter (·.tellsVerdict)

@[simp] theorem ledgerIn_append (past later : List (Event σ ι ε)) :
    ledgerIn (past ++ later) = ledgerIn past ++ ledgerIn later := List.filter_append past later

/-- All that is told of an intent that has met this fate. -/
def account (fate : ι × Verdict σ) : List (Event σ ι ε) :=
  .received fate.1 ::
    match fate.2 with
    | .repeated => [.repeated fate.1]
    | .refused => [.refused fate.1]
    | .applied state next => [.reduced fate.1 state, .applied fate.1 next]
    | .halted reduced error => (reduced.map (.reduced fate.1)).toList ++ [.halted error]
    | .crashed reduced panic => (reduced.map (.reduced fate.1)).toList ++ [.crashed panic]

theorem Workless.ledger (h : Workless events) : ledgerIn events = [] := by
  refine List.filter_eq_nil_iff.mpr fun event hmem => ?_
  have hevent := h event hmem
  cases event <;> first | exact Bool.false_ne_true | cases hevent

theorem compare_ledger {previous : Option ι} {i : ι} {answer : Attempt Bool}
    {compared : List (Event σ ι ε)} (h : compare S previous i = (answer, compared)) :
    ledgerIn compared = [] := by
  cases previous <;> cases h <;> rfl

theorem perform_ledger {state : σ} {i : ι} {id : Nat} {answer : Attempt (Option ε)}
    {performed : List (Event σ ι ε)} (h : perform S state i id = (answer, performed)) :
    ledgerIn performed = [] := by
  unfold perform at h
  split at h
  · cases h
    rfl
  · split at h <;> cases h <;> rfl

@[simp] theorem ledgerIn_news (S : Setup σ ι ε) (next : σ) : ledgerIn (news S next) = [] := by
  unfold news
  cases S.observer <;> rfl

/-- What is told of an intent while it is decided on. -/
theorem Decided.ledger {state : σ} {previous : Option ι} {i : ι} {id : Nat} {f : Fate σ ε}
    {called : List (Event σ ι ε)} (h : Decided S state previous i id (f, called)) :
    match f with
    | .crashed _ => ledgerIn called = []
    | .repeated => ledgerIn called = [.repeated i]
    | .refused => ledgerIn called = [.refused i]
    | .failed _ _ => ∃ reduced : Option σ, ledgerIn called = (reduced.map (.reduced i)).toList
    | .applied _ _ => ledgerIn called = [.reduced i state] := by
  cases h with
  | crashed hc => exact compare_ledger hc
  | repeated hc =>
    rw [ledgerIn_append, compare_ledger hc]
    rfl
  | unvalidated hc =>
    refine ⟨none, ?_⟩
    rw [ledgerIn_append, compare_ledger hc]
    rfl
  | refused hc =>
    rw [ledgerIn_append, ledgerIn_append, compare_ledger hc]
    rfl
  | unperformed hc _ hp =>
    refine ⟨none, ?_⟩
    rw [ledgerIn_append, ledgerIn_append, compare_ledger hc, perform_ledger hp]
    rfl
  | unreduced hc _ hp =>
    refine ⟨some state, ?_⟩
    rw [ledgerIn_append, ledgerIn_append, ledgerIn_append, compare_ledger hc, perform_ledger hp]
    rfl
  | applied hc _ hp =>
    rw [ledgerIn_append, ledgerIn_append, ledgerIn_append, compare_ledger hc, perform_ledger hp]
    rfl

theorem track_inbox (effect : Option ε) (e : Engine σ ι) : (e.track effect).inbox = e.inbox := by
  cases effect <;> rfl

/-- **A received intent meets one fate**, and the worker ends at it or goes on with the queue. -/
theorem Receipt.verdict {state : σ} {previous : Option ι} {i : ι}
    {after : Engine σ ι × List (Event σ ι ε)} (h : Receipt S state previous i e after) :
    ∃ verdict : Verdict σ, ledgerIn after.2 = account (i, verdict) ∧
      after.1.isAlive = !verdict.isFatal ∧
      after.1.inbox = if verdict.isFatal then [] else e.inbox := by
  have told : ∀ {called more : List (Event σ ι ε)},
      ledgerIn (.received i :: called ++ more) = .received i :: (ledgerIn called ++ ledgerIn more) :=
    fun {called more} => ledgerIn_append (.received i :: called) more
  cases h with
  | crashed p called hd =>
    refine ⟨.crashed none p, ?_, rfl, rfl⟩
    rw [told, hd.ledger]
    rfl
  | skipped f called hd hskip =>
    have htold : ledgerIn (.received i :: called) = .received i :: ledgerIn called := rfl
    rcases hskip with rfl | rfl
    · exact ⟨.repeated, by rw [htold, hd.ledger]; rfl, rfl, rfl⟩
    · exact ⟨.refused, by rw [htold, hd.ledger]; rfl, rfl, rfl⟩
  | failed p effect called hd =>
    obtain ⟨reduced, hreduced⟩ := hd.ledger
    refine ⟨.halted reduced (.reduction (S.rules.describe i) p.message), ?_, rfl, rfl⟩
    rw [told, hreduced]
    rfl
  | kept next effect called hd =>
    refine ⟨.applied state next, ?_, rfl, track_inbox effect e⟩
    rw [told, hd.ledger]
    rfl
  | published next effect called hd =>
    refine ⟨.applied state next, ?_, rfl, track_inbox effect e⟩
    rw [List.append_assoc, told, hd.ledger, ledgerIn_append, ledgerIn_news]
    rfl
  | unnoticed next effect called p hd =>
    refine ⟨.crashed (some state) p, ?_, rfl, rfl⟩
    rw [List.append_assoc, told, hd.ledger, ledgerIn_append, ledgerIn_news]
    rfl

/-! ### Runs -/

/-- The intents that were accepted are those received, with their fates, those queued, and those that
the worker has left behind. -/
structure Accounted (e : Engine σ ι) (past : List (Event σ ι ε)) (fates : List (ι × Verdict σ))
    (lost : List ι) : Prop where
  accepted : acceptedIn past = fates.map (·.1) ++ (e.inbox ++ lost)
  received : receivedIn past = fates.map (·.1)
  /-- Each receipt is followed by what became of the intent, before anything is told of another. -/
  ledger : ledgerIn past = fates.flatMap account
  /-- At most the last intent received is fatal to the worker. -/
  final : ∀ fate ∈ fates.dropLast, fate.2.isFatal = false
  alive : e.isAlive = true → lost = [] ∧ ∀ fate ∈ fates, fate.2.isFatal = false
  ended : e.isAlive = false → e.inbox = []

namespace Accounted

variable {fates : List (ι × Verdict σ)} {lost : List ι}

theorem start (S : Setup σ ι ε) : Accounted (start S) ([] : List (Event σ ι ε)) [] [] :=
  ⟨rfl, rfl, rfl, nofun, fun _ => ⟨rfl, nofun⟩, fun _ => rfl⟩

theorem aside (h : Accounted e past fates lost) {act : Act ι} (hact : act ≠ .work) :
    Accounted (e.step S act).1 (past ++ (e.step S act).2) fates lost := by
  have hworkless := step_workless S e hact
  have halive : (e.step S act).1.isAlive = e.isAlive := isAlive_of_worker (step_others S e hact).1
  refine ⟨?_, ?_, ?_, h.final, halive ▸ h.alive, ?_⟩
  · rw [acceptedIn_append, h.accepted, step_inbox S e hact]
    -- while the worker is there nothing is lost, and afterwards nothing is accepted
    cases hcase : e.isAlive with
    | true => simp [(h.alive hcase).1]
    | false => simp [acceptedIn_of_sentIn (step_sent S e act), hcase]
  · rw [receivedIn_append, h.received, ← receivedIn_workIn (e.step S act).2, hworkless.workIn]
    exact List.append_nil _
  · rw [ledgerIn_append, h.ledger, hworkless.ledger, List.append_nil]
  · intro hdead
    rw [halive] at hdead
    rw [step_inbox S e hact, h.ended hdead, acceptedIn_of_sentIn (step_sent S e act), hdead]
    rfl

theorem stopped (h : Accounted e past fates lost) (halive : e.isAlive = true)
    (result : Except EngineError Unit) :
    Accounted (e.retire (.returned result)) past fates e.inbox := by
  refine ⟨?_, h.received, h.ledger, h.final, nofun, fun _ => rfl⟩
  rw [h.accepted, (h.alive halive).1, List.append_nil]
  rfl

theorem receipt (h : Accounted e past fates lost) {state : σ} {previous : Option ι} {i : ι}
    {rest : List ι} (halive : e.isAlive = true) (hi : e.inbox = i :: rest)
    {after : Engine σ ι × List (Event σ ι ε)}
    (hr : Receipt S state previous i { e with inbox := rest } after) :
    ∃ verdict lost', Accounted after.1 (past ++ after.2) (fates ++ [(i, verdict)]) lost' := by
  obtain ⟨verdict, hledger, hstays, hinbox⟩ := hr.verdict
  obtain ⟨rfl, hharmless⟩ := h.alive halive
  have hnone : acceptedIn after.2 = [] := by
    rw [acceptedIn, hr.working.1.sent]
    rfl
  -- if the worker ends at the intent, it leaves the rest of the queue behind
  refine ⟨verdict, if verdict.isFatal then rest else [], ?_, ?_, ?_, ?_, ?_, ?_⟩
  · rw [acceptedIn_append, h.accepted, hnone, hinbox, hi]
    cases verdict.isFatal <;> simp
  · rw [receivedIn_append, h.received, hr.receivedIn, List.map_append]
    rfl
  · rw [ledgerIn_append, h.ledger, hledger, List.flatMap_append]
    simp
  · rw [List.dropLast_concat]
    exact hharmless
  · intro hstill
    rw [hstays, Bool.not_eq_true'] at hstill
    refine ⟨if_neg (by simp [hstill]), fun fate hmem => ?_⟩
    rcases List.mem_append.mp hmem with hmem | hmem
    · exact hharmless fate hmem
    · rw [List.mem_singleton.mp hmem]
      exact hstill
  · intro hdead
    rw [hstays, Bool.not_eq_false'] at hdead
    rw [hinbox, if_pos hdead]

theorem work (h : Accounted e past fates lost) {after : Engine σ ι × List (Event σ ι ε)}
    (hw : Worked S e after) : ∃ fates' lost', Accounted after.1 (past ++ after.2) fates' lost' := by
  cases hw with
  | ended => exact ⟨fates, lost, by rwa [List.append_nil]⟩
  | idle => exact ⟨fates, lost, by rwa [List.append_nil]⟩
  | stopped state previous hw =>
    refine ⟨fates, e.inbox, ?_⟩
    rw [List.append_nil]
    exact h.stopped (by rw [isAlive, hw]) (.ok ())
  | received state previous hw hs i rest hi hr =>
    obtain ⟨verdict, lost', hreceipt⟩ := h.receipt (by rw [isAlive, hw]) hi hr
    exact ⟨_, lost', hreceipt⟩

end Accounted

theorem accounted_run (S : Setup σ ι ε) (acts : List (Act ι)) :
    ∃ fates lost, Accounted (run S acts).1 (run S acts).2 fates lost := by
  refine runFrom_induct (P := fun e past => ∃ fates lost, Accounted e past fates lost)
    ⟨[], [], .start S⟩ ?_
  intro act _ e past ⟨fates, lost, h⟩
  by_cases hact : act = .work
  · subst hact
    exact h.work (work_worked S e)
  · exact ⟨fates, lost, h.aside hact⟩

/-! ### Rejected intents -/

/-- The act without the intents that it submits. -/
def Act.unsent : Act ι → List (Act ι)
  | .submit _ => []
  | .effect id _ exit => [.effect id [] exit]
  | act => [act]

def Event.isRejection : Event σ ι ε → Bool
  | .rejected _ => true
  | _ => false

theorem moveEffect_unsent (h : e.isAlive = false) (id : Nat) (intents : List ι) (exit : Exit) :
    (e.moveEffect id [] exit : Engine σ ι × List (Event σ ι ε)) =
      ((e.moveEffect id intents exit : Engine σ ι × List (Event σ ι ε)).1,
        (e.moveEffect id intents exit).2.filter (!·.isRejection)) := by
  unfold moveEffect
  rw [submitAll_dead h, submitAll_dead h]
  split
  · split
    · rfl
    · cases exit <;> simp [endEffect, Event.isRejection, List.filter_map, Function.comp_def]
  · rfl

theorem Resumed.unrejected {id : Nat} {after : Engine σ ι × List (Event σ ι ε)}
    (h : Resumed id e after) : after.2.filter (!·.isRejection) = after.2 := by
  cases h <;> rfl

theorem step_unsent (S : Setup σ ι ε) (h : e.isAlive = false) (act : Act ι) :
    e.runFrom S act.unsent =
      ((e.step S act).1, (e.step S act).2.filter (!·.isRejection)) := by
  cases act with
  | submit i =>
    show (e, []) = ((e.submit i).1, (e.submit i).2.filter (!·.isRejection))
    rw [submit_dead h]
    rfl
  | effect id intents exit => exact moveEffect_unsent h id intents exit
  | work =>
    show e.work S = ((e.work S).1, (e.work S).2.filter (!·.isRejection))
    rw [work_dead S h]
    rfl
  | resume id => exact Prod.ext rfl (e.resume_resumed id).unrejected.symm
  | subscribe | read | unsubscribe | destroy | drop => rfl

/-- **A rejected intent leaves no trace** but its rejection. -/
theorem unsent_runFrom (S : Setup σ ι ε) (h : e.isAlive = false) (acts : List (Act ι)) :
    e.runFrom S (acts.flatMap Act.unsent) =
      ((e.runFrom S acts).1, (e.runFrom S acts).2.filter (!·.isRejection)) := by
  induction acts generalizing e with
  | nil => rfl
  | cons act acts ih =>
    rw [List.flatMap_cons, runFrom_append, step_unsent S h, ih (step_dead S h act).1, runFrom_cons,
      List.filter_append]

/-- **No intent is lost, duplicated or reordered, whoever submits it.** At every moment of every run
the intents that were accepted are, in the order of their submission, those that the worker has
received and those still queued, and if the worker has ended also those that it has left behind. Each
intent that was received has met one fate, and only the last one can have ended the worker.

Acceptance is one latch for all. Any intent, submitted by an effect or by anyone else, is accepted if
the worker is there and rejected if it has ended. Once the worker has ended it stays so, and whatever
is rejected from then on might as well not have been submitted. -/
theorem no_intent_lost (S : Setup σ ι ε) (acts : List (Act ι)) :
    (∃ fates lost, Accounted (run S acts).1 (run S acts).2 fates lost) ∧
      (∀ act, sentIn ((run S acts).1.step S act).2 =
        (offers (run S acts).1 act).map (·, (run S acts).1.isAlive)) ∧
      ((run S acts).1.isAlive = false ↔ ∃ result, (run S acts).1.outcome? = some result) ∧
      ((run S acts).1.isAlive = false → ∀ post,
        (run S (acts ++ post)).1.isAlive = false ∧
          (run S acts).1.runFrom S (post.flatMap Act.unsent) =
            (((run S acts).1.runFrom S post).1,
              ((run S acts).1.runFrom S post).2.filter (!·.isRejection))) := by
  refine ⟨accounted_run S acts, step_sent S _, ?_, fun hdead post => ⟨?_, unsent_runFrom S hdead post⟩⟩
  · unfold isAlive outcome?
    cases (run S acts).1.worker <;> simp
  · rw [run, runFrom_append]
    exact (runFrom_dead S hdead post).1

/-- An intent is repeated, an effect submits another one, and the reduction of the fourth one halts the
worker, which leaves the fifth one behind and rejects the sixth. -/
theorem fused_intake :
    sentIn (run fused [.submit 1, .submit 1, .work, .effect 0 [2] .waits, .work, .submit 0, .submit 5,
        .work, .work, .submit 6]).2 =
      [(1, true), (1, true), (2, true), (0, true), (5, true), (6, false)] ∧
    ∃ fates, Accounted (run fused [.submit 1, .submit 1, .work, .effect 0 [2] .waits, .work, .submit 0,
        .submit 5, .work, .work, .submit 6]).1 (run fused [.submit 1, .submit 1, .work,
        .effect 0 [2] .waits, .work, .submit 0, .submit 5, .work, .work, .submit 6]).2 fates [5] := by
  obtain ⟨⟨fates, lost, h⟩, -, -, -⟩ := no_intent_lost fused [.submit 1, .submit 1, .work,
    .effect 0 [2] .waits, .work, .submit 0, .submit 5, .work, .work, .submit 6]
  have hreceived : [1, 1, 2, 0] = fates.map (·.1) := h.received
  have haccepted : [1, 1, 2, 0, 5] = fates.map (·.1) ++ lost := h.accepted
  rw [← hreceived] at haccepted
  have hlost : lost = [5] := (congrArg (List.drop 4) haccepted).symm
  exact ⟨rfl, fates, hlost ▸ h⟩

end IntentLoop.Engine
