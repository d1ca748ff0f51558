import IntentLoop.Proofs.Engine.Intake
/-!
# What the status tells of the worker

As long as no teardown has begun, an engine is running or has halted. If it is running, its worker is
there and works through the queue (`drains`), with one exception: a filter or an observer that breaks
off takes the worker with it, and the status is not told (`crashed_while_running`). The callbacks made
for validation, handling and reduction are of another kind, since an engine halts when one of them
breaks off, and then its status says so.

`Health` lists the three ways in which an engine can be, and `running_unless_crashed` puts them
together.
-/

namespace IntentLoop.Engine

variable {σ ι ε : Type} {S : Setup σ ι ε} {e : Engine σ ι} {past events more : List (Event σ ι ε)}

/-! ### Events that end the worker -/

/-- Does the worker end with the event? -/
def Event.isLast : Event σ ι ε → Bool
  | .halted _ | .crashed _ => true
  | _ => false

/-- The worker ends with none of the events. -/
def Lasting (events : List (Event σ ι ε)) : Prop := ∀ event ∈ events, event.isLast = false

namespace Lasting

theorem nil : Lasting ([] : List (Event σ ι ε)) := nofun

theorem append (h : Lasting events) (hm : Lasting more) : Lasting (events ++ more) :=
  List.forall_mem_append.mpr ⟨h, hm⟩

theorem cons {event : Event σ ι ε} (hevent : event.isLast = false) (h : Lasting events) :
    Lasting (event :: events) := List.forall_mem_cons.mpr ⟨hevent, h⟩

theorem not_crashed (h : Lasting events) (p : Panic) : .crashed p ∉ events :=
  fun hmem => by cases h _ hmem

theorem not_halted (h : Lasting events) (error : EngineError) : .halted error ∉ events :=
  fun hmem => by cases h _ hmem

end Lasting

theorem Workless.lasting (h : Workless events) : Lasting events := by
  intro event hmem
  have hevent := h event hmem
  cases event <;> first | rfl | cases hevent

theorem Deciding.lasting (h : Deciding events) : Lasting events := by
  intro event hmem
  have hevent := h event hmem
  cases event <;> first | rfl | cases hevent

theorem news_lasting (S : Setup σ ι ε) (next : σ) : Lasting (news S next : List (Event σ ι ε)) := by
  unfold news
  cases S.observer with
  | none => exact .cons rfl .nil
  | some _ => exact .cons rfl (.cons rfl .nil)

/-! ### Without teardowns -/

/-- The filter or the observer broke off with this panic at one of the calls that were made. -/
def Broke (S : Setup σ ι ε) (past : List (Event σ ι ε)) (p : Panic) : Prop :=
  (∃ previous i, .compared previous i ∈ past ∧ S.filter.repeats previous i = .error p) ∨
    ∃ observer state, S.observer = some observer ∧ .observed state ∈ past ∧
      observer.notice state = .error p

/-- An engine without teardowns, and what was told of it. -/
inductive Health (S : Setup σ ι ε) (e : Engine σ ι) (past : List (Event σ ι ε)) : Prop
  | well (halive : e.isAlive = true) (hstatus : e.status = .running) (hlast : Lasting past)
  | halted (error : EngineError) (hdead : e.isAlive = false) (hstatus : e.status = .halted)
      (htold : .halted error ∈ past) (hc : ∀ p, .crashed p ∉ past)
  /-- The status is not told that the worker has ended. -/
  | lost (p : Panic) (hdead : e.isAlive = false) (hstatus : e.status = .running)
      (htold : .crashed p ∈ past) (hbroke : ∀ q, .crashed q ∈ past → Broke S past q)
      (hh : ∀ error, .halted error ∉ past)

theorem Broke.mono {p : Panic} (h : Broke S events p) (hsub : events ⊆ more) : Broke S more p := by
  rcases h with ⟨previous, i, hmem, hp⟩ | ⟨observer, state, hS, hmem, hp⟩
  · exact Or.inl ⟨previous, i, hsub hmem, hp⟩
  · exact Or.inr ⟨observer, state, hS, hsub hmem, hp⟩

theorem broke_of_compare {previous : Option ι} {i : ι} {p : Panic} {compared : List (Event σ ι ε)}
    (h : compare S previous i = (.error p, compared)) : Broke S compared p := by
  cases previous with
  | none => cases h
  | some q =>
    obtain ⟨hp, rfl⟩ := Prod.mk.inj h
    exact Or.inl ⟨q, i, List.mem_singleton.mpr rfl, hp⟩

theorem broke_of_notice {next : σ} {p : Panic} (h : notice S next = .error p) :
    Broke S (news S next) p := by
  unfold notice at h
  unfold Broke news
  cases hS : S.observer with
  | none =>
    rw [hS] at h
    cases h
  | some observer =>
    rw [hS] at h
    exact Or.inr ⟨observer, next, rfl, by simp, h⟩

theorem track_status (effect : Option ε) (e : Engine σ ι) : (e.track effect).status = e.status := by
  cases effect <;> rfl

namespace Health

theorem aside (h : Health S e past) {e' : Engine σ ι} (hworker : e'.worker = e.worker)
    (hstatus : e'.status = e.status) (hevents : Workless events) : Health S e' (past ++ events) := by
  have halive := isAlive_of_worker hworker
  have hlasting := hevents.lasting
  cases h with
  | well ha hs hl => exact .well (halive.trans ha) (hstatus.trans hs) (hl.append hlasting)
  | halted error hd hs ht hc =>
    refine .halted error (halive.trans hd) (hstatus.trans hs) (List.mem_append_left _ ht) ?_
    exact fun p hmem => (List.mem_append.mp hmem).elim (hc p) (hlasting.not_crashed p)
  | lost p hd hs ht hb hh =>
    refine .lost p (halive.trans hd) (hstatus.trans hs) (List.mem_append_left _ ht) ?_ ?_
    · intro q hmem
      rcases List.mem_append.mp hmem with hmem | hmem
      · exact (hb q hmem).mono (List.subset_append_left past events)
      · exact absurd hmem (hlasting.not_crashed q)
    · exact fun error hmem => (List.mem_append.mp hmem).elim (hh error) (hlasting.not_halted error)

/-- The worker crashes: what was told before it is followed by that. -/
theorem crash (hstatus : e.status = .running) (hpast : Lasting past) (p : Panic)
    (hbroke : Broke S past p) : Health S (e.retire (.crashed p)) (past ++ [.crashed p]) := by
  refine .lost p rfl hstatus (by simp) ?_ ?_
  · intro q hmem
    have hq : q = p := by
      rcases List.mem_append.mp hmem with hmem | hmem
      · exact absurd hmem (hpast.not_crashed q)
      · exact Event.crashed.inj (List.mem_singleton.mp hmem)
    rw [hq]
    exact hbroke.mono (List.subset_append_left past _)
  · intro error hmem
    rcases List.mem_append.mp hmem with hmem | hmem
    · exact hpast.not_halted error hmem
    · cases List.mem_singleton.mp hmem

/-- Whatever comes of an intent, the status is right unless the worker crashes. -/
theorem receipt {state : σ} {previous : Option ι} {i : ι} {after : Engine σ ι × List (Event σ ι ε)}
    (hstatus : e.status = .running) (hlast : Lasting past)
    (hr : Receipt S state previous i e after) : Health S after.1 (past ++ after.2) := by
  -- up to the decision on the intent nothing ends the worker
  have upTo : ∀ {called : List (Event σ ι ε)}, Deciding called →
      Lasting (past ++ .received i :: called) :=
    fun hd => hlast.append (.cons rfl hd.lasting)
  cases hr with
  | crashed p called hd =>
    rw [← List.append_assoc]
    have hbroke : Broke S called p := by
      cases hd with
      | crashed hc => exact broke_of_compare hc
    refine crash hstatus (upTo hd.deciding) p (hbroke.mono ?_)
    exact fun event hmem => List.mem_append_right past (List.mem_cons_of_mem _ hmem)
  | skipped f called hd => exact .well rfl hstatus (upTo hd.deciding)
  | failed p effect called hd =>
    refine .halted (.reduction (S.rules.describe i) p.message) rfl rfl (by simp [halt]) ?_
    intro q hmem
    rw [← List.append_assoc] at hmem
    rcases List.mem_append.mp hmem with hmem | hmem
    · exact (upTo hd.deciding).not_crashed q hmem
    · simp [halt] at hmem
  | kept next effect called hd =>
    rw [← List.append_assoc]
    exact .well rfl ((track_status effect e).trans hstatus)
      ((upTo hd.deciding).append (.cons rfl .nil))
  | published next effect called hd =>
    rw [← List.append_assoc, ← List.append_assoc]
    exact .well rfl ((track_status effect e).trans hstatus)
      (((upTo hd.deciding).append (news_lasting S next)).append (.cons rfl .nil))
  | unnoticed next effect called p hd _ _ hn =>
    rw [← List.append_assoc, ← List.append_assoc]
    exact crash (e := (e.track effect).announce next) ((track_status effect e).trans hstatus)
      ((upTo hd.deciding).append (news_lasting S next)) p
      ((broke_of_notice hn).mono (List.subset_append_right _ _))

/-- What the worker does is told by the status, unless it crashes. -/
theorem work (h : Health S e past) (hs : e.shutdown = false)
    {after : Engine σ ι × List (Event σ ι ε)} (hw : Worked S e after) :
    Health S after.1 (past ++ after.2) := by
  cases hw with
  | ended | idle => rwa [List.append_nil]
  | stopped state previous hw hstop =>
    rw [hs] at hstop
    cases hstop
  | received state previous hw _ i rest _ hr =>
    have halive : e.isAlive = true := by rw [isAlive, hw]
    cases h with
    | well _ hstatus hlast => exact receipt (e := { e with inbox := rest }) hstatus hlast hr
    | halted _ hdead =>
      rw [halive] at hdead
      cases hdead
    | lost _ hdead =>
      rw [halive] at hdead
      cases hdead

end Health

/-! ### Runs -/

theorem track_teardowns (effect : Option ε) (e : Engine σ ι) :
    (e.track effect).teardowns = e.teardowns := by
  cases effect <;> rfl

theorem Worked.teardowns {after : Engine σ ι × List (Event σ ι ε)} (h : Worked S e after) :
    after.1.teardowns = e.teardowns := by
  cases h with
  | ended | stopped | idle => rfl
  | received state previous _ _ i rest _ hr =>
    cases hr with
    | crashed | skipped => rfl
    | failed p effect => exact track_teardowns effect _
    | kept next effect => exact track_teardowns effect _
    | published next effect => exact track_teardowns effect _
    | unnoticed next effect => exact track_teardowns effect _

theorem Moved.teardowns {id : Nat} {intents : List ι} {after : Engine σ ι × List (Event σ ι ε)}
    (h : Moved id intents e after) : after.1.teardowns = e.teardowns := by
  have hsent : (e.submitAll intents : Engine σ ι × List (Event σ ι ε)).1.teardowns = e.teardowns := by
    unfold submitAll
    split <;> rfl
  cases h with
  | still | cancelled => rfl
  | waits | ends => exact hsent

theorem step_untorn (S : Setup σ ι ε) (h : e.teardowns = []) {act : Act ι} (hact : act ≠ .destroy) :
    (e.step S act).1.teardowns = [] ∧ (act ≠ .work → (e.step S act).1.status = e.status) := by
  cases act with
  | destroy => exact absurd rfl hact
  | work => exact ⟨(work_worked S e).teardowns.trans h, fun hno => absurd rfl hno⟩
  | submit i =>
    show (e.submit i : Engine σ ι × List (Event σ ι ε)).1.teardowns = [] ∧
      (_ → (e.submit i : Engine σ ι × List (Event σ ι ε)).1.status = e.status)
    unfold submit
    split <;> exact ⟨h, fun _ => rfl⟩
  | effect id intents exit =>
    have hmoved := e.moveEffect_moved (ε := ε) id intents exit
    exact ⟨hmoved.teardowns.trans h, fun _ => hmoved.status⟩
  | resume id =>
    have hstill : e.resume id = (e, ([] : List (Event σ ι ε))) := by
      unfold resume
      rw [h]
      rfl
    show (e.resume id : Engine σ ι × List (Event σ ι ε)).1.teardowns = [] ∧
      (_ → (e.resume id : Engine σ ι × List (Event σ ι ε)).1.status = e.status)
    rw [hstill]
    exact ⟨h, fun _ => rfl⟩
  | subscribe | read | unsubscribe | drop => exact ⟨h, fun _ => rfl⟩

theorem health_run (S : Setup σ ι ε) {acts : List (Act ι)} (hdestroy : .destroy ∉ acts)
    (hdrop : .drop ∉ acts) : Health S (run S acts).1 (run S acts).2 := by
  refine (runFrom_induct (S := S) (e := start S) (P := fun e past =>
    e.shutdown = false ∧ e.teardowns = [] ∧ Health S e past) ⟨rfl, rfl, .well rfl rfl .nil⟩ ?_).2.2
  intro act hmem e past ⟨hrunning, huntorn, h⟩
  have hact : act ≠ .destroy ∧ act ≠ .drop :=
    ⟨fun heq => hdestroy (heq ▸ hmem), fun heq => hdrop (heq ▸ hmem)⟩
  obtain ⟨huntorn', hstatus⟩ := step_untorn S huntorn hact.1
  refine ⟨?_, huntorn', ?_⟩
  · rw [Bool.eq_false_iff, Ne, step_shutdown]
    simp [hrunning, hact]
  · by_cases hwork : act = .work
    · subst hwork
      exact h.work hrunning (work_worked S e)
    · exact h.aside (step_others S e hwork).1 (hstatus hwork) (step_workless S e hwork)

/-- **The worker works through its queue.** In as many moves as there are intents in the queue, it
receives them all, unless it ends at one of them. -/
theorem drains (S : Setup σ ι ε) (halive : e.isAlive = true) (hs : e.shutdown = false) :
    receivedIn (e.runFrom S (List.replicate e.inbox.length .work)).2 = e.inbox ∨
      (e.runFrom S (List.replicate e.inbox.length .work)).1.isAlive = false := by
  -- by induction on the queue, whose first intent the next move of the worker takes
  generalize hqueue : e.inbox = queue
  induction queue generalizing e with
  | nil => exact Or.inl rfl
  | cons i rest ih =>
    obtain ⟨state, previous, hw⟩ : ∃ state previous, e.worker = .alive state previous := by
      unfold isAlive at halive
      split at halive
      · exact ⟨_, _, ‹_›⟩
      all_goals cases halive
    have hreceipt := receive_receipt S state previous i { e with inbox := rest }
    have hstep : e.step S .work = { e with inbox := rest }.receive S state previous i :=
      work_received S hw hs hqueue
    rw [← hstep] at hreceipt
    obtain ⟨verdict, -, hstays, hinbox⟩ := hreceipt.verdict
    rw [List.length_cons, List.replicate_succ, runFrom_cons, receivedIn_append, hreceipt.receivedIn]
    cases hfatal : verdict.isFatal with
    | true =>
      rw [hfatal] at hstays
      exact Or.inr (runFrom_dead S hstays _).1
    | false =>
      rw [hfatal] at hstays hinbox
      refine (ih hstays (hreceipt.shutdown.trans hs) hinbox).imp (fun hall => ?_) id
      rw [hall]
      rfl

/-- **An engine that is running has its worker, unless the worker crashed.** As long as no teardown
begins, whatever else happens, the engine is running just if its worker is there or has crashed, and
has halted just if that was told. A crash comes from a call of the filter or of the observer that broke
off. So where all those calls were answered, the engine is running just if its worker is there.

While the worker is there, every intent submitted is accepted, and received after those queued before
it unless the worker ends at one of them. -/
theorem running_unless_crashed (S : Setup σ ι ε) (acts : List (Act ι)) (hdestroy : .destroy ∉ acts)
    (hdrop : .drop ∉ acts) :
    ((run S acts).1.status = .running ↔
      (run S acts).1.isAlive = true ∨ ∃ p, .crashed p ∈ (run S acts).2) ∧
    ((run S acts).1.status = .halted ↔ ∃ error, .halted error ∈ (run S acts).2) ∧
    (∀ p, .crashed p ∈ (run S acts).2 →
      (run S acts).1.isAlive = false ∧ Broke S (run S acts).2 p) ∧
    ((∀ p, ¬Broke S (run S acts).2 p) →
      ((run S acts).1.status = .running ↔ (run S acts).1.isAlive = true)) ∧
    ((run S acts).1.isAlive = true → ∀ i,
      (run S (acts ++ [.submit i])).2 = (run S acts).2 ++ [.accepted i] ∧
      (receivedIn (run S (acts ++ .submit i ::
          List.replicate ((run S acts).1.inbox.length + 1) .work)).2 =
        receivedIn (run S acts).2 ++ ((run S acts).1.inbox ++ [i]) ∨
      (run S (acts ++ .submit i ::
        List.replicate ((run S acts).1.inbox.length + 1) .work)).1.isAlive = false)) := by
  have hshutdown : (run S acts).1.shutdown = false := by
    rw [Bool.eq_false_iff, Ne, run, runFrom_shutdown]
    simp [start, hdestroy, hdrop]
  have h := health_run S hdestroy hdrop
  refine ⟨?_, ?_, ?_, ?_, ?_⟩
  · cases h with
    | well ha hs => simp [ha, hs]
    | halted error hd hs ht hc => simp [hd, hs, hc]
    | lost p hd hs ht => simpa [hs, hd] using ⟨p, ht⟩
  · cases h with
    | well ha hs hl => simp [hs, hl.not_halted]
    | halted error hd hs ht => simpa [hs] using ⟨error, ht⟩
    | lost p hd hs ht hb hh => simp [hs, hh]
  · intro p hp
    cases h with
    | well ha hs hl => exact absurd hp (hl.not_crashed p)
    | halted error hd hs ht hc => exact absurd hp (hc p)
    | lost q hd hs ht hb => exact ⟨hd, hb p hp⟩
  · intro hnone
    cases h with
    | well ha hs => simp [ha, hs]
    | halted error hd hs => simp [hd, hs]
    | lost p hd hs ht hb => exact absurd (hb p ht) (hnone p)
  · intro halive i
    have hsubmit : (run S acts).1.step S (.submit i) =
        ({ (run S acts).1 with inbox := (run S acts).1.inbox ++ [i] }, [.accepted i]) :=
      if_pos halive
    have hdrained := drains S (e := { (run S acts).1 with inbox := (run S acts).1.inbox ++ [i] })
      halive hshutdown
    rw [List.length_append, List.length_singleton] at hdrained
    rw [run_split, run_split, hsubmit]
    refine ⟨rfl, hdrained.imp (fun hall => ?_) id⟩
    rw [receivedIn_append, receivedIn_append, hall]
    rfl

/-- Intents add up. The filter breaks off if it is asked about 0, and so does the observer at 9. -/
def brittle : Setup Nat Nat Unit where
  rules := {
    same := fun a b => a == b
    valid := fun _ _ => .ok true
    reduce := fun i s => .ok (s + i)
    describe := fun i => toString i }
  settings := {}
  initial := 0
  filter := ⟨fun previous next => if next = 0 then .error (.text "asked") else .ok (previous == next)⟩
  handler := none
  reporter := .sink "main"
  observer := some { name := "eye", notice := fun s => if s = 9 then .error (.text "seen") else .ok () }

/-- As long as neither breaks off, the status is right and the next intent is received. -/
theorem brittle_running :
    ((run brittle [.submit 1, .work, .submit 2]).1.status = .running ↔
      (run brittle [.submit 1, .work, .submit 2]).1.isAlive = true) ∧
    receivedIn (run brittle ([.submit 1, .work, .submit 2] ++ [.submit 3, .work, .work])).2 =
      [1, 2, 3] := by
  obtain ⟨-, -, -, hright, htaken⟩ := running_unless_crashed brittle
    [.submit 1, .work, .submit 2] (by decide) (by decide)
  have hpast : (run brittle [.submit 1, .work, .submit 2]).2 = [.accepted 1, .received 1,
      .validated 1 0, .reduced 1 0, .published 1, .observed 1, .applied 1 1, .accepted 2] := rfl
  refine ⟨hright fun p hbroke => ?_, ?_⟩
  · rw [hpast] at hbroke
    rcases hbroke with ⟨previous, i, hmem, -⟩ | ⟨observer, state, hS, hmem, hp⟩
    · simp at hmem
    · have hone : state = 1 := by simpa using hmem
      cases hS
      rw [hone] at hp
      cases hp
  · exact (htaken rfl 3).2.resolve_right (by decide)

/-- The filter breaks off at 0, or the observer at 9. Either way the worker is gone, nothing is accepted
any more, and the engine says that it is running. -/
theorem crashed_while_running :
    (run brittle [.submit 1, .work, .submit 0, .work]).1.status = .running ∧
    (run brittle [.submit 1, .work, .submit 0, .work]).1.isAlive = false ∧
    (run brittle [.submit 1, .work, .submit 0, .work, .submit 2]).2.getLast? = some (.rejected 2) ∧
    (run brittle [.submit 9, .work]).1.status = .running ∧
    (run brittle [.submit 9, .work]).1.isAlive = false ∧
    (run brittle [.submit 9, .work, .submit 2]).2.getLast? = some (.rejected 2) := by
  decide

end IntentLoop.Engine
