import IntentLoop.Proofs.Engine.Effects
/-!
# Runs that receive the same intents

As long as no teardown has begun, all that the worker does is settled by the intents that it receives:
its callbacks, with what they are asked, the effects it launches and the states it publishes are those
of the plain run in which the same intents are submitted and received one by one
(`run_eq_plain`). It does not matter what is still queued, what effects and subscribers do, or when.

Two engines are `Akin` if the worker can tell no difference between them.
-/

namespace IntentLoop.Engine

variable {σ ι ε : Type} {S : Setup σ ι ε} {e q : Engine σ ι}

/-! ### One intent -/

/-- The worker can tell no difference. -/
structure Akin (e q : Engine σ ι) : Prop where
  worker : e.worker = q.worker
  last : e.broadcast.last = q.broadcast.last
  closed : e.broadcast.closed = q.broadcast.closed
  shutdown : e.shutdown = q.shutdown
  /-- The next effect gets the same number. -/
  effects : e.effects.length = q.effects.length

namespace Akin

theorem trans {r : Engine σ ι} (h : Akin e q) (h' : Akin q r) : Akin e r :=
  ⟨h.worker.trans h'.worker, h.last.trans h'.last, h.closed.trans h'.closed,
    h.shutdown.trans h'.shutdown, h.effects.trans h'.effects⟩

theorem track (h : Akin e q) (effect : Option ε) : Akin (e.track effect) (q.track effect) := by
  cases effect with
  | none => exact h
  | some _ =>
    refine ⟨h.worker, h.last, h.closed, h.shutdown, ?_⟩
    simp [Engine.track, h.effects]

theorem set (h : Akin e q) (worker : Worker σ ι) (inbox inbox' : List ι) (status status' : Status) :
    Akin { e with worker, inbox, status } { q with worker, inbox := inbox', status := status' } :=
  ⟨rfl, h.last, h.closed, h.shutdown, h.effects⟩

theorem publish (S : Setup σ ι ε) (h : Akin e q) (next : σ) :
    (e.publish S next).1 = (q.publish S next).1 ∧
      (e.publish S next).2.2 = (q.publish S next).2.2 ∧
      Akin (e.publish S next).2.1 (q.publish S next).2.1 := by
  rcases publish_cases S next e with ⟨hkept, he⟩ | ⟨hopen, hdiff, he⟩
  · rcases publish_cases S next q with ⟨-, hq⟩ | ⟨hopen, hdiff, -⟩
    · rw [he, hq]
      exact ⟨rfl, rfl, h⟩
    · rw [h.closed, h.last, hopen, hdiff] at hkept
      rcases hkept with hno | hno <;> cases hno
  · rcases publish_cases S next q with ⟨hkept, -⟩ | ⟨-, -, hq⟩
    · rw [← h.closed, ← h.last, hopen, hdiff] at hkept
      rcases hkept with hno | hno <;> cases hno
    · rw [he, hq]
      exact ⟨rfl, rfl, h.worker, rfl, h.closed, h.shutdown, h.effects⟩

/-- **The same comes of an intent.** -/
theorem receive (S : Setup σ ι ε) (h : Akin e q) (state : σ) (previous : Option ι) (i : ι) :
    (e.receive S state previous i).2 = (q.receive S state previous i).2 ∧
      Akin (e.receive S state previous i).1 (q.receive S state previous i).1 := by
  unfold Engine.receive
  rw [h.effects]
  cases hf : fate S state previous i q.effects.length with
  | mk f called =>
  cases f with
  | crashed p => exact ⟨rfl, h.set (.crashed p) [] [] e.status q.status⟩
  | repeated => exact ⟨rfl, h.set (.alive state (some i)) e.inbox q.inbox e.status q.status⟩
  | refused => exact ⟨rfl, h.set (.alive state (some i)) e.inbox q.inbox e.status q.status⟩
  | failed p effect => exact ⟨rfl, (h.track effect).set _ [] [] .halted .halted⟩
  | applied next effect =>
    obtain ⟨hnoticed, hevents, hakin⟩ := (h.track effect).publish S next
    dsimp only
    rw [hnoticed, hevents]
    cases ((q.track effect).publish S next).1 with
    | ok _ => exact ⟨rfl, hakin.set (.alive next (some i)) _ _ _ _⟩
    | error p => exact ⟨rfl, hakin.set (.crashed p) [] [] _ _⟩

end Akin

/-! ### Runs -/

/-- The acts of a run in which intents are submitted and received one by one. -/
def plain (intents : List ι) : List (Act ι) := intents.flatMap fun i => [.submit i, .work]

theorem plain_concat (intents : List ι) (i : ι) :
    plain (intents ++ [i]) = plain intents ++ [.submit i, .work] := by
  simp [plain]

theorem Receipt.receivedIn {state : σ} {previous : Option ι} {i : ι}
    {after : Engine σ ι × List (Event σ ι ε)} (h : Receipt S state previous i e after) :
    receivedIn after.2 = [i] := by
  cases h with
  | crashed p called hd => exact hd.silent.receivedIn_cons i _
  | skipped f called hd _ => exact congrArg (i :: ·) hd.silent.receivedIn_eq_nil
  | failed p effect called hd => exact hd.silent.receivedIn_cons i _
  | kept next effect called hd _ => exact hd.silent.receivedIn_cons i _
  | published next effect called hd _ _ _ =>
    rw [List.append_assoc, hd.silent.receivedIn_cons, receivedIn_append, receivedIn_news]
    rfl
  | unnoticed next effect called p hd _ _ _ =>
    rw [List.append_assoc, hd.silent.receivedIn_cons, receivedIn_append, receivedIn_news]
    rfl

theorem Receipt.inbox {state : σ} {previous : Option ι} {i : ι}
    {after : Engine σ ι × List (Event σ ι ε)} (h : Receipt S state previous i e after)
    (hi : e.inbox = []) : after.1.inbox = [] := by
  have htrack : ∀ effect : Option ε, (e.track effect).inbox = [] := by
    intro effect
    cases effect <;> exact hi
  cases h with
  | crashed => rfl
  | skipped => exact hi
  | failed => rfl
  | kept next effect => exact htrack effect
  | published next effect => exact htrack effect
  | unnoticed => rfl

/-- Of an act that neither is the worker's nor begins a teardown, the worker can tell nothing. -/
theorem step_akin (S : Setup σ ι ε) (e : Engine σ ι) {act : Act ι} (hwork : act ≠ .work)
    (hact : act ≠ .destroy ∧ act ≠ .drop) : Akin (e.step S act).1 e := by
  have hlen := step_length S e hwork
  have apart : Beside e (e.step S act) → Akin (e.step S act).1 e := fun hb =>
    ⟨hb.worker, congrArg _ hb.broadcast, congrArg _ hb.broadcast, hb.shutdown, hlen⟩
  cases act with
  | work => exact absurd rfl hwork
  | submit i => exact apart (e.step_apart S rfl)
  | effect id intents exit => exact apart (e.step_apart S rfl)
  | resume id => exact apart (e.step_apart S rfl)
  | subscribe => exact ⟨rfl, rfl, rfl, rfl, rfl⟩
  | unsubscribe n => exact ⟨rfl, rfl, rfl, rfl, rfl⟩
  | read n => exact ⟨rfl, e.broadcast.read_last n, e.broadcast.read_closed n, rfl, rfl⟩
  | destroy => exact absurd rfl hact.1
  | drop => exact absurd rfl hact.2

/-- An engine and its past, beside a run in which nothing else happened than that the intents were
received. -/
structure Replayed (S : Setup σ ι ε) (e : Engine σ ι) (past : List (Event σ ι ε)) : Prop where
  akin : Akin e (run S (plain (receivedIn past))).1
  work : workIn past = workIn (run S (plain (receivedIn past))).2
  queue : (run S (plain (receivedIn past))).1.inbox = []
  running : e.shutdown = false

theorem work_received (S : Setup σ ι ε) {state : σ} {previous : Option ι} {i : ι} {rest : List ι}
    (hw : e.worker = .alive state previous) (hs : e.shutdown = false) (hi : e.inbox = i :: rest) :
    e.work S = { e with inbox := rest }.receive S state previous i := by
  unfold Engine.work
  rw [hw, hs, hi]
  rfl

namespace Replayed

variable {past : List (Event σ ι ε)}

theorem start (S : Setup σ ι ε) : Replayed S (start S) [] :=
  ⟨⟨rfl, rfl, rfl, rfl, rfl⟩, rfl, rfl, rfl⟩

theorem aside (h : Replayed S e past) {after : Engine σ ι × List (Event σ ι ε)}
    (hakin : Akin after.1 e) (hnone : Workless after.2) : Replayed S after.1 (past ++ after.2) := by
  have hreceived : Engine.receivedIn (past ++ after.2) = Engine.receivedIn past := by
    rw [receivedIn_append, ← receivedIn_workIn after.2, hnone.workIn]
    exact List.append_nil _
  refine ⟨?_, ?_, ?_, hakin.shutdown.trans h.running⟩
  · rw [hreceived]
    exact hakin.trans h.akin
  · rw [hreceived, workIn_append, hnone.workIn, List.append_nil]
    exact h.work
  · rw [hreceived]
    exact h.queue

/-- The plain run receives one more intent. -/
theorem plain_receive (h : Replayed S e past) {state : σ} {previous : Option ι}
    (hw : e.worker = .alive state previous) (i : ι) :
    run S (plain (Engine.receivedIn past ++ [i])) =
      (((run S (plain (Engine.receivedIn past))).1.receive S state previous i).1,
        (run S (plain (Engine.receivedIn past))).2 ++ (.accepted i ::
          ((run S (plain (Engine.receivedIn past))).1.receive S state previous i).2)) := by
  have hw' := h.akin.worker.symm.trans hw
  have hs' := h.akin.shutdown.symm.trans h.running
  have hq := h.queue
  rw [plain_concat, run, runFrom_append, ← run]
  generalize run S (plain (Engine.receivedIn past)) = r at hw' hs' hq ⊢
  obtain ⟨q, told⟩ := r
  have hsubmit : q.step S (.submit i) = ({ q with inbox := [i] }, [.accepted i]) := by
    show q.submit i = _
    rw [submit, isAlive, hw', if_pos rfl, hq]
    rfl
  have hwork : ({ q with inbox := [i] } : Engine σ ι).step S .work =
      q.receive S state previous i := by
    have hsame : ({ q with inbox := [] } : Engine σ ι) = q := by rw [← hq]
    have htake := work_received S (e := { q with inbox := [i] }) hw' hs' rfl
    rwa [hsame] at htake
  rw [runFrom_cons, hsubmit, runFrom_cons, hwork]
  show (_, told ++ .accepted i :: ((q.receive S state previous i).2 ++ [])) = _
  rw [List.append_nil]
  rfl

theorem receive (h : Replayed S e past) {state : σ} {previous : Option ι} {i : ι} {rest : List ι}
    (hw : e.worker = .alive state previous) (hi : e.inbox = i :: rest) :
    Replayed S (e.work S).1 (past ++ (e.work S).2) := by
  have hreceipt := receive_receipt S state previous i { e with inbox := rest }
  have hreceipt' := receive_receipt S state previous i (run S (plain (Engine.receivedIn past))).1
  have hakin : Akin { e with inbox := rest } (run S (plain (Engine.receivedIn past))).1 :=
    ⟨h.akin.worker, h.akin.last, h.akin.closed, h.akin.shutdown, h.akin.effects⟩
  obtain ⟨hsame, hnext⟩ := hakin.receive S state previous i
  rw [work_received S hw h.running hi]
  have hplain := h.plain_receive hw i
  rw [← hreceipt.receivedIn, ← receivedIn_append] at hplain
  refine ⟨?_, ?_, ?_, hreceipt.shutdown.trans h.running⟩
  · rw [hplain]
    exact hnext
  · rw [hplain, workIn_append, workIn_append, h.work, hsame]
    rfl
  · rw [hplain]
    exact hreceipt'.inbox h.queue

theorem step (h : Replayed S e past) {act : Act ι} (hact : act ≠ .destroy ∧ act ≠ .drop) :
    Replayed S (e.step S act).1 (past ++ (e.step S act).2) := by
  by_cases hwork : act = .work
  · subst hwork
    show Replayed S (e.work S).1 (past ++ (e.work S).2)
    have still : e.work S = (e, []) → Replayed S (e.work S).1 (past ++ (e.work S).2) := by
      intro hsame
      rw [hsame]
      exact h.aside ⟨rfl, rfl, rfl, rfl, rfl⟩ fun _ hmem => nomatch hmem
    cases hw : e.worker with
    | alive state previous =>
      cases hi : e.inbox with
      | nil => exact still (by unfold Engine.work; rw [hw, h.running, hi]; rfl)
      | cons i rest => exact h.receive hw hi
    | returned result => exact still (by unfold Engine.work; rw [hw])
    | crashed p => exact still (by unfold Engine.work; rw [hw])
  · exact h.aside (step_akin S e hwork hact) (step_workless S e hwork)

end Replayed

/-- **Runs that receive the same intents do the same work.** -/
theorem replayed_run (S : Setup σ ι ε) {acts : List (Act ι)}
    (h : (run S acts).1.shutdown = false) : Replayed S (run S acts).1 (run S acts).2 := by
  have hnone : ¬(.destroy ∈ acts ∨ .drop ∈ acts) := by
    intro hmem
    have htorn := (runFrom_shutdown S (Engine.start S) acts).mpr (Or.inr hmem)
    rw [← run, h] at htorn
    cases htorn
  refine runFrom_induct (P := fun e past => Replayed S e past) (.start S) ?_
  intro act hmem e past hreplayed
  refine hreplayed.step ⟨?_, ?_⟩
  · rintro rfl
    exact hnone (Or.inl hmem)
  · rintro rfl
    exact hnone (Or.inr hmem)

end IntentLoop.Engine
