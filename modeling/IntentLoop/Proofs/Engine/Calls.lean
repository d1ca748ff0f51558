import IntentLoop.Proofs.Engine.Aftermath
/-!
# Calls of `destroy` on threads

Any number of calls of `destroy` may be under way, and others may come between any two moves of each. The
call that takes the worker waits for it; one that finds the worker taken returns without (`Resumed`). So
while one call waits for the worker another may have returned, and then the worker may still be anywhere in
its work. Without a call that waits, an engine that a call has returned from has lost its worker and is
destroyed (`Staged`).
-/

namespace IntentLoop.Engine.Threads

variable {σ ι ε : Type} {S : Setup σ ι ε} {t : Threads σ ι ε}

/-! ### What an act means for the calls -/

theorem Turned.calls {after : Threads σ ι ε × List (Event σ ι ε)} (h : Turned S t after) :
    after.1.teardowns = t.teardowns ∧ after.1.claimed = t.claimed := by
  cases h <;> exact ⟨rfl, rfl⟩

theorem Untouched.calls {t' : Threads σ ι ε} (h : Untouched t t') :
    t'.teardowns = t.teardowns ∧ t'.claimed = t.claimed := ⟨h.teardowns, h.claimed⟩

theorem step_calls (S : Setup σ ι ε) (t : Threads σ ι ε) {act : Act ι} (hdestroy : act ≠ .destroy)
    (hresume : ∀ id, act ≠ .resume id) :
    (t.step S act).1.teardowns = t.teardowns ∧ (t.step S act).1.claimed = t.claimed := by
  cases act with
  | destroy => exact absurd rfl hdestroy
  | resume id => exact absurd rfl (hresume id)
  | work => exact (work_turned S t).calls
  | submit i => exact (t.submit_untouched i).calls
  | look id => exact (t.look_lived id).untouched.calls
  | send id i => exact (t.send_lived id i).untouched.calls
  | leave id exit => exact (t.leave_lived id exit).untouched.calls
  | subscribe | read | unsubscribe | drop => exact ⟨rfl, rfl⟩
  | silence id =>
    rcases step_silence_cases S t id with hs | hs <;> rw [hs] <;> exact ⟨rfl, rfl⟩
  | signal => rcases step_signal_cases S t with ⟨-, hs⟩ | ⟨-, hs⟩ <;> rw [hs] <;> exact ⟨rfl, rfl⟩

theorem work_dead (S : Setup σ ι ε) (h : t.isAlive = false) : t.work S = (t, []) := by
  unfold work
  cases hw : t.worker with
  | alive state previous =>
    rw [isAlive, hw] at h
    cases h
  | returned | crashed => rfl

theorem step_dead (S : Setup σ ι ε) (h : t.isAlive = false) (act : Act ι) :
    (t.step S act).1.isAlive = false := by
  by_cases hact : act = .work
  · subst hact
    exact (congrArg (fun after => after.1.isAlive) (work_dead S h)).trans h
  · exact (isAlive_of_worker (step_aside S t hact).worker).trans h

theorem isAlive_of_outcome? {result : Except EngineError Unit} (h : t.outcome? = some result) :
    t.isAlive = false := by
  have hsome := t.outcome?_isSome
  rw [h, Option.isSome_some] at hsome
  simpa using hsome.symm

theorem setCall_getElem? {id : Nat} {old : Call} (hold : t.teardowns[id]? = some old) (new : Call)
    (k : Nat) :
    (t.setCall id new).teardowns[k]? = if k = id then some new else t.teardowns[k]? := by
  by_cases hk : k = id
  · subst hk
    rw [if_pos rfl]
    exact List.getElem?_set_self (List.getElem?_eq_some_iff.mp hold).1
  · rw [if_neg hk]
    exact List.getElem?_set_ne (Ne.symm hk)

theorem old_of_setCall {id k : Nat} {new call : Call}
    (h : (t.setCall id new).teardowns[k]? = some call) (hne : call ≠ new) :
    k ≠ id ∧ t.teardowns[k]? = some call :=
  (getElem?_set_cases h).elim (fun hnew => absurd hnew.2 hne) fun hold => hold

theorem getElem?_destroy (S : Setup σ ι ε) (t : Threads σ ι ε) (id : Nat) :
    (t.step S .destroy).1.teardowns[id]? =
      if id = t.teardowns.length then some .awaitingEffects else t.teardowns[id]? :=
  getElem?_append_singleton t.teardowns .awaitingEffects id

theorem call_step (S : Setup σ ι ε) {id : Nat} {call : Call} (h : t.teardowns[id]? = some call)
    {act : Act ι} (hact : act ≠ .resume id) : (t.step S act).1.teardowns[id]? = some call := by
  by_cases hdestroy : act = .destroy
  · subst hdestroy
    rw [getElem?_destroy, if_neg (Nat.ne_of_lt (List.getElem?_eq_some_iff.mp h).1), h]
  by_cases hresume : ∀ k, act ≠ .resume k
  · rw [(step_calls S t hdestroy hresume).1, h]
  · obtain ⟨k, rfl⟩ : ∃ k, act = .resume k := by simpa using hresume
    have hne : id ≠ k := fun heq => hact (heq ▸ rfl)
    have hresumed := t.resume_resumed k
    show (t.resume k).1.teardowns[id]? = some call
    generalize t.resume k = after at hresumed
    cases hresumed with
    | still => exact h
    | freed _ hc | claimed _ hc | spared _ hc | joined _ _ hc =>
      exact (setCall_getElem? hc _ id).trans ((if_neg hne).trans h)

theorem length_calls (S : Setup σ ι ε) (t : Threads σ ι ε) {act : Act ι} (hact : act ≠ .destroy) :
    (t.step S act).1.teardowns.length = t.teardowns.length := by
  by_cases hresume : ∀ id, act ≠ .resume id
  · rw [(step_calls S t hact hresume).1]
  · obtain ⟨id, rfl⟩ : ∃ id, act = .resume id := by simpa using hresume
    have hresumed := t.resume_resumed id
    show (t.resume id).1.teardowns.length = _
    generalize t.resume id = after at hresumed
    cases hresumed with
    | still => rfl
    | freed | claimed | spared | joined => exact List.length_set ..

theorem there_step (S : Setup σ ι ε) (t : Threads σ ι ε) (act : Act ι) :
    t.teardowns.length ≤ (t.step S act).1.teardowns.length := by
  by_cases hdestroy : act = .destroy
  · subst hdestroy
    show _ ≤ (t.teardowns ++ [Call.awaitingEffects]).length
    rw [List.length_append]
    exact Nat.le_add_right _ _
  · exact Nat.le_of_eq (length_calls S t hdestroy).symm

theorem there_runFrom (S : Setup σ ι ε) {id : Nat} (h : id < t.teardowns.length)
    (acts : List (Act ι)) : ∃ call, (t.runFrom S acts).1.teardowns[id]? = some call := by
  have hlt : id < (t.runFrom S acts).1.teardowns.length :=
    runFrom_induct (P := fun t' _ => id < t'.teardowns.length) h
      fun act _ t' _ hlt => Nat.lt_of_lt_of_le hlt (there_step S t' act)
  exact ⟨_, List.getElem?_eq_getElem hlt⟩

theorem returned_step (S : Setup σ ι ε) {id : Nat} {result : Except EngineError Unit}
    (h : t.teardowns[id]? = some (.returned result)) (act : Act ι) :
    (t.step S act).1.teardowns[id]? = some (.returned result) := by
  by_cases hact : act = .resume id
  · subst hact
    have hresumed := t.resume_resumed id
    show (t.resume id).1.teardowns[id]? = some (.returned result)
    generalize t.resume id = after at hresumed
    cases hresumed with
    | still => exact h
    | freed _ hc | claimed _ hc | spared _ hc | joined _ _ hc =>
      rw [h] at hc
      cases hc
  · exact call_step S h hact

/-! ### The status -/

theorem step_status (S : Setup σ ι ε) (t : Threads σ ι ε) {act : Act ι} (hwork : act ≠ .work)
    (hresume : ∀ id, act ≠ .resume id) : (t.step S act).1.status = t.status := by
  cases act with
  | work => exact absurd rfl hwork
  | resume id => exact absurd rfl (hresume id)
  | submit i => exact (t.submit_untouched i).status
  | look id => exact (t.look_lived id).untouched.status
  | send id i => exact (t.send_lived id i).untouched.status
  | leave id exit => exact (t.leave_lived id exit).untouched.status
  | subscribe | read | unsubscribe | destroy | drop => rfl
  | silence id => rcases step_silence_cases S t id with hs | hs <;> rw [hs]
  | signal => rcases step_signal_cases S t with ⟨-, hs⟩ | ⟨-, hs⟩ <;> rw [hs]

theorem Turned.status {after : Threads σ ι ε × List (Event σ ι ε)} (h : Turned S t after) :
    after.1.status = t.status ∨
      t.isAlive = true ∧ after.1.status = .halted ∧ ∃ i p, t.hand = .reported i p := by
  cases h with
  | halts state previous i p hw hh => exact Or.inr ⟨isAlive_of_alive hw, rfl, i, p, hh⟩
  | _ => exact Or.inl rfl

/-! ### The close -/

theorem closed_of_step (S : Setup σ ι ε) (t : Threads σ ι ε) (act : Act ι)
    (h : (t.step S act).1.broadcast.closed = true) :
    t.broadcast.closed = true ∨ act.begins = true := by
  have same : ∀ {after : Threads σ ι ε × List (Event σ ι ε)}, after.1.broadcast = t.broadcast →
      after.1.broadcast.closed = true → t.broadcast.closed = true := fun hb hc => hb ▸ hc
  cases act with
  | destroy | drop => exact Or.inr rfl
  | submit i => exact Or.inl (same (t.submit_untouched i).broadcast h)
  | look id => exact Or.inl (same (t.look_lived id).untouched.broadcast h)
  | send id i => exact Or.inl (same (t.send_lived id i).untouched.broadcast h)
  | leave id exit => exact Or.inl (same (t.leave_lived id exit).untouched.broadcast h)
  | resume id => exact Or.inl (same (t.resume_resumed id).broadcast h)
  | subscribe | unsubscribe => exact Or.inl h
  | read n => exact Or.inl ((t.broadcast.read_closed n).symm.trans h)
  | silence id => rcases step_silence_cases S t id with hs | hs <;> rw [hs] at h <;> exact Or.inl h
  | signal => rcases step_signal_cases S t with ⟨-, hs⟩ | ⟨-, hs⟩ <;> rw [hs] at h <;> exact Or.inl h
  | work =>
    refine Or.inl ?_
    have hturned := work_turned S t
    have hclosed : (t.work S).1.broadcast.closed = true := h
    generalize t.work S = after at hturned hclosed
    cases hturned with
    | publishes state previous i next _ _ hopen hdiff =>
      simp [Broadcast.publish, hopen, hdiff] at hclosed
    | _ => exact hclosed

/-! ### What a call has waited for -/

/-- A call of `destroy` is waiting for the worker. -/
def Awaited (t : Threads σ ι ε) : Prop := ∃ taker : Nat, t.teardowns[taker]? = some .awaitingWorker

/-- What has happened by the stages of the calls of `destroy`. -/
structure Staged (t : Threads σ ι ε) : Prop where
  shut : t.broadcast.closed = true → t.broadcast.Shut
  closed : t.shutdown = true → t.broadcast.closed = true
  signalled : ∀ (id : Nat) (call : Call), t.teardowns[id]? = some call → call ≠ .awaitingEffects →
    t.shutdown = true
  /-- Only the call that has taken the worker waits for it. -/
  taken : ∀ id : Nat, t.teardowns[id]? = some .awaitingWorker → t.claimed = true
  one : ∀ id k : Nat, t.teardowns[id]? = some .awaitingWorker →
    t.teardowns[k]? = some .awaitingWorker → id = k
  spared : ∀ (id : Nat) (result : Except EngineError Unit), t.teardowns[id]? = some (.returned result) →
    t.claimed = true
  joined : t.claimed = true → t.isAlive = false ∨ t.Awaited
  destroyed : ∀ (id : Nat) (result : Except EngineError Unit),
    t.teardowns[id]? = some (.returned result) → t.status = .destroyed ∨ t.Awaited

namespace Staged

theorem start (S : Setup σ ι ε) : Staged (start S) where
  shut h := nomatch h
  closed h := nomatch h
  signalled _ _ h := nomatch h
  taken _ h := nomatch h
  one _ _ h := nomatch h
  spared _ _ h := nomatch h
  joined h := nomatch h
  destroyed _ _ h := nomatch h

theorem shut_step (h : Staged t) (act : Act ι) (hclosed : (t.step S act).1.broadcast.closed = true) :
    (t.step S act).1.broadcast.Shut := by
  by_cases hbegins : act.begins = true
  · rw [(step_begins S t hbegins).1]
    exact t.broadcast.shut_close
  · have hshut := h.shut ((closed_of_step S t act hclosed).resolve_right hbegins)
    -- any stream but one that its reader leaves
    obtain ⟨n, hn⟩ : ∃ n, act ≠ .unsubscribe n := by
      cases act with
      | unsubscribe k => exact ⟨k + 1, fun heq => absurd (Act.unsubscribe.inj heq) (by omega)⟩
      | _ => exact ⟨0, nofun⟩
    exact (step_shut S hshut hn).1

end Staged

theorem shutdown_of_step (S : Setup σ ι ε) (t : Threads σ ι ε) (act : Act ι)
    (h : (t.step S act).1.shutdown = true) :
    t.shutdown = true ∨ act = .signal ∧ t.broadcast.closed = true := by
  have resumed : ∀ {id after}, Resumed id t after → after.1.shutdown = t.shutdown := by
    intro id after hr
    cases hr <;> rfl
  cases act with
  | submit i => exact Or.inl ((t.submit_untouched i).shutdown.symm.trans h)
  | work => exact Or.inl ((work_turned S t).shutdown.symm.trans h)
  | look id => exact Or.inl ((t.look_lived id).untouched.shutdown.symm.trans h)
  | send id i => exact Or.inl ((t.send_lived id i).untouched.shutdown.symm.trans h)
  | leave id exit => exact Or.inl ((t.leave_lived id exit).untouched.shutdown.symm.trans h)
  | resume id => exact Or.inl ((resumed (t.resume_resumed id)).symm.trans h)
  | subscribe | read | unsubscribe | destroy | drop => exact Or.inl h
  | silence id =>
    rcases step_silence_cases S t id with hs | hs <;> rw [hs] at h <;> exact Or.inl h
  | signal =>
    rcases step_signal_cases S t with ⟨-, hs⟩ | ⟨hclosed, -⟩
    · exact Or.inl (by rwa [hs] at h)
    · exact Or.inr ⟨rfl, hclosed⟩

/-- A call that does not wait for the worker leaves the one that does. -/
theorem Awaited.setCall {id : Nat} {old : Call} (h : t.Awaited) (hold : t.teardowns[id]? = some old)
    (hne : old ≠ .awaitingWorker) (new : Call) : (t.setCall id new).Awaited := by
  obtain ⟨taker, ht⟩ := h
  refine ⟨taker, (setCall_getElem? hold new taker).trans ?_⟩
  rw [if_neg]
  · exact ht
  · rintro rfl
    exact hne (Option.some.inj (hold.symm.trans ht))

theorem Awaited.of_calls {t' : Threads σ ι ε} (h : t'.teardowns = t.teardowns) (ha : t.Awaited) :
    t'.Awaited := by
  rwa [Awaited, h]

namespace Staged

theorem step_others (h : Staged t) {act : Act ι} (hdestroy : act ≠ .destroy)
    (hresume : ∀ id, act ≠ .resume id) : Staged (t.step S act).1 := by
  obtain ⟨hcalls, hclaimed⟩ := step_calls S t hdestroy hresume
  have hkeeps : t.Awaited → (t.step S act).1.Awaited := Awaited.of_calls hcalls
  refine ⟨h.shut_step act, fun hs => ?_, ?_, ?_, ?_, ?_, ?_, ?_⟩
  · exact step_closed S ((shutdown_of_step S t act hs).elim h.closed And.right) act
  · rw [hcalls]
    exact fun id call hc hne => step_shutdown S (h.signalled id call hc hne) act
  · rw [hcalls, hclaimed]
    exact h.taken
  · rw [hcalls]
    exact h.one
  · rw [hcalls, hclaimed]
    exact h.spared
  · rw [hclaimed]
    exact fun hc => (h.joined hc).imp (fun hdead => step_dead S hdead act) hkeeps
  · rw [hcalls]
    intro id result hret
    by_cases hwork : act = .work
    · subst hwork
      rcases (work_turned S t).status with hs | ⟨halive, -⟩
      · exact (h.destroyed id result hret).imp hs.trans hkeeps
      · -- a worker that halts when a call has returned is awaited by another
        rcases h.joined (h.spared id result hret) with hdead | ha
        · rw [halive] at hdead
          cases hdead
        · exact Or.inr (hkeeps ha)
    · exact (h.destroyed id result hret).imp (step_status S t hwork hresume).trans hkeeps

theorem step_destroy (h : Staged t) : Staged (t.step S .destroy).1 := by
  -- of the calls there are now, only the new one was not there before
  have hold : ∀ {id : Nat} {call : Call}, call ≠ .awaitingEffects →
      (t.step S .destroy).1.teardowns[id]? = some call → t.teardowns[id]? = some call := by
    intro id call hne hc
    rw [getElem?_destroy] at hc
    split at hc
    · exact absurd (Option.some.inj hc).symm hne
    · exact hc
  have hkeeps : t.Awaited → (t.step S .destroy).1.Awaited := by
    rintro ⟨taker, ht⟩
    refine ⟨taker, ?_⟩
    rw [getElem?_destroy, if_neg (Nat.ne_of_lt (List.getElem?_eq_some_iff.mp ht).1)]
    exact ht
  refine ⟨h.shut_step .destroy, fun _ => rfl, fun id call hc hne => ?_, ?_, ?_, ?_, ?_, ?_⟩
  · exact h.signalled id call (hold hne hc) hne
  · exact fun id hc => h.taken id (hold nofun hc)
  · exact fun id k hid hk => h.one id k (hold nofun hid) (hold nofun hk)
  · exact fun id result hc => h.spared id result (hold nofun hc)
  · exact fun hc => (h.joined hc).imp_right hkeeps
  · exact fun id result hc => (h.destroyed id result (hold nofun hc)).imp_right hkeeps

theorem step_resume (h : Staged t) (id : Nat) : Staged (t.resume id).1 := by
  have hresumed := t.resume_resumed id
  generalize t.resume id = after at hresumed
  cases hresumed with
  | still => exact h
  | freed hs hc hn =>
    exact
      { shut := h.shut
        closed := h.closed
        signalled := fun _ _ _ _ => hs
        taken := fun k hk => h.taken k (old_of_setCall hk nofun).2
        one := fun k m hk hm => h.one k m (old_of_setCall hk nofun).2 (old_of_setCall hm nofun).2
        spared := fun k result hk => h.spared k result (old_of_setCall hk nofun).2
        joined := fun hyes => (h.joined hyes).imp_right fun ha => ha.setCall hc nofun _
        destroyed := fun k result hk =>
          (h.destroyed k result (old_of_setCall hk nofun).2).imp_right fun ha => ha.setCall hc nofun _ }
  | claimed hs hc hno =>
    -- no other call has the worker
    have hnone : ∀ k : Nat, t.teardowns[k]? ≠ some .awaitingWorker := by
      intro k hk
      have hyes := h.taken k hk
      rw [hno] at hyes
      cases hyes
    have htaker : ∀ k : Nat, (t.setCall id .awaitingWorker).teardowns[k]? = some .awaitingWorker →
        k = id := fun k hk =>
      (getElem?_set_cases hk).elim And.left fun hold => absurd hold.2 (hnone k)
    have hawaited : (t.setCall id .awaitingWorker).Awaited :=
      ⟨id, (setCall_getElem? hc _ id).trans (if_pos rfl)⟩
    exact
      { shut := h.shut
        closed := h.closed
        signalled := fun _ _ _ _ => hs
        taken := fun _ _ => rfl
        one := fun k m hk hm => (htaker k hk).trans (htaker m hm).symm
        spared := fun _ _ _ => rfl
        joined := fun _ => Or.inr hawaited
        destroyed := fun _ _ _ => Or.inr hawaited }
  | spared hs hc hyes =>
    exact
      { shut := h.shut
        closed := h.closed
        signalled := fun _ _ _ _ => hs
        taken := fun _ _ => hyes
        one := fun k m hk hm => h.one k m (old_of_setCall hk nofun).2 (old_of_setCall hm nofun).2
        spared := fun _ _ _ => hyes
        joined := fun _ => (h.joined hyes).imp_right fun ha => ha.setCall hc nofun _
        destroyed := fun _ _ _ => Or.inl rfl }
  | joined result hs hc ho =>
    have hyes := h.taken id hc
    -- the call that returns was the only one that waited for the worker
    have hnone : ∀ k : Nat, (t.setCall id (.returned result)).teardowns[k]? ≠ some .awaitingWorker :=
      fun k hk =>
        have hold := old_of_setCall hk nofun
        hold.1 (h.one k id hold.2 hc)
    exact
      { shut := h.shut
        closed := h.closed
        signalled := fun _ _ _ _ => hs
        taken := fun _ _ => hyes
        one := fun k _ hk _ => absurd hk (hnone k)
        spared := fun _ _ _ => hyes
        joined := fun _ => Or.inl (isAlive_of_outcome? ho)
        destroyed := fun _ _ _ => Or.inl rfl }

theorem step (h : Staged t) (act : Act ι) : Staged (t.step S act).1 := by
  by_cases hdestroy : act = .destroy
  · subst hdestroy
    exact h.step_destroy
  by_cases hresume : ∀ id, act ≠ .resume id
  · exact h.step_others hdestroy hresume
  · obtain ⟨id, rfl⟩ : ∃ id, act = .resume id := by simpa using hresume
    exact h.step_resume id

theorem runFrom (h : Staged t) (acts : List (Act ι)) : Staged (t.runFrom S acts).1 :=
  runFrom_induct (P := fun t' _ => Staged t') h fun act _ _ _ h' => h'.step act

end Staged

theorem staged_run (S : Setup σ ι ε) (acts : List (Act ι)) : Staged (run S acts).1 :=
  (Staged.start S).runFrom acts

/-! ### Calls that have found no effect left -/

/-- A call of `destroy` that waits for effects no longer has found none left. -/
theorem freed_of_step (S : Setup σ ι ε) (t : Threads σ ι ε) (act : Act ι) {id : Nat} {call : Call}
    (h : (t.step S act).1.teardowns[id]? = some call) (hcall : call ≠ .awaitingEffects) :
    (∃ old, t.teardowns[id]? = some old ∧ old ≠ .awaitingEffects) ∨
      (t.shutdown = true ∧ t.active = 0 ∧ act = .resume id) := by
  by_cases hdestroy : act = .destroy
  · subst hdestroy
    rw [getElem?_destroy] at h
    split at h
    · cases h
      exact absurd rfl hcall
    · exact Or.inl ⟨call, h, hcall⟩
  by_cases hresume : ∀ k, act ≠ .resume k
  · rw [(step_calls S t hdestroy hresume).1] at h
    exact Or.inl ⟨call, h, hcall⟩
  obtain ⟨k, rfl⟩ : ∃ k, act = .resume k := by simpa using hresume
  -- where the call that goes on has come from
  have moved : ∀ {old new : Call}, t.teardowns[k]? = some old → old ≠ .awaitingEffects →
      (t.setCall k new).teardowns[id]? = some call →
      ∃ old, t.teardowns[id]? = some old ∧ old ≠ .awaitingEffects := by
    intro old new hold hne hset
    rcases getElem?_set_cases hset with ⟨rfl, -⟩ | ⟨-, hsame⟩
    · exact ⟨old, hold, hne⟩
    · exact ⟨call, hsame, hcall⟩
  have hresumed := t.resume_resumed k
  change (t.resume k).1.teardowns[id]? = some call at h
  generalize t.resume k = after at h hresumed
  cases hresumed with
  | still => exact Or.inl ⟨call, h, hcall⟩
  | freed hs hc hn =>
    rcases getElem?_set_cases h with ⟨rfl, -⟩ | ⟨-, hsame⟩
    · exact Or.inr ⟨hs, hn, rfl⟩
    · exact Or.inl ⟨call, hsame, hcall⟩
  | claimed _ hc | spared _ hc | joined _ _ hc => exact Or.inl (moved hc nofun h)

/-- Once a call of `destroy` has found no effect left, no effect is polled any more. -/
def Cleared (t : Threads σ ι ε) : Prop :=
  ∀ (id : Nat) (call : Call), t.teardowns[id]? = some call → call ≠ .awaitingEffects →
    t.shutdown = true ∧ ∀ k : Nat, t.effects[k]? ≠ some .polled

theorem Cleared.step (h : Cleared t) (S : Setup σ ι ε) (act : Act ι) : Cleared (t.step S act).1 := by
  intro id call hc hcall
  have hbefore : t.shutdown = true ∧ ∀ k : Nat, t.effects[k]? ≠ some .polled := by
    rcases freed_of_step S t act hc hcall with ⟨old, hold, hne⟩ | ⟨hs, hnone, -⟩
    · exact h id old hold hne
    · refine ⟨hs, fun k hk => ?_⟩
      exact List.countP_eq_zero.mp hnone _ (List.mem_of_getElem? hk) rfl
  obtain ⟨hs, hnone⟩ := hbefore
  refine ⟨step_shutdown S hs act, fun k hk => ?_⟩
  rcases polled_step S hk with ⟨hold, -⟩ | ⟨-, hno⟩
  · exact hnone k hold
  · rw [isSignalled, hs] at hno
    cases hno

end IntentLoop.Engine.Threads
