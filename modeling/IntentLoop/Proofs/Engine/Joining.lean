import IntentLoop.Proofs.Engine.Health
import IntentLoop.Proofs.Engine.Closing
/-!
# Who awaits the worker

Any number of calls of `destroy` may be under way. All of them wait for the effects, but the worker can
be awaited once only: the first call that finds all effects ended takes it, and the others return
without it (`takersFrom`, `Delivery`). Until the call that took the worker has returned, another one may
therefore return while the worker has yet to look at the signal, and what is submitted then is accepted.
`destroyed_unless_awaited` says just when an engine that a call of `destroy` has left is stopped, and
`returned_before_worker` is a run in which it is not.
-/

namespace IntentLoop.Engine

variable {σ ι ε : Type} {S : Setup σ ι ε} {e : Engine σ ι}

/-! ### Lists in which one entry changes -/

theorem count_set_add {β : Type} [DecidableEq β] {l : List β} {i : Nat} {old : β}
    (h : l[i]? = some old) (new b : β) :
    (l.set i new).count b + (if old = b then 1 else 0) =
      l.count b + (if new = b then 1 else 0) := by
  obtain ⟨hi, hold⟩ := List.getElem?_eq_some_iff.mp h
  have hpos : old = b → 0 < l.count b := by
    rintro rfl
    exact List.count_pos_iff.mpr (List.mem_of_getElem? h)
  rw [List.count_set hi, hold]
  by_cases ho : old = b
  · have := hpos ho
    simp only [ho, beq_self_eq_true, if_true, beq_iff_eq]
    omega
  · simp [ho]

/-! ### Under the signal -/

theorem endEffect_active {id : Nat} (h : e.effects[id]? = some .running) (how : Ending) :
    (e.endEffect id how : Engine σ ι × List (Event σ ι ε)).1.active + 1 = e.active :=
  count_set_add h (.ended how) .running

theorem work_signalled (S : Setup σ ι ε) (hs : e.shutdown = true) (halive : e.isAlive = true) :
    e.work S = (e.retire (.returned (.ok ())), []) := by
  unfold isAlive at halive
  unfold work
  split
  · rw [if_pos hs]
  all_goals simp [*] at halive

theorem Moved.active {id : Nat} {intents : List ι} {after : Engine σ ι × List (Event σ ι ε)}
    (h : Moved id intents e after) (hs : e.shutdown = true) : after.1.active ≤ e.active := by
  cases h with
  | still => exact Nat.le_refl _
  | cancelled hr => exact Nat.le_of_succ_le (Nat.le_of_eq (endEffect_active (ε := ε) hr .cancelled))
  | waits _ hrun =>
    rw [hs] at hrun
    cases hrun
  | ends how _ hrun =>
    rw [hs] at hrun
    cases hrun

theorem step_active (S : Setup σ ι ε) (hs : e.shutdown = true) (act : Act ι) :
    (e.step S act).1.active ≤ e.active := by
  have same : ∀ {after : Engine σ ι × List (Event σ ι ε)}, after.1.effects = e.effects →
      after.1.active ≤ e.active := by
    intro after heffects
    rw [active, heffects, ← active]
  cases act with
  | work => exact same (Resting.work (Or.inr hs) (work_worked S e)).2.2.2
  | submit i =>
    refine same ?_
    show (e.submit i : Engine σ ι × List (Event σ ι ε)).1.effects = e.effects
    unfold submit
    split <;> rfl
  | effect id intents exit => exact (e.moveEffect_moved id intents exit).active hs
  | resume id => exact same (e.resume_resumed id).effects
  | subscribe | read | unsubscribe | destroy | drop => exact same rfl

/-! ### Acts that are not of teardowns -/

theorem track_claimed (effect : Option ε) (e : Engine σ ι) :
    (e.track effect).claimed = e.claimed := by
  cases effect <;> rfl

theorem Worked.claimed {after : Engine σ ι × List (Event σ ι ε)} (h : Worked S e after) :
    after.1.claimed = e.claimed := by
  cases h with
  | ended | stopped | idle => rfl
  | received state previous _ _ i rest _ hr =>
    cases hr with
    | crashed | skipped => rfl
    | failed p effect => exact track_claimed effect _
    | kept next effect => exact track_claimed effect _
    | published next effect => exact track_claimed effect _
    | unnoticed next effect => exact track_claimed effect _

theorem Moved.claimed {id : Nat} {intents : List ι} {after : Engine σ ι × List (Event σ ι ε)}
    (h : Moved id intents e after) : after.1.claimed = e.claimed := by
  have hsent : (e.submitAll intents : Engine σ ι × List (Event σ ι ε)).1.claimed = e.claimed := by
    unfold submitAll
    split <;> rfl
  cases h with
  | still | cancelled => rfl
  | waits | ends => exact hsent

theorem step_untouched (S : Setup σ ι ε) (e : Engine σ ι) {act : Act ι} (hdestroy : act ≠ .destroy)
    (hresume : ∀ id, act ≠ .resume id) :
    (e.step S act).1.teardowns = e.teardowns ∧ (e.step S act).1.claimed = e.claimed := by
  cases act with
  | destroy => exact absurd rfl hdestroy
  | resume id => exact absurd rfl (hresume id)
  | work => exact ⟨(work_worked S e).teardowns, (work_worked S e).claimed⟩
  | submit i =>
    show (e.submit i : Engine σ ι × List (Event σ ι ε)).1.teardowns = e.teardowns ∧
      (e.submit i : Engine σ ι × List (Event σ ι ε)).1.claimed = e.claimed
    unfold submit
    split <;> exact ⟨rfl, rfl⟩
  | effect id intents exit =>
    have hmoved := e.moveEffect_moved (ε := ε) id intents exit
    exact ⟨hmoved.teardowns, hmoved.claimed⟩
  | subscribe | read | unsubscribe | drop => exact ⟨rfl, rfl⟩

theorem getElem?_destroy (S : Setup σ ι ε) (e : Engine σ ι) (id : Nat) :
    (e.step S .destroy).1.teardowns[id]? =
      if id = e.teardowns.length then some .awaitingEffects else e.teardowns[id]? :=
  getElem?_append_singleton e.teardowns .awaitingEffects id

theorem step_worker (S : Setup σ ι ε) (h : e.isAlive = false) (act : Act ι) :
    (e.step S act).1.worker = e.worker := by
  by_cases hact : act = .work
  · subst hact
    exact congrArg (fun after => after.1.worker) (work_dead S h)
  · exact (step_others S e hact).1

theorem isAlive_of_outcome? {result : Except EngineError Unit} (h : e.outcome? = some result) :
    e.isAlive = false := by
  unfold outcome? at h
  unfold isAlive
  cases hw : e.worker with
  | alive state previous =>
    rw [hw] at h
    cases h
  | returned | crashed => rfl

theorem step_outcome? (S : Setup σ ι ε) {result : Except EngineError Unit}
    (h : e.outcome? = some result) (act : Act ι) : (e.step S act).1.outcome? = some result := by
  rw [outcome?, step_worker S (isAlive_of_outcome? h) act, ← outcome?, h]

/-! ### The call that takes the worker -/

/-- The call of `destroy` that takes the worker in the act, if one does. -/
def takes (e : Engine σ ι) : Act ι → List Nat
  | .resume id =>
    if e.teardowns[id]? = some Teardown.awaitingEffects ∧ e.active = 0 ∧ e.claimed = false then [id]
    else []
  | _ => []

/-- The calls of `destroy` that take the worker in a run. -/
def takersFrom (S : Setup σ ι ε) (e : Engine σ ι) : List (Act ι) → List Nat
  | [] => []
  | act :: acts => e.takes act ++ takersFrom S (e.step S act).1 acts

/-- Where the calls of `destroy` stand, some having taken the worker so far. -/
inductive Delivery (e : Engine σ ι) : List Nat → Prop
  | waiting (hc : e.claimed = false)
      (hall : ∀ (id : Nat) (t : Teardown), e.teardowns[id]? = some t → t = .awaitingEffects) :
      Delivery e []
  /-- One has, and it returns what the worker leaves. The others have nothing to tell. -/
  | taken (taker : Nat) (hc : e.claimed = true)
      (htaker : e.teardowns[taker]? = some .awaitingWorker ∨
        ∃ result, e.outcome? = some result ∧ e.teardowns[taker]? = some (.returned result))
      (hothers : ∀ (id : Nat) (t : Teardown), id ≠ taker → e.teardowns[id]? = some t →
        t = .awaitingEffects ∨ t = .returned (.ok ())) : Delivery e [taker]

namespace Delivery

variable {takers : List Nat}

theorem start (S : Setup σ ι ε) : Delivery (start S) [] := .waiting rfl nofun

theorem aside (h : Delivery e takers) {act : Act ι} (hdestroy : act ≠ .destroy)
    (hresume : ∀ id, act ≠ .resume id) : Delivery (e.step S act).1 (takers ++ e.takes act) := by
  obtain ⟨hteardowns, hclaimed⟩ := step_untouched S e hdestroy hresume
  have hnone : e.takes act = [] := by
    cases act with
    | resume id => exact absurd rfl (hresume id)
    | submit | work | effect | subscribe | read | unsubscribe | destroy | drop => rfl
  rw [hnone, List.append_nil]
  cases h with
  | waiting hc hall => exact .waiting (hclaimed.trans hc) (hteardowns ▸ hall)
  | taken taker hc htaker hothers =>
    refine .taken taker (hclaimed.trans hc) ?_ (hteardowns ▸ hothers)
    rw [hteardowns]
    exact htaker.imp_right fun ⟨result, hr, ht⟩ => ⟨result, step_outcome? S hr act, ht⟩

theorem begun (h : Delivery e takers) : Delivery (e.step S .destroy).1 takers := by
  have hold : ∀ {id : Nat} {t : Teardown}, e.teardowns[id]? = some t →
      (e.step S .destroy).1.teardowns[id]? = some t := by
    intro id t ht
    rw [getElem?_destroy, if_neg (Nat.ne_of_lt (List.getElem?_eq_some_iff.mp ht).1), ht]
  cases h with
  | waiting hc hall =>
    refine .waiting hc fun id t ht => ?_
    rw [getElem?_destroy] at ht
    split at ht
    · exact (Option.some.inj ht).symm
    · exact hall id t ht
  | taken taker hc htaker hothers =>
    refine .taken taker hc ?_ ?_
    · rcases htaker with ht | ⟨result, hr, ht⟩
      · exact Or.inl (hold ht)
      · exact Or.inr ⟨result, hr, hold ht⟩
    · intro id t hid ht
      rw [getElem?_destroy] at ht
      split at ht
      · exact Or.inl (Option.some.inj ht).symm
      · exact hothers id t hid ht

theorem take (h : Delivery e takers) {id : Nat} (ht : e.teardowns[id]? = some .awaitingEffects)
    (hc : e.claimed = false) :
    Delivery { e with claimed := true, teardowns := e.teardowns.set id .awaitingWorker }
      (takers ++ [id]) := by
  cases h with
  | taken taker hc' =>
    rw [hc] at hc'
    cases hc'
  | waiting _ hall =>
    refine .taken id rfl (Or.inl ?_) ?_
    · exact List.getElem?_set_self (List.getElem?_eq_some_iff.mp ht).1
    · intro k t hk hother
      rcases getElem?_set_cases hother with ⟨hself, -⟩ | ⟨-, hold⟩
      · exact absurd hself hk
      · exact Or.inl (hall k t hold)

/-- A call returns without the worker, which another one has taken. -/
theorem spare (h : Delivery e takers) {id : Nat} (ht : e.teardowns[id]? = some .awaitingEffects)
    (hc : e.claimed = true) :
    Delivery (e.finishTeardown id (.ok ()) : Engine σ ι × List (Event σ ι ε)).1 takers := by
  cases h with
  | waiting hc' =>
    rw [hc] at hc'
    cases hc'
  | taken taker _ htaker hothers =>
    have hne : id ≠ taker := by
      rintro rfl
      rcases htaker with hw | ⟨result, -, hr⟩
      · rw [ht] at hw
        cases hw
      · rw [ht] at hr
        cases hr
    have hstays : (e.teardowns.set id (.returned (.ok ())))[taker]? = e.teardowns[taker]? :=
      List.getElem?_set_ne hne
    refine .taken taker hc ?_ ?_
    · exact htaker.imp hstays.trans fun ⟨result, hr, hw⟩ => ⟨result, hr, hstays.trans hw⟩
    · intro k t hk hother
      rcases getElem?_set_cases hother with ⟨-, hnew⟩ | ⟨-, hold⟩
      · exact Or.inr hnew
      · exact hothers k t hk hold

theorem join (h : Delivery e takers) {id : Nat} {result : Except EngineError Unit}
    (ht : e.teardowns[id]? = some .awaitingWorker) (hr : e.outcome? = some result) :
    Delivery (e.finishTeardown id result : Engine σ ι × List (Event σ ι ε)).1 takers := by
  cases h with
  | waiting _ hall => cases hall id _ ht
  | taken taker hc htaker hothers =>
    obtain rfl : id = taker := by
      by_contra hne
      rcases hothers id _ hne ht with hw | hw <;> cases hw
    refine .taken id hc (Or.inr ⟨result, hr, ?_⟩) ?_
    · exact List.getElem?_set_self (List.getElem?_eq_some_iff.mp ht).1
    · intro k t hk hother
      rcases getElem?_set_cases hother with ⟨hself, -⟩ | ⟨-, hold⟩
      · exact absurd hself hk
      · exact hothers k t hk hold

theorem resumed (h : Delivery e takers) (id : Nat) :
    Delivery (e.step S (.resume id)).1 (takers ++ e.takes (.resume id)) := by
  have hresumed := e.resume_resumed (ε := ε) id
  show Delivery (e.resume id : Engine σ ι × List (Event σ ι ε)).1 _
  by_cases htake :
      e.teardowns[id]? = some Teardown.awaitingEffects ∧ e.active = 0 ∧ e.claimed = false
  · obtain ⟨ht, hn, hc⟩ := htake
    have htakes : e.takes (.resume id) = [id] := if_pos ⟨ht, hn, hc⟩
    have hresume : e.resume id = ({ e with
        claimed := true
        teardowns := e.teardowns.set id .awaitingWorker }, ([] : List (Event σ ι ε))) := by
      simp [resume, ht, hn, hc]
    rw [htakes, hresume]
    exact h.take ht hc
  · have htakes : e.takes (.resume id) = [] := if_neg htake
    rw [htakes, List.append_nil]
    generalize (e.resume id : Engine σ ι × List (Event σ ι ε)) = after at hresumed ⊢
    cases hresumed with
    | still => exact h
    | claimed ht hn hc => exact absurd ⟨ht, hn, hc⟩ htake
    | spared ht _ hc => exact h.spare ht hc
    | joined result ht hr => exact h.join ht hr

theorem step (h : Delivery e takers) (act : Act ι) :
    Delivery (e.step S act).1 (takers ++ e.takes act) := by
  cases act with
  | destroy => exact (List.append_nil takers).symm ▸ h.begun
  | resume id => exact h.resumed id
  | submit | work | effect | subscribe | read | unsubscribe | drop => exact h.aside nofun nofun

theorem runFrom (h : Delivery e takers) (acts : List (Act ι)) :
    Delivery (e.runFrom S acts).1 (takers ++ takersFrom S e acts) := by
  induction acts generalizing e takers with
  | nil => exact (List.append_nil takers).symm ▸ h
  | cons act rest ih =>
    rw [runFrom_cons, takersFrom, ← List.append_assoc]
    exact ih (h.step act)

end Delivery

/-- **At most one call of `destroy` takes the worker**, and the others tell nothing. -/
theorem delivery_run (S : Setup σ ι ε) (acts : List (Act ι)) :
    Delivery (run S acts).1 (takersFrom S (start S) acts) :=
  (Delivery.start S).runFrom acts

/-! ### What a call of `destroy` has waited for -/

/-- What has happened by the stages of the calls of `destroy`. -/
structure Staged (e : Engine σ ι) : Prop where
  signalled : e.teardowns ≠ [] → e.shutdown = true
  shut : e.shutdown = true → e.broadcast.Shut
  drained : ∀ (id : Nat) (t : Teardown), e.teardowns[id]? = some t → t ≠ .awaitingEffects →
    e.active = 0
  destroyed : ∀ (id : Nat) (result : Except EngineError Unit),
    e.teardowns[id]? = some (.returned result) → e.status = .destroyed

theorem Staged.signalled_of_getElem? (h : Staged e) {id : Nat} {t : Teardown}
    (ht : e.teardowns[id]? = some t) : e.shutdown = true := by
  refine h.signalled fun hnil => ?_
  rw [hnil] at ht
  cases ht

theorem step_status (S : Setup σ ι ε) (hs : e.shutdown = true) (act : Act ι) :
    (e.step S act).1.status = e.status ∨ (e.step S act).1.status = .destroyed := by
  by_cases hact : act = .work
  · subst hact
    left
    show (e.work S).1.status = e.status
    cases halive : e.isAlive with
    | true => rw [work_signalled S hs halive]; rfl
    | false => rw [work_dead S halive]
  · exact (step_settled S e hact).imp_right And.left

/-- The moves that a call of `destroy` has still to make, at most. -/
def Teardown.moves : Teardown → Nat
  | .awaitingEffects => 2
  | .awaitingWorker => 1
  | .returned _ => 0

/-- A call of `destroy` goes on if it can, and has fewer moves to make then. -/
theorem resume_cases (id : Nat) (e : Engine σ ι) :
    (e.canResume id = false ∧ e.resume id = (e, ([] : List (Event σ ι ε)))) ∨
      e.canResume id = true ∧ ∃ old new, e.teardowns[id]? = some old ∧ new.moves < old.moves ∧
        (old = .awaitingEffects → e.active = 0) ∧
        (e.resume id : Engine σ ι × List (Event σ ι ε)).1.teardowns = e.teardowns.set id new ∧
        ∀ result, new = .returned result →
          (e.resume id : Engine σ ι × List (Event σ ι ε)).1.status = .destroyed := by
  unfold canResume resume
  cases ht : e.teardowns[id]? with
  | none => exact Or.inl ⟨rfl, rfl⟩
  | some t =>
    cases t with
    | returned result => exact Or.inl ⟨rfl, rfl⟩
    | awaitingEffects =>
      by_cases hn : e.active = 0
      · right
        cases hc : e.claimed with
        | true =>
          refine ⟨by simp [hn], _, .returned (.ok ()), rfl, Nat.two_pos, fun _ => hn, ?_, ?_⟩
          · simp [hn, finishTeardown]
          · simp [hn, finishTeardown]
        | false =>
          refine ⟨by simp [hn], _, .awaitingWorker, rfl, Nat.one_lt_two, fun _ => hn, ?_,
            fun _ hnew => by cases hnew⟩
          simp [hn]
      · exact Or.inl (by simp [hn])
    | awaitingWorker =>
      cases hr : e.outcome? with
      | none =>
        have halive : e.isAlive = true := by
          unfold outcome? at hr
          unfold isAlive
          cases hw : e.worker with
          | alive state previous => rfl
          | returned | crashed => simp [hw] at hr
        exact Or.inl ⟨by simp [halive], rfl⟩
      | some result =>
        have hdead := isAlive_of_outcome? hr
        exact Or.inr ⟨by simp [hdead], _, .returned result, rfl, Nat.one_pos,
          (fun hold => by cases hold), rfl, fun _ _ => rfl⟩

/-- A call of `destroy` that stands somewhere after an act stood there before, has just begun, or has
gone on. -/
theorem step_teardown (S : Setup σ ι ε) (e : Engine σ ι) (act : Act ι) {id : Nat} {t : Teardown}
    (ht : (e.step S act).1.teardowns[id]? = some t) :
    e.teardowns[id]? = some t ∨ (act = .destroy ∧ t = .awaitingEffects) ∨
      ∃ old, e.teardowns[id]? = some old ∧ t.moves < old.moves ∧
        (old = .awaitingEffects → e.active = 0) ∧
        ∀ result, t = .returned result → (e.step S act).1.status = .destroyed := by
  by_cases hdestroy : act = .destroy
  · subst hdestroy
    rw [getElem?_destroy] at ht
    split at ht
    · exact Or.inr (Or.inl ⟨rfl, (Option.some.inj ht).symm⟩)
    · exact Or.inl ht
  by_cases hresume : ∀ id, act ≠ .resume id
  · rw [(step_untouched S e hdestroy hresume).1] at ht
    exact Or.inl ht
  · obtain ⟨k, rfl⟩ : ∃ k, act = .resume k := by simpa using hresume
    have hstep : e.step S (.resume k) = e.resume k := rfl
    rw [hstep] at ht ⊢
    rcases resume_cases (ε := ε) k e with ⟨-, hstill⟩ | ⟨-, old, new, hold, hlt, hn, hset, hdone⟩
    · rw [hstill] at ht
      exact Or.inl ht
    · rw [hset] at ht
      rcases getElem?_set_cases ht with ⟨rfl, rfl⟩ | ⟨-, hsame⟩
      · exact Or.inr (Or.inr ⟨old, hold, hlt, hn, hdone⟩)
      · exact Or.inl hsame

namespace Staged

theorem start (S : Setup σ ι ε) : Staged (start S) := ⟨nofun, nofun, nofun, nofun⟩

theorem step (h : Staged e) (act : Act ι) : Staged (e.step S act).1 := by
  refine ⟨?_, ?_, ?_, ?_⟩
  · intro hsome
    rw [step_shutdown]
    obtain ⟨t, hmem⟩ := List.exists_mem_of_ne_nil _ hsome
    obtain ⟨id, ht⟩ := List.mem_iff_getElem?.mp hmem
    rcases step_teardown S e act ht with hold | ⟨hact, -⟩ | ⟨old, hold, -⟩
    · exact Or.inl (h.signalled_of_getElem? hold)
    · exact Or.inr (Or.inl hact)
    · exact Or.inl (h.signalled_of_getElem? hold)
  · intro hs
    rcases (step_shutdown S e act).mp hs with hs | rfl | rfl
    · exact step_shut S (h.shut hs) act
    · exact Broadcast.shut_close _
    · exact Broadcast.shut_close _
  · intro id t ht hne
    have hzero : e.shutdown = true ∧ e.active = 0 := by
      rcases step_teardown S e act ht with hold | ⟨-, heq⟩ | ⟨old, hold, -, hdrained, -⟩
      · exact ⟨h.signalled_of_getElem? hold, h.drained id t hold hne⟩
      · exact absurd heq hne
      · refine ⟨h.signalled_of_getElem? hold, ?_⟩
        by_cases hwaits : old = .awaitingEffects
        · exact hdrained hwaits
        · exact h.drained id old hold hwaits
    exact Nat.le_zero.mp (hzero.2 ▸ step_active S hzero.1 act)
  · intro id result ht
    rcases step_teardown S e act ht with hold | ⟨-, heq⟩ | ⟨-, -, -, -, hdone⟩
    · have hstatus := h.destroyed id result hold
      exact (step_status S (h.signalled_of_getElem? hold) act).elim (·.trans hstatus)
        fun hdone => hdone
    · cases heq
    · exact hdone result rfl

end Staged

theorem staged_run (S : Setup σ ι ε) (acts : List (Act ι)) : Staged (run S acts).1 :=
  runFrom_induct (P := fun e _ => Staged e) (Staged.start S) fun act _ _ _ h => h.step act

/-- A worker that is there when a call of `destroy` has returned is awaited by another one. -/
theorem awaited_of_alive (S : Setup σ ι ε) (acts : List (Act ι)) {id : Nat}
    {result : Except EngineError Unit}
    (h : (run S acts).1.teardowns[id]? = some (.returned result))
    (halive : (run S acts).1.isAlive = true) :
    ∃ taker, taker ≠ id ∧ takersFrom S (start S) acts = [taker] ∧
      (run S acts).1.teardowns[taker]? = some .awaitingWorker := by
  have hdelivery := delivery_run S acts
  generalize takersFrom S (start S) acts = takers at hdelivery
  cases hdelivery with
  | waiting _ hall => cases hall id _ h
  | taken taker _ htaker _ =>
    rcases htaker with hw | ⟨left, hr, -⟩
    · refine ⟨taker, ?_, rfl, hw⟩
      rintro rfl
      rw [h] at hw
      cases hw
    · rw [isAlive_of_outcome? hr] at halive
      cases halive

/-- **What an engine is like that a call of `destroy` has left.** Whatever calls of `destroy` are under
way and however they are interleaved with the worker and the effects, when one of them has returned no
effect is active, all streams are shut, and the engine is destroyed. The worker has ended too, unless
another call has taken it and has not returned. If it has ended, whatever is submitted is rejected; and
if not, its next move is its last, and it looks at no intent. The call that took the worker is never too
early. -/
theorem destroyed_unless_awaited (S : Setup σ ι ε) (acts : List (Act ι)) {id : Nat}
    {result : Except EngineError Unit}
    (h : (run S acts).1.teardowns[id]? = some (.returned result)) :
    (run S acts).1.active = 0 ∧ (run S acts).1.broadcast.Shut ∧
    (run S acts).1.status = .destroyed ∧
    ((run S acts).1.isAlive = true → ∃ taker, taker ≠ id ∧ takersFrom S (start S) acts = [taker] ∧
      (run S acts).1.teardowns[taker]? = some .awaitingWorker) ∧
    ((run S acts).1.isAlive = false → ∀ i,
      (run S acts).1.submit i = ((run S acts).1, ([.rejected i] : List (Event σ ι ε)))) ∧
    ((run S acts).1.work S).2 = [] ∧ ((run S acts).1.work S).1.isAlive = false := by
  have hstaged := staged_run S acts
  have hsignal := hstaged.signalled_of_getElem? h
  obtain ⟨hdead, hnone, -⟩ := Resting.work (Or.inr hsignal) (work_worked S (run S acts).1)
  exact ⟨hstaged.drained id _ h nofun, hstaged.shut hsignal, hstaged.destroyed id result h,
    awaited_of_alive S acts h, submit_dead, hnone, hdead⟩

/-- Two calls of `destroy` are made while an intent is queued, and the second one returns at once. The
first one awaits the worker, which looks at no intent any more. -/
theorem second_return_early :
    (∃ taker, taker ≠ 1 ∧
      takersFrom ringing (start ringing) [.submit 1, .destroy, .destroy, .resume 0, .resume 1] =
        [taker] ∧
      (run ringing [.submit 1, .destroy, .destroy, .resume 0, .resume 1]).1.teardowns[taker]? =
        some .awaitingWorker) ∧
    (run ringing [.submit 1, .destroy, .destroy, .resume 0, .resume 1]).1.status = .destroyed ∧
    ((run ringing [.submit 1, .destroy, .destroy, .resume 0, .resume 1]).1.work ringing).2 = [] := by
  have hreturned : (run ringing
      [.submit 1, .destroy, .destroy, .resume 0, .resume 1]).1.teardowns[1]? =
        some (.returned (.ok ())) := rfl
  obtain ⟨-, -, hstatus, hawaited, -, hnone, -⟩ := destroyed_unless_awaited ringing
    [.submit 1, .destroy, .destroy, .resume 0, .resume 1] hreturned
  exact ⟨hawaited rfl, hstatus, hnone⟩

/-- **A call of `destroy` can return before the worker has ended.** Of two calls that are made one right
after the other, the first one takes the worker, and the second one returns without waiting for it. If
the worker has not moved by then, the engine is destroyed and takes another intent. -/
theorem returned_before_worker :
    (run ringing [.destroy, .destroy, .resume 0, .resume 1]).1.teardowns =
        [.awaitingWorker, .returned (.ok ())] ∧
      (run ringing [.destroy, .destroy, .resume 0, .resume 1]).1.status = .destroyed ∧
      (run ringing [.destroy, .destroy, .resume 0, .resume 1]).1.isAlive = true ∧
      (run ringing [.destroy, .destroy, .resume 0, .resume 1, .submit 2]).2.getLast? =
        some (.accepted 2) := by
  decide

end IntentLoop.Engine
