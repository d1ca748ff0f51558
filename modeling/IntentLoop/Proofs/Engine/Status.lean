import IntentLoop.Proofs.Engine.Calls
import Mathlib.Data.List.Chain
/-!
# How the status moves

Two parties write the status of an engine: its worker when it halts, and every call of `destroy` when it
returns (`Writes`). The worker writes once at most, after its one report (`Filed`). A call that waits for the
worker writes after it; but a call that finds the worker taken does not wait, and if the worker halts after
that, the status goes back from destroyed to halted (`halted_after_destroyed`).

`status_moves` says what follows for the statuses of a run: this is the only way back, and where calls of
`destroy` come one after the other the status only moves forward (`Alone`).
-/

namespace IntentLoop.Engine

variable {σ ι ε : Type} {S : Setup σ ι ε}

/-- How far an engine with this status has come. -/
def Status.rank : Status → Nat
  | .running => 0
  | .halted => 1
  | .destroyed => 2

namespace Threads

variable {t : Threads σ ι ε}

/-! ### What an act means for the status -/

/-- What an act can mean for the status. -/
inductive Writes (t : Threads σ ι ε) (act : Act ι) (after : Threads σ ι ε × List (Event σ ι ε)) : Prop
  | nothing (hs : after.1.status = t.status)
  | halted (hact : act = .work) (halive : t.isAlive = true) (hh : ∃ i p, t.hand = .reported i p)
      (hs : after.1.status = .halted)
  /-- A call of `destroy` returns. -/
  | destroyed (id : Nat) (result : Except EngineError Unit) (hact : act = .resume id)
      (hc : after.1.teardowns[id]? = some (.returned result)) (hs : after.1.status = .destroyed)
      (hend : after.2 = [.teardownEnded id result])

theorem Resumed.writes {id : Nat} {after : Threads σ ι ε × List (Event σ ι ε)} (h : Resumed id t after) :
    Writes t (.resume id) after := by
  cases h with
  | still | freed | claimed => exact .nothing rfl
  | spared _ hc =>
    exact .destroyed id (.ok ()) rfl ((setCall_getElem? hc _ id).trans (if_pos rfl)) rfl rfl
  | joined result _ hc =>
    exact .destroyed id result rfl ((setCall_getElem? hc _ id).trans (if_pos rfl)) rfl rfl

/-- **Only a worker that halts and a call of `destroy` that returns write the status.** -/
theorem step_writes (S : Setup σ ι ε) (t : Threads σ ι ε) (act : Act ι) :
    Writes t act (t.step S act) := by
  by_cases hwork : act = .work
  · subst hwork
    rcases (work_turned S t).status with hs | ⟨halive, hs, hh⟩
    · exact .nothing hs
    · exact .halted rfl halive hh hs
  by_cases hresume : ∀ id, act ≠ .resume id
  · exact .nothing (step_status S t hwork hresume)
  · obtain ⟨id, rfl⟩ : ∃ id, act = .resume id := by simpa using hresume
    exact (t.resume_resumed id).writes

theorem work_halts (S : Setup σ ι ε) (halive : t.isAlive = true) {i : ι} {p : Panic}
    (hh : t.hand = .reported i p) : (t.work S).1.status = .halted := by
  unfold work
  cases hw : t.worker with
  | alive state previous =>
    dsimp only
    unfold goOn
    rw [hh]
  | returned | crashed =>
    rw [isAlive, hw] at halive
    cases halive

/-! ### Reports -/

/-- The worker has made its report, and is yet to write the status. -/
def owes (t : Threads σ ι ε) : Nat :=
  match t.hand with
  | .reported _ _ => if t.isAlive then 1 else 0
  | _ => 0

/-- Does the status become halted in this act? -/
def halts (S : Setup σ ι ε) (t : Threads σ ι ε) (act : Act ι) : Bool :=
  t.status ≠ .halted && (t.step S act).1.status = .halted

/-- How often the status becomes halted. -/
def haltsFrom (S : Setup σ ι ε) (t : Threads σ ι ε) : List (Act ι) → Nat
  | [] => 0
  | act :: acts => (if t.halts S act then 1 else 0) + haltsFrom S (t.step S act).1 acts

/-- The reports made so far, and how often the status has become halted. -/
inductive Filed (S : Setup σ ι ε) (t : Threads σ ι ε) :
    List (Reporter × String × EngineError) → Nat → Prop
  | quiet (hs : t.status ≠ .halted) (hh : ∀ i p, t.hand ≠ .reported i p) : Filed S t [] 0
  | reported (i : ι) (p : Panic) (halive : t.isAlive = true) (hs : t.status ≠ .halted)
      (hh : t.hand = .reported i p) : Filed S t [(S.reporter, component, failure S i p)] 0
  | halted (i : ι) (p : Panic) (hh : t.isAlive = false ∨ ∃ outcome, t.hand = .leaving outcome) :
      Filed S t [(S.reporter, component, failure S i p)] 1

theorem Passes.reports {state : σ} {previous : Option ι} {hand next : Hand σ ι ε}
    {events : List (Event σ ι ε)} (h : Passes S state previous t hand next events) :
    (reportsIn events = [] ∧ ∀ i p, next ≠ .reported i p) ∨
      ∃ i p, next = .reported i p ∧ reportsIn events = [(S.reporter, component, failure S i p)] := by
  cases h with
  | reported => exact Or.inr ⟨_, _, rfl, rfl⟩
  | compared hc | uncompared hc =>
    rcases compare_called hc with rfl | ⟨p, rfl⟩ <;> exact Or.inl ⟨rfl, nofun⟩
  | _ => exact Or.inl ⟨rfl, nofun⟩

theorem Skips.reports {state : σ} {previous : Option ι} {i : ι} {hand : Hand σ ι ε}
    {events : List (Event σ ι ε)} (h : Skips S state previous i hand events) :
    reportsIn events = [] := by
  cases h with
  | repeated hc => rcases compare_called hc with rfl | ⟨p, rfl⟩ <;> rfl
  | refused => rfl

namespace Filed

variable {reports : List (Reporter × String × EngineError)} {n : Nat}

theorem keep {after : Threads σ ι ε × List (Event σ ι ε)} (h : Filed S after.1 reports n)
    (hs : after.1.status = t.status) (hr : reportsIn after.2 = []) :
    Filed S after.1 (reports ++ reportsIn after.2)
      (n + if t.status ≠ .halted && after.1.status = .halted then 1 else 0) := by
  have hno : (t.status ≠ .halted && after.1.status = .halted : Bool) = false := by simp [hs]
  rw [hr, List.append_nil, hno]
  exact h

theorem work {after : Threads σ ι ε × List (Event σ ι ε)} (h : Filed S t reports n)
    (hturned : Turned S t after) :
    Filed S after.1 (reports ++ reportsIn after.2)
      (n + if t.status ≠ .halted && after.1.status = .halted then 1 else 0) := by
  cases h with
  | quiet hs hh =>
    cases hturned with
    | dead => exact keep (.quiet hs hh) rfl rfl
    | passes state previous hand next events hw _ hp =>
      rcases hp.reports with ⟨hr, hnext⟩ | ⟨i, p, rfl, hr⟩
      · exact keep (.quiet hs hnext) rfl hr
      · have hno : (t.status ≠ .halted && (t.hold (.reported i p)).status = .halted : Bool) = false := by
          simp [hold, hs]
        rw [hr, hno]
        exact .reported i p (isAlive_of_alive hw) hs rfl
    | skips state previous i hand events _ _ hk => exact keep (.quiet hs nofun) rfl hk.reports
    | ends state previous outcome =>
      refine keep (.quiet hs nofun) rfl ?_
      cases outcome <;> rfl
    | halts state previous i p _ hh' => exact absurd hh' (hh i p)
    | takes | launches | publishes | applies => exact keep (.quiet hs nofun) rfl rfl
  | reported i p halive hs hh =>
    cases hturned with
    | dead hdead =>
      rw [halive] at hdead
      cases hdead
    | halts state previous i' p' hw hh' =>
      have hyes : (t.status ≠ .halted && (Status.halted = .halted) : Bool) = true := by simp [hs]
      rw [hyes]
      exact .halted i p (Or.inr ⟨_, rfl⟩)
    | passes state previous hand next events _ hh' hp =>
      rw [hh] at hh'
      subst hh'
      cases hp
    | skips state previous i' hand events _ hh' hk =>
      rw [hh] at hh'
      subst hh'
      cases hk
    | takes _ _ _ _ _ hh' | launches _ _ _ _ _ hh' | publishes _ _ _ _ _ hh' | applies _ _ _ _ _ hh'
    | ends _ _ _ _ hh' =>
      rw [hh] at hh'
      cases hh'
  | halted i p hh =>
    -- a worker that has written the status only ends
    have hleaving : ∀ {state previous}, t.worker = .alive state previous →
        ∃ outcome, t.hand = .leaving outcome := by
      intro state previous hw
      refine hh.resolve_left fun hdead => ?_
      rw [isAlive_of_alive hw] at hdead
      cases hdead
    cases hturned with
    | dead => exact keep (.halted i p hh) rfl rfl
    | ends state previous outcome =>
      refine keep (.halted i p (Or.inl ?_)) rfl ?_ <;> cases outcome <;> rfl
    | passes state previous hand next events hw hh' hp =>
      obtain ⟨outcome, hl⟩ := hleaving hw
      rw [hl] at hh'
      subst hh'
      cases hp
    | skips state previous i' hand events hw hh' hk =>
      obtain ⟨outcome, hl⟩ := hleaving hw
      rw [hl] at hh'
      subst hh'
      cases hk
    | takes _ _ _ _ hw hh' | launches _ _ _ _ hw hh' | publishes _ _ _ _ hw hh'
    | applies _ _ _ _ hw hh' | halts _ _ _ _ hw hh' =>
      obtain ⟨outcome, hl⟩ := hleaving hw
      rw [hl] at hh'
      cases hh'

theorem aside {act : Act ι} (h : Filed S t reports n) (hact : act ≠ .work) :
    Filed S (t.step S act).1 (reports ++ reportsIn (t.step S act).2)
      (n + if t.status ≠ .halted && (t.step S act).1.status = .halted then 1 else 0) := by
  have haside := step_aside S t hact
  have halive := isAlive_of_worker haside.worker
  have hstatus : (t.step S act).1.status = t.status ∨ (t.step S act).1.status = .destroyed := by
    cases step_writes S t act with
    | nothing hs => exact Or.inl hs
    | halted hwork => exact absurd hwork hact
    | destroyed _ _ _ _ hs => exact Or.inr hs
  have hno : (t.status ≠ .halted && (t.step S act).1.status = .halted : Bool) = false := by
    rcases hstatus with hs | hs <;> simp [hs]
  have hunhalted : t.status ≠ .halted → (t.step S act).1.status ≠ .halted := by
    intro hs
    rcases hstatus with hsame | hdestroyed
    · rwa [hsame]
    · rw [hdestroyed]
      nofun
  rw [← reportsIn_workIn, haside.workless.workIn, hno]
  show Filed S (t.step S act).1 (reports ++ []) n
  rw [List.append_nil]
  cases h with
  | quiet hs hh => exact .quiet (hunhalted hs) (haside.hand ▸ hh)
  | reported i p hlive hs hh =>
    exact .reported i p (halive.trans hlive) (hunhalted hs) (haside.hand.trans hh)
  | halted i p hh => exact .halted i p (hh.imp halive.trans fun ⟨o, ho⟩ => ⟨o, haside.hand.trans ho⟩)

theorem step (h : Filed S t reports n) (act : Act ι) :
    Filed S (t.step S act).1 (reports ++ reportsIn (t.step S act).2)
      (n + if t.halts S act then 1 else 0) := by
  by_cases hact : act = .work
  · subst hact
    exact h.work (work_turned S t)
  · exact h.aside hact

theorem runFrom (h : Filed S t reports n) (acts : List (Act ι)) :
    Filed S (t.runFrom S acts).1 (reports ++ reportsIn (t.runFrom S acts).2)
      (n + haltsFrom S t acts) := by
  induction acts generalizing t reports n with
  | nil =>
    rw [show reportsIn (t.runFrom S []).2 = [] from rfl, List.append_nil]
    exact h
  | cons act rest ih =>
    have hrest := ih (h.step act)
    rw [runFrom_cons, reportsIn_append, haltsFrom, ← List.append_assoc, ← Nat.add_assoc]
    exact hrest

/-- Each report is followed by one write, and there is one report at most. -/
theorem count (h : Filed S t reports n) : n + t.owes = reports.length ∧ reports.length ≤ 1 ∧
    ∀ report ∈ reports, ∃ i p, report = (S.reporter, component, failure S i p) := by
  unfold owes
  cases h with
  | quiet hs hh =>
    refine ⟨?_, Nat.zero_le _, nofun⟩
    split
    · rename_i i p hr
      exact absurd hr (hh i p)
    · rfl
  | reported i p halive hs hh =>
    refine ⟨?_, Nat.le_refl _, fun report hmem => ⟨i, p, List.mem_singleton.mp hmem⟩⟩
    rw [hh, halive]
    rfl
  | halted i p hh =>
    refine ⟨?_, Nat.le_refl _, fun report hmem => ⟨i, p, List.mem_singleton.mp hmem⟩⟩
    rcases hh with hdead | ⟨outcome, hl⟩
    · rw [hdead]
      split <;> rfl
    · rw [hl]
      rfl

end Filed

theorem filed_run (S : Setup σ ι ε) (acts : List (Act ι)) :
    Filed S (run S acts).1 (reportsIn (run S acts).2) (haltsFrom S (start S) acts) := by
  have h := (Filed.quiet (S := S) (t := start S) nofun nofun).runFrom acts
  rw [List.nil_append, Nat.zero_add] at h
  exact h

theorem owes_eq_one : t.owes = 1 ↔ t.isAlive = true ∧ ∃ i p, t.hand = .reported i p := by
  unfold owes
  constructor
  · intro h
    split at h
    · rename_i i p hh
      refine ⟨?_, i, p, hh⟩
      cases halive : t.isAlive with
      | true => rfl
      | false =>
        rw [halive] at h
        cases h
    · cases h
  · rintro ⟨halive, i, p, hh⟩
    rw [hh, halive]
    rfl

/-- **The status becomes halted just when the worker goes on after its report.** -/
theorem halts_iff (S : Setup σ ι ε) (acts : List (Act ι)) (act : Act ι) :
    (run S acts).1.halts S act = true ↔ act = .work ∧ (run S acts).1.owes = 1 := by
  rw [owes_eq_one, halts, Bool.and_eq_true, decide_eq_true_eq, decide_eq_true_eq]
  constructor
  · rintro ⟨hbefore, hafter⟩
    cases step_writes S (run S acts).1 act with
    | nothing hs => exact absurd (hs ▸ hafter) hbefore
    | halted hact halive hh => exact ⟨hact, halive, hh⟩
    | destroyed _ _ _ _ hs =>
      rw [hs] at hafter
      cases hafter
  · rintro ⟨rfl, halive, i, p, hh⟩
    refine ⟨?_, work_halts S halive hh⟩
    have hfiled := filed_run S acts
    generalize reportsIn (run S acts).2 = reports, haltsFrom S (start S) acts = n at hfiled
    cases hfiled with
    | quiet hs => exact hs
    | reported _ _ _ hs => exact hs
    | halted _ _ hgone =>
      rcases hgone with hdead | ⟨outcome, hl⟩
      · rw [halive] at hdead
        cases hdead
      · rw [hh] at hl
        cases hl

/-! ### The way back -/

/-- A destroyed engine is one that some call has returned from. -/
theorem returned_of_destroyed (S : Setup σ ι ε) {acts : List (Act ι)}
    (h : (run S acts).1.status = .destroyed) :
    ∃ (id : Nat) (result : Except EngineError Unit),
      (run S acts).1.teardowns[id]? = some (.returned result) := by
  refine runFrom_induct (S := S) (t := Threads.start S)
    (P := fun t' _ => t'.status = .destroyed → ∃ (id : Nat) (result : Except EngineError Unit),
      t'.teardowns[id]? = some (.returned result)) nofun ?_ h
  intro act _ t' _ ih hs
  cases step_writes S t' act with
  | nothing hsame =>
    obtain ⟨id, result, hc⟩ := ih (hsame ▸ hs)
    exact ⟨id, result, returned_step S hc act⟩
  | halted _ _ _ hhalted =>
    rw [hhalted] at hs
    cases hs
  | destroyed id result _ hc => exact ⟨id, result, hc⟩

/-- What it takes for the status to go back. -/
structure GoesBack (t : Threads σ ι ε) (act : Act ι) (after : Threads σ ι ε) : Prop where
  worker : act = .work ∧ t.isAlive = true
  destroyed : t.status = .destroyed
  halted : after.status = .halted
  /-- One call of `destroy` waits for the worker. -/
  awaited : t.Awaited
  /-- Another one has returned without waiting. -/
  spared : ∃ (id : Nat) (result : Except EngineError Unit), t.teardowns[id]? = some (.returned result)

/-- **The status goes back only if the worker halts when one call of `destroy` has returned and another one
waits.** -/
theorem goesBack_of_rank (S : Setup σ ι ε) {acts : List (Act ι)} {act : Act ι}
    (h : ((run S acts).1.step S act).1.status.rank < (run S acts).1.status.rank) :
    GoesBack (run S acts).1 act ((run S acts).1.step S act).1 := by
  cases step_writes S (run S acts).1 act with
  | nothing hs =>
    rw [hs] at h
    exact absurd h (Nat.lt_irrefl _)
  | destroyed _ _ _ _ hs =>
    rw [hs] at h
    cases hold : (run S acts).1.status <;> rw [hold] at h <;> exact absurd h (by decide)
  | halted hact halive hh hs =>
    have hdestroyed : (run S acts).1.status = .destroyed := by
      rw [hs] at h
      cases hold : (run S acts).1.status with
      | destroyed => rfl
      | running | halted =>
        rw [hold] at h
        exact absurd h (by decide)
    have hstaged := staged_run S acts
    obtain ⟨id, result, hc⟩ := returned_of_destroyed S hdestroyed
    refine ⟨⟨hact, halive⟩, hdestroyed, hs, ?_, id, result, hc⟩
    refine (hstaged.joined (hstaged.spared id result hc)).resolve_left fun hdead => ?_
    rw [halive] at hdead
    cases hdead

theorem destroyed_runFrom (S : Setup σ ι ε) (hs : t.status = .destroyed) (hdead : t.isAlive = false)
    (acts : List (Act ι)) : (t.runFrom S acts).1.status = .destroyed := by
  refine (runFrom_induct (S := S) (t := t)
    (P := fun t' _ => t'.isAlive = false ∧ t'.status = .destroyed) ⟨hdead, hs⟩ ?_).2
  rintro act - t' - ⟨hdead', hs'⟩
  refine ⟨step_dead S hdead' act, ?_⟩
  cases step_writes S t' act with
  | nothing hsame => exact hsame.trans hs'
  | halted _ halive =>
    rw [hdead'] at halive
    cases halive
  | destroyed _ _ _ _ hdestroyed => exact hdestroyed

/-! ### Calls one after the other -/

/-- No call of `destroy` begins before all earlier ones have returned. -/
def InTurn (S : Setup σ ι ε) (acts : List (Act ι)) : Prop :=
  ∀ before after, acts = before ++ Act.destroy :: after →
    ∀ call ∈ (run S before).1.teardowns, ∃ result, call = .returned result

/-- One call of `destroy` is under way at most, and it does not wait for the worker if another one has
returned. -/
structure Alone (t : Threads σ ι ε) : Prop where
  one : ∀ (id k : Nat) (call other : Call), id ≠ k → t.teardowns[id]? = some call →
    t.teardowns[k]? = some other → (∃ result, call = .returned result) ∨ ∃ result, other = .returned result
  unawaited : ∀ (id : Nat) (result : Except EngineError Unit),
    t.teardowns[id]? = some (.returned result) → ¬t.Awaited

namespace Alone

theorem start (S : Setup σ ι ε) : Alone (start S) where
  one _ _ _ _ _ h := nomatch h
  unawaited _ _ h := nomatch h

theorem destroy (S : Setup σ ι ε)
    (hall : ∀ call ∈ t.teardowns, ∃ result, call = .returned result) :
    Alone (t.step S .destroy).1 := by
  have hold : ∀ {id : Nat} {call : Call}, id ≠ t.teardowns.length →
      (t.step S .destroy).1.teardowns[id]? = some call → ∃ result, call = .returned result := by
    intro id call hne hc
    rw [getElem?_destroy, if_neg hne] at hc
    exact hall call (List.mem_of_getElem? hc)
  refine ⟨fun id k call other hne hc hk => ?_, ?_⟩
  · by_cases hid : id = t.teardowns.length
    · exact Or.inr (hold (fun hk' => hne (hid.trans hk'.symm)) hk)
    · exact Or.inl (hold hid hc)
  · rintro - - - ⟨taker, ht⟩
    by_cases hid : taker = t.teardowns.length
    · rw [getElem?_destroy, if_pos hid] at ht
      cases ht
    · obtain ⟨result, heq⟩ := hold hid ht
      cases heq

theorem one_step (S : Setup σ ι ε) (h : Alone t) {act : Act ι} (hact : act ≠ .destroy) (id k : Nat)
    (call other : Call) (hne : id ≠ k) (hc : (t.step S act).1.teardowns[id]? = some call)
    (hk : (t.step S act).1.teardowns[k]? = some other) :
    (∃ result, call = .returned result) ∨ ∃ result, other = .returned result := by
  have hlength := length_calls S t hact
  have hid := (List.getElem?_eq_some_iff.mp hc).1
  have hklt := (List.getElem?_eq_some_iff.mp hk).1
  rw [hlength] at hid hklt
  have hstays : ∀ {m : Nat} {new : Call} (hm : m < t.teardowns.length),
      (t.step S act).1.teardowns[m]? = some new → (∃ result, t.teardowns[m] = .returned result) →
      ∃ result, new = .returned result := by
    rintro m new hm hnew ⟨result, hold⟩
    have hreturned := returned_step S ((List.getElem?_eq_getElem hm).trans (congrArg some hold)) act
    rw [hnew] at hreturned
    exact ⟨result, Option.some.inj hreturned⟩
  exact (h.one id k _ _ hne (List.getElem?_eq_getElem hid) (List.getElem?_eq_getElem hklt)).imp
    (hstays hid hc) (hstays hklt hk)

theorem resume (h : Alone t) (hstaged : Staged t) (k : Nat) {id taker : Nat}
    {result : Except EngineError Unit} (hc : (t.resume k).1.teardowns[id]? = some (.returned result))
    (ht : (t.resume k).1.teardowns[taker]? = some .awaitingWorker) : False := by
  have hresumed := t.resume_resumed k
  generalize t.resume k = after at hresumed hc ht
  cases hresumed with
  | still => exact h.unawaited id result hc ⟨taker, ht⟩
  | freed => exact h.unawaited id result (old_of_setCall hc nofun).2 ⟨taker, (old_of_setCall ht nofun).2⟩
  | claimed _ _ hno =>
    -- the worker would be taken already
    have hyes := hstaged.spared id result (old_of_setCall hc nofun).2
    rw [hno] at hyes
    cases hyes
  | spared _ hold | joined _ _ hold =>
    -- the call that returns would not be the only one under way
    have ht' := old_of_setCall ht nofun
    rcases h.one taker k _ _ ht'.1 ht'.2 hold with ⟨_, heq⟩ | ⟨_, heq⟩ <;> cases heq

theorem step (S : Setup σ ι ε) (h : Alone t) (hstaged : Staged t) {act : Act ι} (hact : act ≠ .destroy) :
    Alone (t.step S act).1 := by
  refine ⟨h.one_step S hact, ?_⟩
  by_cases hresume : ∀ k, act ≠ .resume k
  · have hcalls := (step_calls S t hact hresume).1
    intro id result hc hawaited
    rw [hcalls] at hc
    exact h.unawaited id result hc (hawaited.of_calls hcalls.symm)
  · obtain ⟨k, rfl⟩ : ∃ k, act = .resume k := by simpa using hresume
    rintro id result hc ⟨taker, ht⟩
    exact h.resume hstaged k hc ht

theorem run (S : Setup σ ι ε) {acts : List (Act ι)} (h : InTurn S acts) : Alone (run S acts).1 := by
  induction acts using List.reverseRecOn with
  | nil => exact .start S
  | append_singleton acts act ih =>
    have hbefore := ih fun before after heq => h before (after ++ [act]) (by rw [heq]; simp)
    have hlast : (Threads.run S (acts ++ [act])).1 = ((Threads.run S acts).1.step S act).1 := by
      rw [Threads.run, runFrom_append]
      rfl
    rw [hlast]
    by_cases hact : act = .destroy
    · subst hact
      exact .destroy S (h acts [] rfl)
    · exact hbefore.step S (staged_run S acts) hact

end Alone

/-! ### The statuses of a run -/

/-- The status at first, and after each act. -/
def statusesFrom (S : Setup σ ι ε) (t : Threads σ ι ε) : List (Act ι) → List Status
  | [] => [t.status]
  | act :: acts => t.status :: statusesFrom S (t.step S act).1 acts

theorem statusesFrom_head? (S : Setup σ ι ε) (t : Threads σ ι ε) (acts : List (Act ι)) :
    (statusesFrom S t acts).head? = some t.status := by
  cases acts <;> rfl

theorem statusesFrom_getLast? (S : Setup σ ι ε) (t : Threads σ ι ε) (acts : List (Act ι)) :
    (statusesFrom S t acts).getLast? = some (t.runFrom S acts).1.status := by
  induction acts generalizing t with
  | nil => rfl
  | cons act rest ih =>
    rw [runFrom_cons, statusesFrom, List.getLast?_cons, ih]
    rfl

/-- Statuses of which none is followed by an earlier one only move forward. -/
theorem statuses_sorted (S : Setup σ ι ε) (t : Threads σ ι ε) (acts : List (Act ι))
    (h : ∀ before act after, acts = before ++ act :: after →
      (t.runFrom S before).1.status.rank ≤ ((t.runFrom S before).1.step S act).1.status.rank) :
    (statusesFrom S t acts).Pairwise fun earlier later => earlier.rank ≤ later.rank := by
  have hchain : ((statusesFrom S t acts).map Status.rank).IsChain (· ≤ ·) := by
    induction acts generalizing t with
    | nil => exact List.isChain_singleton _
    | cons act rest ih =>
      rw [statusesFrom, List.map_cons, List.isChain_cons]
      refine ⟨fun rank hmem => ?_, ih _ fun before next after heq => ?_⟩
      · rw [List.head?_map, statusesFrom_head?] at hmem
        obtain rfl := Option.some.inj hmem
        exact h [] act rest rfl
      · have hnext := h (act :: before) next after (by rw [heq]; rfl)
        rwa [runFrom_cons] at hnext
  exact List.pairwise_map.mp hchain.pairwise

/-- **How the status moves.** An engine is running at first. Whatever happens to it, its status becomes
halted only when the worker goes on after its report, once for each report; there is at most one report, of
a failed reduction, made to the engine's reporter. It becomes destroyed only when a call of `destroy`
returns. It goes back only from destroyed to halted, by a worker that halts when a call of `destroy` has
returned without waiting and another one waits; and once the engine is destroyed and has lost its worker, it
stays destroyed.

If calls of `destroy` come one after the other, the status goes from running to halted to destroyed, past
one of them or not, and never back, and once it is destroyed it stays so. -/
theorem status_moves (S : Setup σ ι ε) (acts : List (Act ι)) :
    ((statusesFrom S (start S) acts).head? = some .running ∧
      (statusesFrom S (start S) acts).getLast? = some (run S acts).1.status) ∧
    (haltsFrom S (start S) acts + (run S acts).1.owes = (reportsIn (run S acts).2).length ∧
      (reportsIn (run S acts).2).length ≤ 1 ∧
      ∀ report ∈ reportsIn (run S acts).2, ∃ i p, report = (S.reporter, "engine", failure S i p)) ∧
    (∀ act, (run S acts).1.halts S act = true ↔ act = .work ∧ (run S acts).1.owes = 1) ∧
    (∀ act, (run S acts).1.status ≠ .destroyed → ((run S acts).1.step S act).1.status = .destroyed →
      ∃ id result, act = .resume id ∧ ((run S acts).1.step S act).2 = [.teardownEnded id result]) ∧
    (∀ act, ((run S acts).1.step S act).1.status.rank < (run S acts).1.status.rank →
      GoesBack (run S acts).1 act ((run S acts).1.step S act).1) ∧
    ((run S acts).1.status = .destroyed → (run S acts).1.isAlive = false →
      ∀ more, (run S (acts ++ more)).1.status = .destroyed) ∧
    (InTurn S acts →
      ((statusesFrom S (start S) acts).Pairwise fun earlier later => earlier.rank ≤ later.rank) ∧
      ((run S acts).1.status = .destroyed → ∀ more, (run S (acts ++ more)).1.status = .destroyed)) := by
  obtain ⟨hcount, hone, hreports⟩ := (filed_run S acts).count
  have hstays : (run S acts).1.status = .destroyed → (run S acts).1.isAlive = false →
      ∀ more, (run S (acts ++ more)).1.status = .destroyed := by
    intro hs hdead more
    rw [run, runFrom_append]
    exact destroyed_runFrom S hs hdead more
  refine ⟨⟨statusesFrom_head? S _ acts, statusesFrom_getLast? S _ acts⟩, ⟨hcount, hone, hreports⟩,
    halts_iff S acts, fun act hbefore hafter => ?_, fun act => goesBack_of_rank S, hstays,
    fun hturn => ⟨statuses_sorted S _ acts fun before act after heq => ?_, fun hs more => ?_⟩⟩
  · cases step_writes S (run S acts).1 act with
    | nothing hs => exact absurd (hs ▸ hafter) hbefore
    | halted _ _ _ hs =>
      rw [hs] at hafter
      cases hafter
    | destroyed id result hact _ _ hend => exact ⟨id, result, hact, hend⟩
  · refine Nat.le_of_not_lt fun hlt => ?_
    have hback : GoesBack (run S before).1 act ((run S before).1.step S act).1 := goesBack_of_rank S hlt
    obtain ⟨id, result, hc⟩ := hback.spared
    refine (Alone.run S fun first last heq' => ?_).unawaited id result hc hback.awaited
    exact hturn first (last ++ act :: after) (by rw [heq, heq', List.append_assoc, List.cons_append])
  · obtain ⟨id, result, hc⟩ := returned_of_destroyed S hs
    have hstaged := staged_run S acts
    have hdead := (hstaged.joined (hstaged.spared id result hc)).resolve_right
      ((Alone.run S hturn).unawaited id result hc)
    exact hstays hs hdead more

/-- Two calls of `destroy` are under way when the worker has in hand an intent whose reduction breaks off.
The first call takes the worker, and the second one returns. Then the worker halts, and ends, and the first
call returns. -/
theorem halted_after_destroyed :
    statusesFrom fused (start fused) (Act.submit 0 :: List.replicate 4 Act.work ++
        [Act.destroy, .signal, .destroy, .resume 0, .resume 0, .resume 1, .resume 1] ++
        List.replicate 6 Act.work ++ [Act.resume 0]) =
      List.replicate 12 Status.running ++ List.replicate 5 Status.destroyed ++
        [Status.halted, .halted, .destroyed] := by
  decide +kernel

end Threads

end IntentLoop.Engine
