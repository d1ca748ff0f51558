import IntentLoop.Proofs.Engine.Calls
/-!
# Tearing down comes to an end

Once the signal has come to all, everyone has little left to do: the worker goes through with what it has in
hand, an effect with its poll, and is dropped when it is polled again, and a call of `destroy` waits for
these. `owed` counts these moves. No act of anyone adds to it, short of another call of `destroy`, and each
move of those that have one to make takes away from it (`step_owed`), so that however they take turns, they
come to an end (`dues_add_owed`, `exists_idle`).

Where nobody has a move to make, no effect is left, the worker has ended, and all calls of `destroy` have
returned (`Idle`). A call that is the only one under way returns from an engine that has lost its worker
(`Single.dead`), and of which all effects have ended that were there when the signal came (`Ceased`). One
that the worker launched since may still be there, as `launched_after_wait` shows: the call looks at the
effects before it waits for the worker, and does not look again.
-/

namespace IntentLoop.Engine

variable {σ ι ε : Type} {S : Setup σ ι ε}

/-! ### What is owed -/

/-- Moves of an effect under the signal, at most. -/
def Life.moves : Life → Nat
  | dropping => 1
  | resting => 2
  | polled => 3
  | ended _ => 0

/-- Moves of the worker under the signal, with those of an effect that it launches, at most. -/
def Hand.moves : Hand σ ι ε → Nat
  | leaving _ => 1
  | free | reported _ _ => 2
  | kept _ _ | failed _ _ => 3
  | announced _ _ => 4
  | reduced _ _ => 5
  | launched _ => 6
  | handled _ _ => 9
  | valid _ => 10
  | fresh _ => 11
  | taken _ => 12
  | cleared => 13

/-- Moves of a call of `destroy`, at most. -/
def Call.moves : Call → Nat
  | awaitingEffects => 3
  | freed => 2
  | awaitingWorker => 1
  | returned _ => 0

namespace Threads

variable {t : Threads σ ι ε}

/-- The moves of the worker that are still to come under the signal, at most. -/
def errand (t : Threads σ ι ε) : Nat := if t.isAlive then t.hand.moves else 0

/-- The moves that are still to come under the signal, at most. -/
def owed (t : Threads σ ι ε) : Nat :=
  (t.effects.map Life.moves).sum + t.errand + (t.teardowns.map Call.moves).sum

/-- Is the act a move of somebody who has one to make? -/
def isDue (t : Threads σ ι ε) : Act ι → Bool
  | .work => t.isAlive
  | .look id => t.effects[id]? = some .resting
  | .leave id _ => t.effects[id]? = some .polled ∨ t.effects[id]? = some .dropping
  | .resume id => t.canResume id
  | _ => false

/-- How many moves of a run are made by those that have one to make. -/
def dues (S : Setup σ ι ε) (t : Threads σ ι ε) : List (Act ι) → Nat
  | [] => 0
  | act :: acts => (if t.isDue act then 1 else 0) + dues S (t.step S act).1 acts

theorem dues_append (S : Setup σ ι ε) (t : Threads σ ι ε) (acts more : List (Act ι)) :
    dues S t (acts ++ more) = dues S t acts + dues S (t.runFrom S acts).1 more := by
  induction acts generalizing t with
  | nil => rw [List.nil_append, dues, Nat.zero_add]; rfl
  | cons act rest ih => rw [List.cons_append, dues, dues, ih, runFrom_cons, Nat.add_assoc]

/-! ### What one act does to it -/

theorem Passes.moves {state : σ} {previous : Option ι} {hand next : Hand σ ι ε}
    {events : List (Event σ ι ε)} (h : Passes S state previous t hand next events)
    (hs : t.shutdown = true) : next.moves + 1 ≤ hand.moves := by
  cases h with
  | clears hrun =>
    rw [hs] at hrun
    cases hrun
  | _ => simp [Hand.moves]

theorem Skips.moves {state : σ} {previous : Option ι} {i : ι} {hand : Hand σ ι ε}
    {events : List (Event σ ι ε)} (h : Skips S state previous i hand events) :
    (Hand.free : Hand σ ι ε).moves + 1 ≤ hand.moves := by
  cases h <;> simp [Hand.moves]

theorem owed_hand {t' : Threads σ ι ε} {hand next : Hand σ ι ε} (hw : t.isAlive = true)
    (hw' : t'.isAlive = true) (hh : t.hand = hand) (hh' : t'.hand = next)
    (hmoves : next.moves + 1 ≤ hand.moves) (he : t'.effects = t.effects)
    (hc : t'.teardowns = t.teardowns) : t'.owed + 1 ≤ t.owed := by
  unfold owed errand
  rw [if_pos hw, if_pos hw', hh, hh', he, hc]
  omega

theorem Turned.owed {after : Threads σ ι ε × List (Event σ ι ε)} (h : Turned S t after)
    (hs : t.shutdown = true) : after.1.owed + (if t.isAlive then 1 else 0) ≤ t.owed := by
  cases h with
  | dead hdead =>
    rw [hdead]
    exact Nat.le_refl _
  | passes state previous hand next events hw hh hp =>
    have halive := isAlive_of_alive hw
    rw [if_pos halive]
    exact owed_hand halive halive hh rfl (hp.moves hs) rfl rfl
  | takes state previous i rest hw hh hi =>
    have halive := isAlive_of_alive hw
    rw [if_pos halive]
    exact owed_hand halive halive hh rfl (Nat.le_refl _) rfl rfl
  | skips state previous i hand events hw hh hk =>
    have halive := isAlive_of_alive hw
    rw [if_pos halive]
    exact owed_hand halive rfl hh rfl hk.moves rfl rfl
  | launches state previous i effect hw hh =>
    have halive := isAlive_of_alive hw
    rw [if_pos halive]
    have hmoves : Life.resting.moves + (Hand.launched i : Hand σ ι ε).moves + 1 =
        (Hand.handled i effect : Hand σ ι ε).moves := rfl
    unfold Threads.owed errand
    rw [if_pos halive, hh]
    show ((t.effects ++ [Life.resting]).map Life.moves).sum +
      (if t.isAlive then (Hand.launched i : Hand σ ι ε).moves else 0) + _ + 1 ≤ _
    rw [if_pos halive, List.map_append, List.sum_append]
    simp only [List.map_cons, List.map_nil, List.sum_cons, List.sum_nil]
    omega
  | publishes state previous i next hw hh =>
    have halive := isAlive_of_alive hw
    rw [if_pos halive]
    exact owed_hand halive halive hh rfl (Nat.le_refl _) rfl rfl
  | applies state previous i next hw hh =>
    have halive := isAlive_of_alive hw
    rw [if_pos halive]
    exact owed_hand halive rfl hh rfl (Nat.le_refl _) rfl rfl
  | halts state previous i p hw hh =>
    have halive := isAlive_of_alive hw
    rw [if_pos halive]
    exact owed_hand halive halive hh rfl (Nat.le_refl _) rfl rfl
  | ends state previous outcome hw hh =>
    have halive := isAlive_of_alive hw
    have hdead : ({ t with worker := gone outcome, hand := .free, inbox := [] } :
        Threads σ ι ε).isAlive = false := by
      cases outcome <;> rfl
    have hmoves : (Hand.leaving outcome : Hand σ ι ε).moves = 1 := rfl
    unfold Threads.owed errand
    rw [if_pos halive, if_pos halive, hdead, hh, if_neg Bool.false_ne_true]
    dsimp only
    omega

theorem submit_owed (i : ι) (t : Threads σ ι ε) : (t.submit i).1.owed = t.owed := by
  unfold submit
  split <;> rfl

theorem setLife_owed {id : Nat} {old new : Life} (hold : t.effects[id]? = some old)
    (hmoves : new.moves + 1 ≤ old.moves) : (t.setLife id new).owed + 1 ≤ t.owed := by
  have hsum := sum_map_set_add Life.moves hold new
  unfold owed
  show ((t.effects.set id new).map Life.moves).sum + t.errand + _ + 1 ≤ _
  dsimp only [setLife]
  omega

/-- Whether a move that is made was due or not, it is one less. -/
theorem owed_of_lt {t' : Threads σ ι ε} (h : t'.owed + 1 ≤ t.owed) (due : Bool) :
    t'.owed + (if due then 1 else 0) ≤ t.owed := by
  cases due with
  | true => exact h
  | false => exact Nat.le_of_succ_le h

theorem look_owed (id : Nat) (hs : t.shutdown = true) :
    (t.look id).1.owed + (if t.isDue (.look id : Act ι) then 1 else 0) ≤ t.owed := by
  have hdue : t.isDue (.look id : Act ι) = decide (t.effects[id]? = some .resting) := rfl
  rw [hdue]
  unfold look
  split
  · rename_i hl
    rw [isSignalled, hs, Bool.true_or, if_pos rfl]
    exact owed_of_lt (setLife_owed hl (Nat.le_refl _)) _
  · rename_i hl
    rw [decide_eq_false hl]
    exact Nat.le_refl _

theorem leave_owed (id : Nat) (exit : Exit) (t : Threads σ ι ε) :
    (t.leave id exit).1.owed + (if t.isDue (.leave id exit : Act ι) then 1 else 0) ≤ t.owed := by
  have hdue : t.isDue (.leave id exit : Act ι) =
      decide (t.effects[id]? = some .polled ∨ t.effects[id]? = some .dropping) := rfl
  rw [hdue]
  cases hl : t.effects[id]? with
  | none =>
    unfold leave
    rw [hl]
    exact Nat.le_refl _
  | some life =>
    cases life with
    | polled =>
      refine owed_of_lt ?_ _
      unfold leave
      rw [hl]
      cases exit with
      | waits => exact setLife_owed hl (by decide)
      | completes | panics => exact setLife_owed hl (by simp [Life.moves])
    | dropping =>
      refine owed_of_lt ?_ _
      unfold leave
      rw [hl]
      exact setLife_owed hl (Nat.le_refl _)
    | resting | ended =>
      unfold leave
      rw [hl]
      exact Nat.le_refl _

theorem setCall_owed {id : Nat} {old new : Call} (hold : t.teardowns[id]? = some old)
    (hmoves : new.moves + 1 ≤ old.moves) : (t.setCall id new).owed + 1 ≤ t.owed := by
  have hsum := sum_map_set_add Call.moves hold new
  unfold owed
  show _ + t.errand + ((t.teardowns.set id new).map Call.moves).sum + 1 ≤ _
  dsimp only [setCall]
  omega

theorem resume_owed (id : Nat) (t : Threads σ ι ε) :
    (t.resume id).1.owed + (if t.canResume id then 1 else 0) ≤ t.owed := by
  have hresumed := t.resume_resumed id
  generalize t.resume id = after at hresumed
  cases hresumed with
  | still hno =>
    rw [hno]
    exact Nat.le_refl _
  | freed _ hc | claimed _ hc | spared _ hc | joined _ _ hc =>
    exact owed_of_lt (setCall_owed hc (by simp [Call.moves])) _

/-- **Each move that is due is one owed less, and nobody's act adds to what is owed**, short of another
call of `destroy`. -/
theorem step_owed (S : Setup σ ι ε) (hs : t.shutdown = true) {act : Act ι} (hact : act ≠ .destroy) :
    (t.step S act).1.owed + (if t.isDue act then 1 else 0) ≤ t.owed := by
  cases act with
  | destroy => exact absurd rfl hact
  | work => exact (work_turned S t).owed hs
  | look id => exact look_owed id hs
  | leave id exit => exact t.leave_owed id exit
  | resume id => exact t.resume_owed id
  | submit i => exact Nat.le_of_eq (t.submit_owed i)
  | send id i =>
    show (t.send id i).1.owed ≤ t.owed
    unfold send
    split
    · exact Nat.le_of_eq (t.submit_owed i)
    · exact Nat.le_of_eq (t.submit_owed i)
    · exact Nat.le_refl _
  | silence id => rcases step_silence_cases S t id with hs | hs <;> rw [hs] <;> exact Nat.le_refl _
  | signal => rcases step_signal_cases S t with ⟨-, hs⟩ | ⟨-, hs⟩ <;> rw [hs] <;> exact Nat.le_refl _
  | subscribe | read | unsubscribe | drop => exact Nat.le_refl _

/-- What is owed bounds the moves that are made by those that have one to make. -/
theorem dues_add_owed (S : Setup σ ι ε) (hs : t.shutdown = true) {acts : List (Act ι)}
    (hacts : .destroy ∉ acts) : dues S t acts + (t.runFrom S acts).1.owed ≤ t.owed := by
  induction acts generalizing t with
  | nil => exact Nat.le_of_eq (Nat.zero_add _)
  | cons act rest ih =>
    have hact : act ≠ .destroy := fun heq => hacts (heq ▸ List.mem_cons_self)
    have hstep := step_owed S hs hact
    have hrest := ih (step_shutdown S hs act) fun hmem => hacts (List.mem_cons_of_mem act hmem)
    rw [dues, runFrom_cons]
    dsimp only
    omega

/-! ### Nothing due is nothing left -/

/-- Nobody has a move to make. -/
def Idle (t : Threads σ ι ε) : Prop := ∀ act : Act ι, t.isDue act = false

theorem Idle.ended (h : t.Idle) {id : Nat} {life : Life} (hl : t.effects[id]? = some life) :
    ∃ how, life = .ended how := by
  have hlook : decide (t.effects[id]? = some .resting) = false := h (.look id)
  have hleave : decide (t.effects[id]? = some .polled ∨ t.effects[id]? = some .dropping) = false :=
    h (.leave id .waits)
  rw [hl] at hlook hleave
  cases life with
  | ended how => exact ⟨how, rfl⟩
  | resting => simp at hlook
  | polled | dropping => simp at hleave

theorem Idle.active (h : t.Idle) : t.active = 0 := by
  rw [Threads.active, List.countP_eq_zero]
  intro life hmem
  obtain ⟨id, hl⟩ := List.mem_iff_getElem?.mp hmem
  obtain ⟨how, rfl⟩ := h.ended hl
  exact Bool.false_ne_true

theorem Idle.dead (h : t.Idle) : t.isAlive = false := h .work

theorem Idle.returned (h : t.Idle) (hs : t.shutdown = true) {id : Nat} {call : Call}
    (hc : t.teardowns[id]? = some call) : ∃ result, call = .returned result := by
  have hno : t.canResume id = false := h (.resume id)
  rw [canResume, hs, hc] at hno
  cases call with
  | awaitingEffects => simp [h.active] at hno
  | freed => cases hno
  | awaitingWorker => simp [h.dead] at hno
  | returned result => exact ⟨result, rfl⟩

/-- **Whoever keeps moving those that have a move to make comes to the end.** -/
theorem exists_idle (S : Setup σ ι ε) (hs : t.shutdown = true) :
    ∃ acts : List (Act ι), dues S t acts = acts.length ∧ .destroy ∉ acts ∧
      (t.runFrom S acts).1.Idle := by
  -- by induction on what is owed, which any move that is due takes away from
  generalize hbound : t.owed = bound
  induction bound using Nat.strongRecOn generalizing t with
  | ind bound ih =>
    by_cases hidle : t.Idle
    · exact ⟨[], rfl, nofun, hidle⟩
    · obtain ⟨act, hdue⟩ : ∃ act : Act ι, t.isDue act = true := by simpa [Idle] using hidle
      have hact : act ≠ .destroy := by
        rintro rfl
        cases hdue
      have hstep := step_owed S hs hact
      rw [if_pos hdue] at hstep
      obtain ⟨rest, hall, hrest, hlast⟩ := ih _ (by omega) (step_shutdown S hs act) rfl
      refine ⟨act :: rest, ?_, ?_, ?_⟩
      · rw [dues, if_pos hdue, hall, List.length_cons, Nat.add_comm]
      · rw [List.mem_cons, not_or]
        exact ⟨hact.symm, hrest⟩
      · rw [runFrom_cons]
        exact hlast

/-! ### What every effect comes to -/

/-- **Each effect ends just once, if it has ended.** -/
theorem endings_run (S : Setup σ ι ε) (acts : List (Act ι)) (id : Nat) :
    endingsIn id (run S acts).2 =
      (match (run S acts).1.effects[id]? with
        | some (.ended how) => [how]
        | _ => []) := by
  refine runFrom_induct (P := fun t past => endingsIn id past =
    (match t.effects[id]? with
      | some (.ended how) => [how]
      | _ => [])) rfl ?_
  intro act _ t past h
  rw [endingsIn_append, h]
  cases step_fares S t act id with
  | same hl hn => rw [hl, hn, List.append_nil]
  | launched hold hl hn | begins hold _ hl hn | drops hold _ hl hn | rests hold hl hn
  | ends _ hold _ hl hn | cancelled hold hl hn =>
    rw [hold, hl, hn]
    rfl

theorem ended_step (S : Setup σ ι ε) {id : Nat} {how : Ending}
    (h : t.effects[id]? = some (.ended how)) (act : Act ι) :
    (t.step S act).1.effects[id]? = some (.ended how) := by
  cases step_fares S t act id with
  | same hl => exact hl.trans h
  | launched hold | begins hold | drops hold | rests hold | ends _ hold | cancelled hold =>
    rw [h] at hold
    cases hold

theorem ended_runFrom (S : Setup σ ι ε) {id : Nat} {how : Ending}
    (h : t.effects[id]? = some (.ended how)) (acts : List (Act ι)) :
    (t.runFrom S acts).1.effects[id]? = some (.ended how) :=
  runFrom_induct (P := fun t' _ => t'.effects[id]? = some (.ended how)) h
    fun act _ _ _ h' => ended_step S h' act

theorem ended_of_active (h : t.active = 0) {id : Nat} (hid : id < t.effects.length) :
    ∃ how, t.effects[id]? = some (.ended how) := by
  rw [List.getElem?_eq_getElem hid]
  have hno := List.countP_eq_zero.mp h _ (List.getElem_mem hid)
  cases hl : t.effects[id] with
  | ended how => exact ⟨how, rfl⟩
  | resting | polled | dropping => simp [hl, Life.isUnderWay] at hno

theorem Passes.unlaunched {state : σ} {previous : Option ι} {hand next : Hand σ ι ε}
    {events : List (Event σ ι ε)} (h : Passes S state previous t hand next events) :
    launchesIn events = [] := by
  cases h with
  | compared hc | uncompared hc => rcases compare_called hc with rfl | ⟨p, rfl⟩ <;> rfl
  | _ => rfl

theorem Turned.length {after : Threads σ ι ε × List (Event σ ι ε)} (h : Turned S t after) :
    after.1.effects.length = t.effects.length + (launchesIn after.2).length := by
  cases h with
  | passes state previous hand next events _ _ hp =>
    rw [hp.unlaunched]
    rfl
  | skips state previous i hand events _ _ hk =>
    cases hk with
    | repeated hc => rcases compare_called hc with rfl | ⟨p, rfl⟩ <;> rfl
    | refused => rfl
  | launches => exact List.length_append
  | ends state previous outcome => cases outcome <;> rfl
  | dead | takes | publishes | applies | halts => rfl

theorem step_length (S : Setup σ ι ε) (t : Threads σ ι ε) (act : Act ι) :
    (t.step S act).1.effects.length = t.effects.length + (launchesIn (t.step S act).2).length := by
  by_cases hact : act = .work
  · subst hact
    exact (work_turned S t).length
  · have haside := step_aside S t hact
    rw [launchesIn_of_workless haside.workless]
    exact haside.length

theorem length_runFrom (S : Setup σ ι ε) (t : Threads σ ι ε) (acts : List (Act ι)) :
    (t.runFrom S acts).1.effects.length =
      t.effects.length + (launchesIn (t.runFrom S acts).2).length := by
  refine runFrom_induct (P := fun t' past =>
    t'.effects.length = t.effects.length + (launchesIn past).length) rfl ?_
  intro act _ t' past h
  rw [launchesIn_append, List.length_append, step_length, h, Nat.add_assoc]

theorem length_dead (S : Setup σ ι ε) (h : t.isAlive = false) (acts : List (Act ι)) :
    (t.runFrom S acts).1.effects.length = t.effects.length := by
  refine (runFrom_induct (S := S) (t := t)
    (P := fun t' _ => t'.isAlive = false ∧ t'.effects.length = t.effects.length) ⟨h, rfl⟩ ?_).2
  rintro act - t' - ⟨hdead, hlength⟩
  refine ⟨step_dead S hdead act, ?_⟩
  by_cases hact : act = .work
  · subst hact
    exact (congrArg (fun after => after.1.effects.length) (work_dead S hdead)).trans hlength
  · exact (step_aside S t' hact).length.trans hlength

/-! ### What a call of `destroy` has seen -/

/-- The call still waits for the effects, or those that were there have ended. -/
def Drained (id n : Nat) (t : Threads σ ι ε) : Prop :=
  t.teardowns[id]? = some .awaitingEffects ∨ ∀ k < n, ∃ how, t.effects[k]? = some (.ended how)

/-- **A call of `destroy` goes on when all effects that were there have ended.** -/
theorem drained_runFrom (S : Setup σ ι ε) {id : Nat}
    (h : t.teardowns[id]? = some .awaitingEffects) (acts : List (Act ι)) :
    Drained id t.effects.length (t.runFrom S acts).1 := by
  refine (runFrom_induct (S := S) (t := t)
    (P := fun t' _ => t.effects.length ≤ t'.effects.length ∧ Drained id t.effects.length t')
    ⟨Nat.le_refl _, Or.inl h⟩ ?_).2
  rintro act - t' - ⟨hlength, hdrained⟩
  refine ⟨hlength.trans (by rw [step_length]; exact Nat.le_add_right _ _), ?_⟩
  rcases hdrained with hwaits | hended
  · by_cases hresume : act = .resume id
    · subst hresume
      have hresumed := t'.resume_resumed id
      show Drained id _ (t'.resume id).1
      generalize t'.resume id = after at hresumed
      cases hresumed with
      | still => exact Or.inl hwaits
      | freed _ _ hn => exact Or.inr fun k hk => ended_of_active hn (Nat.lt_of_lt_of_le hk hlength)
      | claimed _ hc | spared _ hc | joined _ _ hc =>
        rw [hwaits] at hc
        cases hc
    · exact Or.inl (call_step S hwaits hresume)
  · right
    intro k hk
    obtain ⟨how, hk⟩ := hended k hk
    exact ⟨how, ended_step S hk act⟩

/-- All calls of `destroy` but one have returned. -/
def Single (id : Nat) (t : Threads σ ι ε) : Prop :=
  ∀ (k : Nat) (call : Call), k ≠ id → t.teardowns[k]? = some call → ∃ result, call = .returned result

namespace Single

variable {id : Nat}

theorem runFrom (S : Setup σ ι ε) (h : t.Single id) {acts : List (Act ι)} (hacts : .destroy ∉ acts) :
    (t.runFrom S acts).1.Single id := by
  refine runFrom_induct (P := fun t' _ => t'.Single id) h ?_
  intro act hmem t' _ ih k call hk hc
  have hact : act ≠ .destroy := fun heq => hacts (heq ▸ hmem)
  have hlt := (List.getElem?_eq_some_iff.mp hc).1
  rw [length_calls S t' hact] at hlt
  obtain ⟨result, hold⟩ := ih k _ hk (List.getElem?_eq_getElem hlt)
  have hreturned := returned_step S ((List.getElem?_eq_getElem hlt).trans (congrArg some hold)) act
  rw [hc] at hreturned
  exact ⟨result, Option.some.inj hreturned⟩

theorem destroy (S : Setup σ ι ε) {pre acts : List (Act ι)}
    (hsingle : ∀ call ∈ (run S pre).1.teardowns, ∃ result, call = .returned result)
    (hacts : .destroy ∉ acts) :
    (run S (pre ++ Act.destroy :: acts)).1.Single (run S pre).1.teardowns.length := by
  have hbegun : ((run S pre).1.step S .destroy).1.Single (run S pre).1.teardowns.length := by
    intro k call hk hc
    rw [getElem?_destroy, if_neg hk] at hc
    exact hsingle call (List.mem_of_getElem? hc)
  rw [run_split]
  exact hbegun.runFrom S hacts

/-- **The only call under way returns when the worker has ended.** -/
theorem dead (h : t.Single id) (hstaged : Staged t) {result : Except EngineError Unit}
    (hc : t.teardowns[id]? = some (.returned result)) : t.isAlive = false ∧ t.status = .destroyed := by
  have hnone : ¬t.Awaited := by
    rintro ⟨taker, ht⟩
    by_cases hk : taker = id
    · subst hk
      rw [hc] at ht
      cases ht
    · obtain ⟨result, heq⟩ := h taker _ hk ht
      cases heq
  exact ⟨(hstaged.joined (hstaged.spared id result hc)).resolve_right hnone,
    (hstaged.destroyed id result hc).resolve_right hnone⟩

end Single

theorem calls_of_closed (S : Setup σ ι ε) {acts : List (Act ι)} (hdrop : .drop ∉ acts)
    (h : (run S acts).1.broadcast.closed = true) : 0 < (run S acts).1.teardowns.length := by
  refine runFrom_induct (S := S) (t := Threads.start S)
    (P := fun t' _ => t'.broadcast.closed = true → 0 < t'.teardowns.length) nofun ?_ h
  intro act hmem t' _ ih hclosed
  rcases closed_of_step S t' act hclosed with hold | hbegins
  · exact Nat.lt_of_lt_of_le (ih hold) (there_step S t' act)
  · cases act with
    | destroy =>
      show 0 < (t'.teardowns ++ [Call.awaitingEffects]).length
      rw [List.length_append]
      exact Nat.succ_pos _
    | drop => exact absurd hmem hdrop
    | _ => cases hbegins

/-- If the signal was there before the only call of `destroy` under way began, the worker had ended. -/
theorem dead_of_shutdown (S : Setup σ ι ε) {acts : List (Act ι)} (hdrop : .drop ∉ acts)
    (hsingle : ∀ call ∈ (run S acts).1.teardowns, ∃ result, call = .returned result)
    (h : (run S acts).1.shutdown = true) : (run S acts).1.isAlive = false := by
  have hstaged := staged_run S acts
  have hpos := calls_of_closed S hdrop (hstaged.closed h)
  obtain ⟨result, hc⟩ := hsingle _ (List.getElem_mem hpos)
  have hall : (run S acts).1.Single 0 := fun k call _ hk => hsingle call (List.mem_of_getElem? hk)
  exact (hall.dead hstaged ((List.getElem?_eq_getElem hpos).trans (congrArg some hc))).1

theorem shutdown_before (S : Setup σ ι ε) {acts : List (Act ι)} (hacts : .signal ∉ acts)
    (h : (t.runFrom S acts).1.shutdown = true) : t.shutdown = true := by
  refine runFrom_induct (S := S) (t := t)
    (P := fun t' _ => t'.shutdown = true → t.shutdown = true) id ?_ h
  intro act hmem t' _ ih hs
  rcases shutdown_of_step S t' act hs with hold | ⟨rfl, -⟩
  · exact ih hold
  · exact absurd hmem hacts

/-! ### Nothing is left running -/

theorem submit_dead (h : t.isAlive = false) (i : ι) : t.submit i = (t, [.rejected i]) := by
  rw [submit, if_neg (by rw [h]; exact Bool.false_ne_true)]

theorem Lived.closed {id : Nat} {after : Threads σ ι ε × List (Event σ ι ε)} (h : Lived id t after)
    (hdead : t.isAlive = false) : Closed after.2 := by
  cases h with
  | sends i => simp [submit_dead hdead, Closed]
  | ends | cancelled => simp [finish, Closed]
  | still | begins | drops | rests => exact fun _ hmem => absurd hmem List.not_mem_nil

theorem Resumed.closed {id : Nat} {after : Threads σ ι ε × List (Event σ ι ε)}
    (h : Resumed id t after) : Closed after.2 := by
  cases h with
  | still | freed | claimed => exact fun _ hmem => absurd hmem List.not_mem_nil
  | spared | joined => simp [finishTeardown, Closed]

theorem step_dead_closed (S : Setup σ ι ε) (h : t.isAlive = false) (act : Act ι) :
    Closed (t.step S act).2 := by
  cases act with
  | work =>
    show Closed (t.work S).2
    rw [work_dead S h]
    exact fun _ hmem => nomatch hmem
  | submit i =>
    show Closed (t.submit i).2
    rw [submit_dead h]
    simp [Closed]
  | look id => exact (t.look_lived id).closed h
  | send id i => exact (t.send_lived id i).closed h
  | leave id exit => exact (t.leave_lived id exit).closed h
  | resume id => exact (t.resume_resumed id).closed
  | subscribe | read | unsubscribe | destroy | drop | silence | signal => simp [step, Closed]

theorem closed_dead (S : Setup σ ι ε) (h : t.isAlive = false) (acts : List (Act ι)) :
    Closed (t.runFrom S acts).2 := by
  refine (runFrom_induct (P := fun t' past => t'.isAlive = false ∧ Closed past)
    ⟨h, fun _ hmem => nomatch hmem⟩ ?_).2
  intro act _ t' past ⟨hdead, hclosed⟩
  refine ⟨step_dead S hdead act, fun i hmem => ?_⟩
  rcases List.mem_append.mp hmem with hmem | hmem
  · exact hclosed i hmem
  · exact step_dead_closed S hdead act i hmem

theorem active_le {n : Nat} (h : ∀ id < n, ∃ how, t.effects[id]? = some (.ended how)) :
    t.active ≤ t.effects.length - n := by
  have hfirst : (t.effects.take n).countP (·.isUnderWay) = 0 := by
    rw [List.countP_eq_zero]
    intro life hmem
    obtain ⟨id, hid⟩ := List.mem_iff_getElem?.mp hmem
    rw [List.getElem?_take] at hid
    split at hid
    · rename_i hlt
      obtain ⟨how, hl⟩ := h id hlt
      rw [hl] at hid
      cases hid
      exact Bool.false_ne_true
    · cases hid
  have hrest := (t.effects.drop n).countP_le_length (p := (·.isUnderWay))
  have hall : t.active = ((t.effects.take n) ++ (t.effects.drop n)).countP (·.isUnderWay) := by
    rw [List.take_append_drop, active]
  rw [hall, List.countP_append, hfirst, Nat.zero_add]
  rwa [List.length_drop] at hrest

/-- Nothing of an engine is left running that the signal came to, of which this was told so far. -/
structure Ceased (S : Setup σ ι ε) (signalled t : Threads σ ι ε) (past : List (Event σ ι ε)) : Prop where
  /-- Each effect that was there has ended once, and as a cancelled one unless it was being polled. -/
  effects : ∀ id < signalled.effects.length, ∃ how, t.effects[id]? = some (.ended how) ∧
    endingsIn id past = [how] ∧
    (signalled.effects[id]? = some .resting ∨ signalled.effects[id]? = some .dropping →
      how = .cancelled) ∧
    ∀ earlier, signalled.effects[id]? = some (.ended earlier) → how = earlier
  /-- No effect is left but one that the worker was yet to launch when the signal came. -/
  active : t.active ≤ signalled.hand.launches
  dead : t.isAlive = false
  shut : t.broadcast.Shut
  /-- Whoever stays with a stream finds what is queued for it, and then the end. -/
  readings : ∀ n acts, .unsubscribe n ∉ acts →
    readingsIn n (t.runFrom S acts).2 =
      ((t.broadcast.queued n).map .state).take (acts.countP (·.reads n)) ++
        List.replicate (acts.countP (·.reads n) - (t.broadcast.queued n).length) .ended
  rejected : ∀ i, t.submit i = (t, [.rejected i])
  closed : ∀ acts, Closed (t.runFrom S acts).2

/-- Without its worker and the effects that were there, an engine that was torn down has ceased. -/
theorem ceased_of_dead (S : Setup σ ι ε) (pre mid post : List (Act ι)) {act : Act ι}
    (hact : act.begins = true)
    (hended : ∀ id < (run S (pre ++ act :: mid)).1.effects.length, ∃ how,
      (run S (pre ++ act :: (mid ++ Act.signal :: post))).1.effects[id]? = some (.ended how))
    (hdead : (run S (pre ++ act :: (mid ++ Act.signal :: post))).1.isAlive = false) :
    Ceased S (run S (pre ++ act :: mid)).1 (run S (pre ++ act :: (mid ++ Act.signal :: post))).1
      (run S (pre ++ act :: (mid ++ Act.signal :: post))).2 := by
  have hrun := run_signalled S pre mid post hact
  have hstaged := staged_run S (pre ++ act :: (mid ++ Act.signal :: post))
  have hshut : (run S (pre ++ act :: (mid ++ Act.signal :: post))).1.broadcast.Shut :=
    hstaged.shut (run_begun S pre (mid ++ Act.signal :: post) hact)
  refine ⟨fun id hid => ?_, ?_, hdead, hshut, fun n acts => readings_runFrom S hshut,
    submit_dead hdead, closed_dead S hdead⟩
  · obtain ⟨how, hhow⟩ := hended id hid
    have hendings := endings_run S (pre ++ act :: (mid ++ Act.signal :: post)) id
    have hbefore := endings_run S (pre ++ act :: mid) id
    rw [hhow] at hendings
    refine ⟨how, hhow, hendings, fun hidle => ?_, fun earlier hearlier => ?_⟩
    · -- it had not ended before the signal, and was not polled after it
      rw [hrun, endingsIn_append] at hendings
      have hnone : endingsIn id (run S (pre ++ act :: mid)).2 = [] := by
        rcases hidle with hl | hl <;> rw [hbefore, hl]
      rw [hnone, List.nil_append] at hendings
      have hmem : how ∈ endingsIn id ((run S (pre ++ act :: mid)).1.signalled.runFrom S post).2 :=
        hendings ▸ List.mem_singleton_self how
      rcases endings_signalled S (t := signalled _) rfl post hmem with hc | hp
      · exact hc
      · have hpolled : (run S (pre ++ act :: mid)).1.effects[id]? = some .polled := hp
        rw [hpolled] at hidle
        rcases hidle with hl | hl <;> cases hl
    · have hstays := ended_runFrom S (t := (run S (pre ++ act :: mid)).1.signalled) hearlier post
      rw [hrun] at hhow
      rw [hhow] at hstays
      cases hstays
      rfl
  · have hlaunched := (winds_runFrom S (t := (run S (pre ++ act :: mid)).1.signalled) rfl post).launched
    have hlength := length_runFrom S (run S (pre ++ act :: mid)).1.signalled post
    have hactive := active_le hended
    rw [hrun] at hactive ⊢
    have hsame : (run S (pre ++ act :: mid)).1.signalled.effects.length =
      (run S (pre ++ act :: mid)).1.effects.length := rfl
    have hhand : (run S (pre ++ act :: mid)).1.signalled.hand = (run S (pre ++ act :: mid)).1.hand := rfl
    rw [hhand] at hlaunched
    dsimp only at hactive ⊢
    omega

/-! ### Bounds -/

theorem lives_le (t : Threads σ ι ε) : (t.effects.map Life.moves).sum ≤ 3 * t.active := by
  unfold active
  induction t.effects with
  | nil => exact Nat.le_refl _
  | cons life rest ih =>
    have hlife : life.moves ≤ 3 * (if life.isUnderWay then 1 else 0) := by
      cases life <;> simp [Life.moves, Life.isUnderWay]
    rw [List.map_cons, List.sum_cons, List.countP_cons]
    omega

theorem errand_le (t : Threads σ ι ε) : t.errand ≤ 13 := by
  unfold errand
  split
  · cases t.hand <;> simp [Hand.moves]
  · exact Nat.zero_le _

theorem calls_of_returned {calls : List Call} (h : ∀ call ∈ calls, ∃ result, call = .returned result) :
    (calls.map Call.moves).sum = 0 := by
  induction calls with
  | nil => rfl
  | cons call rest ih =>
    obtain ⟨result, rfl⟩ := h call List.mem_cons_self
    rw [List.map_cons, List.sum_cons, ih fun call hmem => h call (List.mem_cons_of_mem _ hmem)]
    rfl

theorem Single.calls_le {id : Nat} (h : t.Single id) : (t.teardowns.map Call.moves).sum ≤ 3 := by
  have hreturned : ∀ call ∈ t.teardowns.set id (.returned (.ok ())), ∃ result,
      call = .returned result := by
    intro call hmem
    obtain ⟨k, hk⟩ := List.mem_iff_getElem?.mp hmem
    rcases getElem?_set_cases hk with ⟨-, heq⟩ | ⟨hne, hold⟩
    · exact ⟨_, heq⟩
    · exact h k call hne hold
  cases hc : t.teardowns[id]? with
  | none =>
    rw [List.set_eq_of_length_le (List.getElem?_eq_none_iff.mp hc)] at hreturned
    exact (Nat.le_of_eq (calls_of_returned hreturned)).trans (Nat.zero_le _)
  | some call =>
    have hsum := sum_map_set_add Call.moves hc (.returned (.ok ()))
    rw [calls_of_returned hreturned] at hsum
    have hcall : call.moves ≤ 3 := by cases call <;> simp [Call.moves]
    have hzero : (Call.returned (.ok ())).moves = 0 := rfl
    omega

/-- With one call under way at most, few moves are owed. -/
theorem Single.owed_le {id : Nat} (h : t.Single id) : t.owed ≤ 3 * t.active + 16 := by
  have hcalls := h.calls_le
  have hlives := t.lives_le
  have herrand := t.errand_le
  rw [owed]
  omega

/-! ### Teardowns -/

section Teardowns

variable {pre mid post : List (Act ι)}

/-- A teardown comes to its end, however far it has come. -/
theorem exists_idle_run (S : Setup σ ι ε) (pre mid post : List (Act ι)) {act : Act ι}
    (hact : act.begins = true) :
    ∃ more, dues S (run S (pre ++ act :: mid)).1.signalled (post ++ more) =
        dues S (run S (pre ++ act :: mid)).1.signalled post + more.length ∧ .destroy ∉ more ∧
      (run S (pre ++ act :: (mid ++ Act.signal :: (post ++ more)))).1.Idle := by
  have hkept := runFrom_shutdown S (t := (run S (pre ++ act :: mid)).1.signalled) rfl post
  obtain ⟨more, hall, hmore, hidle⟩ := exists_idle S hkept
  refine ⟨more, by rw [dues_append, hall], hmore, ?_⟩
  rw [run_signalled S pre mid (post ++ more) hact, runFrom_append]
  exact hidle

/-- A call of `destroy` has returned when nobody has a move to make. -/
theorem returned_of_idle (S : Setup σ ι ε) (pre mid post : List (Act ι))
    (hidle : (run S (pre ++ Act.destroy :: (mid ++ Act.signal :: post))).1.Idle) :
    ∃ result, (run S (pre ++ Act.destroy :: (mid ++ Act.signal :: post))).1.teardowns[
      (run S pre).1.teardowns.length]? = some (.returned result) := by
  have hsignal : (run S (pre ++ Act.destroy :: (mid ++ Act.signal :: post))).1.shutdown = true := by
    rw [run_signalled S pre mid post rfl]
    exact runFrom_shutdown S (t := signalled _) rfl post
  have hnew : (run S pre).1.teardowns.length <
      ((run S pre).1.step S .destroy).1.teardowns.length := by
    show _ < ((run S pre).1.teardowns ++ [_]).length
    rw [List.length_append]
    exact Nat.lt_succ_self _
  obtain ⟨call, hc⟩ := there_runFrom S hnew (mid ++ Act.signal :: post)
  have hcall : (run S (pre ++ Act.destroy :: (mid ++ Act.signal :: post))).1.teardowns[
      (run S pre).1.teardowns.length]? = some call := by
    rw [run_split]
    exact hc
  obtain ⟨result, rfl⟩ := hidle.returned hsignal hcall
  exact ⟨result, hcall⟩

/-- The only call of `destroy` under way returns when all effects have ended that were there when it gave
the signal. -/
theorem drained_run (S : Setup σ ι ε) (hdrop : .drop ∉ pre)
    (hsingle : ∀ call ∈ (run S pre).1.teardowns, ∃ result, call = .returned result)
    (hmid : .signal ∉ mid) {result : Except EngineError Unit}
    (hc : (run S (pre ++ Act.destroy :: (mid ++ Act.signal :: post))).1.teardowns[
      (run S pre).1.teardowns.length]? = some (.returned result)) :
    ∀ id < (run S (pre ++ Act.destroy :: mid)).1.effects.length, ∃ how,
      (run S (pre ++ Act.destroy :: (mid ++ Act.signal :: post))).1.effects[id]? = some (.ended how) := by
  have hbegun : ((run S pre).1.step S .destroy).1.teardowns[(run S pre).1.teardowns.length]? =
      some .awaitingEffects := by rw [getElem?_destroy, if_pos rfl]
  obtain ⟨call, hcall⟩ := there_runFrom S (List.getElem?_eq_some_iff.mp hbegun).1 mid
  have hmidrun : (run S (pre ++ Act.destroy :: mid)).1 =
      (((run S pre).1.step S .destroy).1.runFrom S mid).1 := by rw [run_split]
  rw [← hmidrun] at hcall
  by_cases hwaits : call = .awaitingEffects
  · subst hwaits
    have hdrained := drained_runFrom S (t := (run S (pre ++ Act.destroy :: mid)).1.signalled) hcall post
    rw [run_signalled S pre mid post rfl] at hc ⊢
    refine hdrained.resolve_left fun hno => ?_
    rw [hc] at hno
    cases hno
  · -- the signal was there before, and the worker had ended
    have hsignal := (staged_run S (pre ++ Act.destroy :: mid)).signalled _ call hcall hwaits
    rw [hmidrun] at hsignal
    have hbefore := shutdown_before S (t := ((run S pre).1.step S .destroy).1) hmid hsignal
    have hdead := dead_of_shutdown S hdrop hsingle hbefore
    have hlength := length_dead S (t := ((run S pre).1.step S .destroy).1) hdead mid
    have hdrained := drained_runFrom S hbegun (mid ++ Act.signal :: post)
    rw [hmidrun, hlength]
    rw [run_split] at hc ⊢
    refine hdrained.resolve_left fun hno => ?_
    rw [hc] at hno
    cases hno

theorem Single.drop (S : Setup σ ι ε)
    (hsingle : ∀ call ∈ (run S pre).1.teardowns, ∃ result, call = .returned result)
    (hmid : .destroy ∉ mid) :
    (run S (pre ++ Act.drop :: mid)).1.Single (run S pre).1.teardowns.length := by
  have hbegun : ((run S pre).1.step S .drop).1.Single (run S pre).1.teardowns.length :=
    fun k call _ hc => hsingle call (List.mem_of_getElem? hc)
  rw [run_split]
  exact hbegun.runFrom S hmid

/-- **Tearing down comes to an end.** Let the engine be anywhere, with any effects and any queue, the
worker and the effects in the midst of anything, and let all earlier calls of `destroy` have returned.

A call of `destroy` returns, in whatever order the effects, the worker and the call itself move from when it
has given the signal, and whatever others do beside them. Those that have a move to make make at most
three for each effect that had not ended, and 16 more; as long as the call has not returned, somebody has
one to make; and no effect is waited for to go on by itself, nor any time to pass. When the call has
returned, the engine is destroyed, the worker has ended, the streams have, and no intent is accepted. All
effects that were there at the signal have ended, each once, and as cancelled ones but for those that were
being polled. One effect may be left: the one that the worker was yet to launch when the signal came. It
ends too, as soon as nobody has a move to make.

An engine that is let go instead comes to the same without a call when nobody has a move to make, and then
no effect is left. -/
theorem teardown_comes_to_end (S : Setup σ ι ε) (pre mid post : List (Act ι)) (hdrop : .drop ∉ pre)
    (hsingle : ∀ call ∈ (run S pre).1.teardowns, ∃ result, call = .returned result)
    (hdestroy : .destroy ∉ mid ++ post) (hsignal : .signal ∉ mid) :
    (dues S (run S (pre ++ Act.destroy :: mid)).1.signalled post ≤
        3 * (run S (pre ++ Act.destroy :: mid)).1.active + 16 ∧
      (∃ more, dues S (run S (pre ++ Act.destroy :: mid)).1.signalled (post ++ more) =
          dues S (run S (pre ++ Act.destroy :: mid)).1.signalled post + more.length ∧ .destroy ∉ more ∧
        ∃ result, (run S (pre ++ Act.destroy :: (mid ++ Act.signal :: (post ++ more)))).1.teardowns[
          (run S pre).1.teardowns.length]? = some (.returned result)) ∧
      ((run S (pre ++ Act.destroy :: (mid ++ Act.signal :: post))).1.Idle →
        (run S (pre ++ Act.destroy :: (mid ++ Act.signal :: post))).1.active = 0 ∧
        ∃ result, (run S (pre ++ Act.destroy :: (mid ++ Act.signal :: post))).1.teardowns[
          (run S pre).1.teardowns.length]? = some (.returned result)) ∧
      ∀ result, (run S (pre ++ Act.destroy :: (mid ++ Act.signal :: post))).1.teardowns[
          (run S pre).1.teardowns.length]? = some (.returned result) →
        (run S (pre ++ Act.destroy :: (mid ++ Act.signal :: post))).1.status = .destroyed ∧
        Ceased S (run S (pre ++ Act.destroy :: mid)).1
          (run S (pre ++ Act.destroy :: (mid ++ Act.signal :: post))).1
          (run S (pre ++ Act.destroy :: (mid ++ Act.signal :: post))).2) ∧
    (dues S (run S (pre ++ Act.drop :: mid)).1.signalled post ≤
        3 * (run S (pre ++ Act.drop :: mid)).1.active + 16 ∧
      (∃ more, dues S (run S (pre ++ Act.drop :: mid)).1.signalled (post ++ more) =
          dues S (run S (pre ++ Act.drop :: mid)).1.signalled post + more.length ∧ .destroy ∉ more ∧
        (run S (pre ++ Act.drop :: (mid ++ Act.signal :: (post ++ more)))).1.Idle) ∧
      ((run S (pre ++ Act.drop :: (mid ++ Act.signal :: post))).1.Idle →
        (run S (pre ++ Act.drop :: (mid ++ Act.signal :: post))).1.active = 0 ∧
        Ceased S (run S (pre ++ Act.drop :: mid)).1
          (run S (pre ++ Act.drop :: (mid ++ Act.signal :: post))).1
          (run S (pre ++ Act.drop :: (mid ++ Act.signal :: post))).2)) := by
  rw [List.mem_append, not_or] at hdestroy
  obtain ⟨hmid, hpost⟩ := hdestroy
  have hdues := dues_add_owed S (t := (run S (pre ++ Act.destroy :: mid)).1.signalled) rfl hpost
  have hdropped := dues_add_owed S (t := (run S (pre ++ Act.drop :: mid)).1.signalled) rfl hpost
  have hcall : (run S (pre ++ Act.destroy :: mid)).1.signalled.owed ≤
    3 * (run S (pre ++ Act.destroy :: mid)).1.active + 16 := (Single.destroy S hsingle hmid).owed_le
  have hgo : (run S (pre ++ Act.drop :: mid)).1.signalled.owed ≤
    3 * (run S (pre ++ Act.drop :: mid)).1.active + 16 := (Single.drop S hsingle hmid).owed_le
  refine ⟨⟨by omega, ?_, fun hidle => ⟨hidle.active, returned_of_idle S pre mid post hidle⟩, ?_⟩,
    by omega, exists_idle_run S pre mid post rfl, fun hidle => ⟨hidle.active, ?_⟩⟩
  · have hbegins : (Act.destroy : Act ι).begins = true := rfl
    obtain ⟨more, hall, hmore, hidle⟩ := exists_idle_run S pre mid post hbegins
    exact ⟨more, hall, hmore, returned_of_idle S pre mid (post ++ more) hidle⟩
  · intro result hc
    have hacts : .destroy ∉ mid ++ Act.signal :: post := by
      simp only [List.mem_append, List.mem_cons, not_or]
      exact ⟨hmid, nofun, hpost⟩
    have hstaged := staged_run S (pre ++ Act.destroy :: (mid ++ Act.signal :: post))
    obtain ⟨hdead, hstatus⟩ := (Single.destroy S hsingle hacts).dead hstaged hc
    exact ⟨hstatus, ceased_of_dead S pre mid post rfl
      (drained_run S hdrop hsingle hsignal hc) hdead⟩
  · refine ceased_of_dead S pre mid post rfl (fun id hid => ?_) hidle.dead
    have hlength := length_runFrom S (run S (pre ++ Act.drop :: mid)).1.signalled post
    have hlt : id < (run S (pre ++ Act.drop :: (mid ++ Act.signal :: post))).1.effects.length := by
      rw [run_signalled S pre mid post rfl]
      exact Nat.lt_of_lt_of_le hid (hlength ▸ Nat.le_add_right _ _)
    obtain ⟨how, hhow⟩ := hidle.ended (List.getElem?_eq_getElem hlt)
    exact ⟨how, (List.getElem?_eq_getElem hlt).trans (congrArg some hhow)⟩

end Teardowns

/-- One effect waits for something that never comes, another one is being polled, and the worker has taken
an intent. -/
def engaged : List (Act Nat) :=
  Act.submit 1 :: List.replicate 10 Act.work ++ (Act.submit 2 :: List.replicate 10 Act.work) ++
    [Act.look 1, .submit 3, .work, .work]

/-- Everyone goes on until the call of `destroy` returns. -/
def unwinding : List (Act Nat) :=
  [Act.resume 0, .leave 1 .completes, .look 0, .send 0 5, .leave 0 .waits, .resume 0, .resume 0] ++
    List.replicate 12 Act.work ++ [Act.resume 0]

/-- The call of `destroy` returns; the effect that waited is cancelled, and at most the effect that comes of
the intent in hand is left. -/
theorem engaged_comes_to_end :
    (run ringing (engaged ++ Act.destroy :: ([Act.submit 4] ++ Act.signal :: unwinding))).1.status = .destroyed ∧
    endingsIn 0 (run ringing (engaged ++ Act.destroy :: ([Act.submit 4] ++ Act.signal :: unwinding))).2 =
      [.cancelled] ∧
    (run ringing (engaged ++ Act.destroy :: ([Act.submit 4] ++ Act.signal :: unwinding))).1.active ≤ 1 := by
  have hnone : (run ringing engaged).1.teardowns = [] := by decide +kernel
  obtain ⟨⟨-, -, -, hdone⟩, -⟩ := teardown_comes_to_end ringing engaged [.submit 4] unwinding
    (by decide) (hnone ▸ nofun) (by decide) (by decide)
  obtain ⟨hstatus, hceased⟩ := hdone (.ok ()) (by decide +kernel)
  obtain ⟨how, -, hendings, hcancelled, -⟩ := hceased.effects 0 (by decide +kernel)
  obtain rfl : how = .cancelled := hcancelled (by decide +kernel)
  exact ⟨hstatus, hendings, hceased.active⟩

/-- The handler has returned an effect when a call of `destroy` begins, and no effect is there yet. The call
finds none and takes the worker; the worker launches the effect, goes through with its intent and ends; and
the call returns. -/
def overlooked : List (Act Nat) :=
  Act.submit 1 :: List.replicate 5 Act.work ++ [Act.destroy, .signal, .resume 0, .resume 0] ++
    List.replicate 6 Act.work ++ [Act.resume 0]

/-- Then one effect has not ended. -/
theorem launched_after_wait :
    (run ringing overlooked).1.teardowns = [.returned (.ok ())] ∧
    (run ringing overlooked).1.status = .destroyed ∧ (run ringing overlooked).1.active = 1 := by
  decide +kernel

end Threads

end IntentLoop.Engine
