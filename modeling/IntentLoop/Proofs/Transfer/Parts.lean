import IntentLoop.Transfer.Transfer
import IntentLoop.Proofs.Poll.Tally
import IntentLoop.Proofs.Auth.Sources
import IntentLoop.Proofs.Engine.Calls
/-!
# The parts of a transfer

A step of a transfer is a chain of acts of its parts, beside which effects change their stages
(`Chain`, `step_chain`). So what every act of one part keeps is kept by every step (`Chain.access_kept`,
`Chain.poller_kept`), whatever the other parts do, and holds after every run: tokens have come out of
fetches, and the sessions and their checks are those that were told of (`accounted_run`).

A session, a check, the fetch of a token or a request begins only with a move of an effect
(`step_begins`), in a poll that found no signal when it began (`polled_since`). So when the signal is there
and no effect is being polled, nothing begins any more (`Still.ebbing_after`).
-/

namespace IntentLoop.Transfer

open IntentLoop.Auth (RequestError Access)
open IntentLoop.Poll (Poller)

/-! ### What is told of each part -/

namespace Event

def engine? : Event → Option (Engine.Event State Intent Effect)
  | .engine event => some event
  | _ => none

def poller? : Event → Option (Poll.Event RequestError String)
  | .poller event => some event
  | _ => none

def access? : Event → Option (Access.Event String RequestError String)
  | .access event => some event
  | _ => none

end Event

def engineIn (past : List Event) : List (Engine.Event State Intent Effect) :=
  past.filterMap Event.engine?

def pollerIn (past : List Event) : List (Poll.Event RequestError String) :=
  past.filterMap Event.poller?

def accessIn (past : List Event) : List (Access.Event String RequestError String) :=
  past.filterMap Event.access?

section Told

variable (past later : List Event) (engine : List (Engine.Event State Intent Effect))
  (poller : List (Poll.Event RequestError String))
  (access : List (Access.Event String RequestError String))
  (rates : List (Cache.TimedCache.Event String String))

@[simp] theorem engineIn_append : engineIn (past ++ later) = engineIn past ++ engineIn later :=
  List.filterMap_append

@[simp] theorem pollerIn_append : pollerIn (past ++ later) = pollerIn past ++ pollerIn later :=
  List.filterMap_append

@[simp] theorem accessIn_append : accessIn (past ++ later) = accessIn past ++ accessIn later :=
  List.filterMap_append

@[simp] theorem engineIn_engine : engineIn (engine.map .engine) = engine := by
  simp [engineIn, Event.engine?, Function.comp_def]

@[simp] theorem engineIn_poller : engineIn (poller.map .poller) = [] := by
  simp [engineIn, Event.engine?]

@[simp] theorem engineIn_access : engineIn (access.map .access) = [] := by
  simp [engineIn, Event.engine?]

@[simp] theorem engineIn_rates : engineIn (rates.map .rates) = [] := by
  simp [engineIn, Event.engine?]

@[simp] theorem pollerIn_engine : pollerIn (engine.map .engine) = [] := by
  simp [pollerIn, Event.poller?]

@[simp] theorem pollerIn_poller : pollerIn (poller.map .poller) = poller := by
  simp [pollerIn, Event.poller?, Function.comp_def]

@[simp] theorem pollerIn_access : pollerIn (access.map .access) = [] := by
  simp [pollerIn, Event.poller?]

@[simp] theorem pollerIn_rates : pollerIn (rates.map .rates) = [] := by
  simp [pollerIn, Event.poller?]

@[simp] theorem accessIn_engine : accessIn (engine.map .engine) = [] := by
  simp [accessIn, Event.access?]

@[simp] theorem accessIn_poller : accessIn (poller.map .poller) = [] := by
  simp [accessIn, Event.access?]

@[simp] theorem accessIn_access : accessIn (access.map .access) = access := by
  simp [accessIn, Event.access?, Function.comp_def]

@[simp] theorem accessIn_rates : accessIn (rates.map .rates) = [] := by
  simp [accessIn, Event.access?]

theorem map_accessIn_sublist : ((accessIn past).map .access).Sublist past := by
  induction past with
  | nil => exact List.Sublist.refl _
  | cons event rest ih =>
    cases event with
    | access event => exact ih.cons_cons (.access event)
    | engine event => exact ih.cons _
    | poller event => exact ih.cons _
    | rates event => exact ih.cons _

end Told

/-! ### Chains of acts of the parts -/

/-- Acts of the parts, one after the other, beside which effects change their stages. -/
inductive Chain (plan : Plan) (t : Transfer) : Transfer × List Event → Prop
  | refl : Chain plan t (t, [])
  | engine {after : Transfer × List Event} (h : Chain plan t after) (act : Engine.Threads.Act Intent) :
      Chain plan t ((after.1.onEngine act).1, after.2 ++ (after.1.onEngine act).2)
  | poller {after : Transfer × List Event} (h : Chain plan t after)
      (act : Poll.Act RequestError String) :
      Chain plan t ((after.1.onPoller plan act).1, after.2 ++ (after.1.onPoller plan act).2)
  | access {after : Transfer × List Event} (h : Chain plan t after)
      (act : Access.Act String RequestError String) :
      Chain plan t ((after.1.onAccess plan act).1, after.2 ++ (after.1.onAccess plan act).2)
  | rates {after : Transfer × List Event} (h : Chain plan t after)
      (act : Cache.TimedCache.Act String String) :
      Chain plan t ((after.1.onRates act).1, after.2 ++ (after.1.onRates act).2)
  | stage {after : Transfer × List Event} (h : Chain plan t after) (id : Nat) (stage : Stage) :
      Chain plan t (after.1.setStage id stage, after.2)

namespace Chain

variable {plan : Plan} {t : Transfer} {after : Transfer × List Event}

section Single

variable (plan) (t)

theorem onEngine (act : Engine.Threads.Act Intent) : Chain plan t (t.onEngine act) := .engine .refl act

theorem onPoller (act : Poll.Act RequestError String) : Chain plan t (t.onPoller plan act) :=
  .poller .refl act

theorem onAccess (act : Access.Act String RequestError String) :
    Chain plan t (t.onAccess plan act) := .access .refl act

theorem onRates (act : Cache.TimedCache.Act String String) : Chain plan t (t.onRates act) :=
  .rates .refl act

theorem setStage (id : Nat) (stage : Stage) : Chain plan t (t.setStage id stage, []) :=
  .stage .refl id stage

end Single

/-! ### Checks -/

theorem request (id session caller : Nat) (rate : Option String)
    (act : Access.Act String RequestError String) :
    Chain plan t (t.request plan id session caller rate act) := by
  unfold Transfer.request
  dsimp only
  split <;> exact (onAccess plan t act).stage id _

theorem lookUp (id session caller : Nat) (act : Cache.TimedCache.Act String String) :
    Chain plan t (t.lookUp id session caller act) := by
  unfold Transfer.lookUp
  dsimp only
  split <;> exact (onRates plan t act).stage id _

theorem check (id session : Nat) : Chain plan t (t.check plan id session) := by
  unfold Transfer.check
  split
  · exact lookUp id session _ .get
  · exact request id session _ none _

/-! ### Effects -/

theorem start (id : Nat) : Chain plan t (t.start plan id) :=
  (onPoller plan t (.start plan.interval plan.retries)).stage id _

theorem conclude (id : Nat) (result : Except RequestError (Poll.Outcome String)) :
    Chain plan t (t.conclude plan id result) := by
  unfold Transfer.conclude
  split
  · exact (setStage plan t id .ended).engine (.send id _)
  · exact setStage plan t id .ended

theorem proceed (id session : Nat) : Chain plan t (t.proceed plan id session) := by
  unfold Transfer.proceed
  split
  · exact onPoller plan t _
  · exact onPoller plan t _
  · exact check id session
  · exact onPoller plan t _
  · exact onPoller plan t _
  · exact conclude id _
  · exact .refl
  · exact .refl

theorem deliver (id session : Nat) (result : Except RequestError String) :
    Chain plan t (t.deliver plan id session result) :=
  (onPoller plan t (.fetched session result)).stage id _

theorem move (id : Nat) (stage : Stage) (m : Move) : Chain plan t (t.move plan id stage m) := by
  unfold Transfer.move
  split
  · exact start id
  · exact proceed id _
  · split
    · exact lookUp id _ _ _
    · exact .refl
  · split
    · exact lookUp id _ _ _
    · exact .refl
  · exact lookUp id _ _ _
  · exact request id _ _ _ _
  · exact request id _ _ _ _
  · exact request id _ _ _ _
  · exact request id _ _ _ _
  · exact deliver id _ _
  · exact .refl

theorem moveEffect (id : Nat) (m : Move) : Chain plan t (t.moveEffect plan id m) := by
  unfold Transfer.moveEffect
  split
  · exact move id _ m
  · exact .refl

theorem abandon (id : Nat) (stage : Stage) : Chain plan t (t.abandon plan id stage) := by
  cases stage with
  | rating session caller => exact (setStage plan t id (.polling session)).rates (.drop caller)
  | checking session caller rate => exact (setStage plan t id (.polling session)).access (.drop caller)
  | polling session => exact (setStage plan t id .ended).poller (.drop session)
  | rated session rate => exact (setStage plan t id .ended).poller (.drop session)
  | checked session result => exact (setStage plan t id .ended).poller (.drop session)
  | launched | ended => exact setStage plan t id .ended

theorem leave (id : Nat) : Chain plan t (t.leave plan id) := by
  unfold Transfer.leave
  split
  · exact onEngine plan t _
  · split
    · exact onEngine plan t _
    · exact abandon id _
  · exact .refl

end Chain

/-- The act of the engine that an act is, if it is one in any case. -/
def Act.engine? : Act → Option (Engine.Threads.Act Intent)
  | .submit => some (.submit .submit)
  | .reset => some (.submit .reset)
  | .work => some .work
  | .look id => some (.look id)
  | .destroy => some .destroy
  | .silence id => some (.silence id)
  | .signal => some .signal
  | .resume id => some (.resume id)
  | _ => none

theorem step_engine (plan : Plan) (t : Transfer) {act : Act} {e : Engine.Threads.Act Intent}
    (h : act.engine? = some e) : t.step plan act = t.onEngine e := by
  cases act <;> cases h <;> rfl

/-- **A step is a chain of acts of the parts.** -/
theorem step_chain (plan : Plan) (t : Transfer) (act : Act) : Chain plan t (t.step plan act) := by
  cases he : act.engine? with
  | some e =>
    rw [step_engine plan t he]
    exact Chain.onEngine plan t e
  | none =>
  cases act with
  | submit | reset | work | look | destroy | silence | signal | resume => cases he
  | move id m => exact Chain.moveEffect id m
  | leave id => exact Chain.leave id
  | cancel => exact Chain.onPoller plan t .cancel
  | invalidateToken => exact Chain.onAccess plan t .invalidate
  | invalidateRates => exact Chain.onRates plan t .invalidate
  | pass time => exact ((Chain.onPoller plan t (.pass time)).access (.pass time)).rates (.pass time)

/-! ### What the parts keep -/

namespace Chain

variable {plan : Plan} {t : Transfer} {after : Transfer × List Event} {past : List Event}

/-- What every act of the executors keeps is kept. -/
theorem access_kept
    {P : Access String RequestError String → List (Access.Event String RequestError String) → Prop}
    (keep : ∀ {a past} act, P a past →
      P (a.step plan.family act).1 (past ++ (a.step plan.family act).2))
    (hc : Chain plan t after) (h : P t.access (accessIn past)) :
    P after.1.access (accessIn (past ++ after.2)) := by
  induction hc with
  | refl =>
    rw [List.append_nil]
    exact h
  | engine _ act ih => simpa [Transfer.onEngine] using ih
  | poller _ act ih => simpa [Transfer.onPoller] using ih
  | access _ act ih =>
    rw [← List.append_assoc, accessIn_append, Transfer.onAccess, accessIn_access]
    exact keep act ih
  | rates _ act ih => simpa [Transfer.onRates] using ih
  | stage _ id stage ih => exact ih

/-- What every act of the poller keeps is kept. -/
theorem poller_kept
    {P : Poller RequestError String → List (Poll.Event RequestError String) → Prop}
    (keep : ∀ {p past} act, P p past →
      P (p.step plan.terms act).1 (past ++ (p.step plan.terms act).2))
    (hc : Chain plan t after) (h : P t.poller (pollerIn past)) :
    P after.1.poller (pollerIn (past ++ after.2)) := by
  induction hc with
  | refl =>
    rw [List.append_nil]
    exact h
  | engine _ act ih => simpa [Transfer.onEngine] using ih
  | poller _ act ih =>
    rw [← List.append_assoc, pollerIn_append, Transfer.onPoller, pollerIn_poller]
    exact keep act ih
  | access _ act ih => simpa [Transfer.onAccess] using ih
  | rates _ act ih => simpa [Transfer.onRates] using ih
  | stage _ id stage ih => exact ih

end Chain

namespace Chain

variable {plan : Plan} {t : Transfer} {after : Transfer × List Event}

theorem engine_kept {P : Engine.Threads State Intent Effect → Prop}
    (keep : ∀ {e} act, P e → P (e.step setup act).1) (hc : Chain plan t after) (h : P t.engine) :
    P after.1.engine := by
  induction hc with
  | refl => exact h
  | engine _ act ih => exact keep act ih
  | poller _ act ih | access _ act ih | rates _ act ih | stage _ id stage ih => exact ih

theorem shutdown (hc : Chain plan t after) (h : t.engine.shutdown = true) :
    after.1.engine.shutdown = true :=
  hc.engine_kept (P := (·.shutdown = true)) (fun act h => Engine.Threads.step_shutdown setup h act) h

theorem cleared (hc : Chain plan t after) (h : t.engine.Cleared) : after.1.engine.Cleared :=
  hc.engine_kept (fun act h => h.step setup act) h

end Chain

/-- The tokens of the executors came out of fetches, and the sessions and checks were told of. -/
structure Accounted (t : Transfer) (past : List Event) : Prop where
  sourced : t.access.Sourced (accessIn past)
  tally : t.poller.Tally (pollerIn past)

theorem Accounted.new (plan : Plan) (wallClock : Timestamp) : Accounted (new plan wallClock) [] where
  sourced := .new wallClock
  tally := .new

theorem Accounted.chain {plan : Plan} {t : Transfer} {past : List Event}
    {after : Transfer × List Event} (h : Accounted t past) (hc : Chain plan t after) :
    Accounted after.1 (past ++ after.2) where
  sourced := hc.access_kept (fun act h => h.step plan.family act) h.sourced
  tally := hc.poller_kept (fun act h => h.step plan.terms act) h.tally

/-- **After every run.** -/
theorem accounted_run (plan : Plan) (wallClock : Timestamp) (acts : List Act) :
    Accounted (run plan wallClock acts).1 (run plan wallClock acts).2 :=
  History.after_induct (step plan) (.new plan wallClock)
    fun act _ {t _} h => h.chain (step_chain plan t act)

/-! ### What begins -/

/-- Does a session, a check, the fetch of a token or a request begin with the event? -/
def Event.begins : Event → Bool
  | .poller (.started _) | .poller (.fetch _) => true
  | .access (.fetch _) | .access (.requested _ _) => true
  | _ => false

/-- Nothing begins. -/
def Ebbing (events : List Event) : Prop := ∀ event ∈ events, event.begins = false

section Ebbing

variable (plan : Plan) (t : Transfer)

theorem Ebbing.append {events more : List Event} (h : Ebbing events) (g : Ebbing more) :
    Ebbing (events ++ more) := by
  intro event hmem
  rcases List.mem_append.mp hmem with hmem | hmem
  · exact h event hmem
  · exact g event hmem

theorem onEngine_ebbing (act : Engine.Threads.Act Intent) : Ebbing (t.onEngine act).2 := by
  intro event hmem
  obtain ⟨_, -, rfl⟩ := List.mem_map.mp hmem
  rfl

theorem onRates_ebbing (act : Cache.TimedCache.Act String String) : Ebbing (t.onRates act).2 := by
  intro event hmem
  obtain ⟨_, -, rfl⟩ := List.mem_map.mp hmem
  rfl

theorem onPoller_ebbing {act : Poll.Act RequestError String}
    (h : act = .cancel ∨ (∃ i, act = .drop i) ∨ ∃ d, act = .pass d) :
    Ebbing (t.onPoller plan act).2 := by
  intro event hmem
  obtain ⟨told, htold, rfl⟩ := List.mem_map.mp hmem
  rcases h with rfl | ⟨i, rfl⟩ | ⟨d, rfl⟩
  · rw [List.mem_singleton.mp htold]
    rfl
  · obtain rfl := Poller.eq_dropped htold
    rfl
  · cases htold

theorem onAccess_ebbing {act : Access.Act String RequestError String}
    (h : act = .invalidate ∨ (∃ k, act = .drop k) ∨ ∃ d, act = .pass d) :
    Ebbing (t.onAccess plan act).2 := by
  intro event hmem
  obtain ⟨told, htold, rfl⟩ := List.mem_map.mp hmem
  rcases h with rfl | ⟨k, rfl⟩ | ⟨d, rfl⟩
  · rw [List.mem_singleton.mp htold]
    rfl
  · obtain rfl := Access.eq_dropped htold
    rfl
  · cases htold

theorem leave_ebbing (id : Nat) : Ebbing (t.leave plan id).2 := by
  unfold Transfer.leave
  split
  · exact onEngine_ebbing t _
  · split
    · exact onEngine_ebbing t _
    · unfold Transfer.abandon
      split
      · exact onRates_ebbing _ _
      · exact onAccess_ebbing plan _ (Or.inr (Or.inl ⟨_, rfl⟩))
      · exact onPoller_ebbing plan _ (Or.inr (Or.inl ⟨_, rfl⟩))
      · exact onPoller_ebbing plan _ (Or.inr (Or.inl ⟨_, rfl⟩))
      · exact onPoller_ebbing plan _ (Or.inr (Or.inl ⟨_, rfl⟩))
      · exact fun _ hmem => nomatch hmem
      · exact fun _ hmem => nomatch hmem
  · exact fun _ hmem => nomatch hmem

/-- **Only the move of an effect that is being polled begins anything.** -/
theorem step_begins {act : Act} {event : Event} (hmem : event ∈ (t.step plan act).2)
    (h : event.begins = true) :
    ∃ id m, act = .move id m ∧ t.engine.effects[id]? = some .polled := by
  have ebbs : Ebbing (t.step plan act).2 → False := fun hebbing => by
    rw [hebbing event hmem] at h
    cases h
  cases he : act.engine? with
  | some e =>
    rw [step_engine plan t he] at ebbs
    exact (ebbs (onEngine_ebbing t e)).elim
  | none =>
  cases act with
  | submit | reset | work | look | destroy | silence | signal | resume => cases he
  | move id m =>
    refine ⟨id, m, rfl, ?_⟩
    change event ∈ (t.moveEffect plan id m).2 at hmem
    unfold moveEffect at hmem
    split at hmem
    · assumption
    · cases hmem
  | leave id => exact (ebbs (leave_ebbing plan t id)).elim
  | cancel => exact (ebbs (onPoller_ebbing plan t (Or.inl rfl))).elim
  | invalidateToken => exact (ebbs (onAccess_ebbing plan t (Or.inl rfl))).elim
  | invalidateRates => exact (ebbs (onRates_ebbing t .invalidate)).elim
  | pass time =>
    have hpassed := (onPoller_ebbing plan t (Or.inr (Or.inr ⟨time, rfl⟩))).append
      (onAccess_ebbing plan (t.onPoller plan (.pass time)).1 (Or.inr (Or.inr ⟨time, rfl⟩)))
    refine (ebbs (hpassed.append ?_)).elim
    exact onRates_ebbing ((t.onPoller plan (.pass time)).1.onAccess plan (.pass time)).1 (.pass time)

end Ebbing

/-! ### Polls -/

section Polls

variable (plan : Plan) (t : Transfer)

theorem request_engine (id session caller : Nat) (rate : Option String)
    (act : Access.Act String RequestError String) :
    (t.request plan id session caller rate act).1.engine = t.engine := by
  unfold request
  dsimp only
  split <;> rfl

theorem lookUp_engine (id session caller : Nat) (act : Cache.TimedCache.Act String String) :
    (t.lookUp id session caller act).1.engine = t.engine := by
  unfold lookUp
  dsimp only
  split <;> rfl

theorem check_engine (id session : Nat) : (t.check plan id session).1.engine = t.engine := by
  unfold check
  split
  · exact lookUp_engine t id session _ .get
  · exact request_engine plan t id session _ none _

theorem move_effects (id : Nat) (stage : Stage) (m : Move) :
    (t.move plan id stage m).1.engine.effects = t.engine.effects := by
  have told : ∀ result, (t.conclude plan id result).1.engine.effects = t.engine.effects := by
    intro result
    unfold conclude
    split
    · exact Engine.Threads.send_effects id _ _
    · rfl
  have goes : ∀ session, (t.proceed plan id session).1.engine.effects = t.engine.effects := by
    intro session
    unfold proceed
    split
    · rfl
    · rfl
    · exact congrArg _ (check_engine plan t id session)
    · rfl
    · rfl
    · exact told _
    · rfl
    · rfl
  unfold move
  split
  · rfl
  · exact goes _
  · split
    · exact congrArg _ (lookUp_engine t id _ _ _)
    · rfl
  · split
    · exact congrArg _ (lookUp_engine t id _ _ _)
    · rfl
  · exact congrArg _ (lookUp_engine t id _ _ _)
  · exact congrArg _ (request_engine plan t id _ _ _ _)
  · exact congrArg _ (request_engine plan t id _ _ _ _)
  · exact congrArg _ (request_engine plan t id _ _ _ _)
  · exact congrArg _ (request_engine plan t id _ _ _ _)
  · rfl
  · rfl

theorem moveEffect_effects (id : Nat) (m : Move) :
    (t.moveEffect plan id m).1.engine.effects = t.engine.effects := by
  unfold moveEffect
  split
  · exact move_effects plan t id _ m
  · rfl

theorem abandon_engine (id : Nat) (stage : Stage) : (t.abandon plan id stage).1.engine = t.engine := by
  cases stage <;> rfl

/-- An effect comes into a poll by a look at a signal that is not there, and goes out of it by leaving the
thread. -/
theorem polled_of_step {act : Act} {id : Nat}
    (h : (t.step plan act).1.engine.effects[id]? = some .polled) :
    (t.engine.effects[id]? = some .polled ∧ act ≠ .leave id) ∨
      (act = .look id ∧ t.engine.isSignalled id = false) := by
  cases he : act.engine? with
  | some e =>
    rw [step_engine plan t he] at h
    rcases Engine.Threads.polled_step setup h with ⟨hold, -⟩ | ⟨rfl, hs⟩
    · exact Or.inl ⟨hold, by rintro rfl; cases he⟩
    · refine Or.inr ⟨?_, hs⟩
      cases act <;> cases he
      rfl
  | none =>
  cases act with
  | submit | reset | work | look | destroy | silence | signal | resume => cases he
  | cancel | invalidateToken | invalidateRates | pass => exact Or.inl ⟨h, nofun⟩
  | move k m => exact Or.inl ⟨moveEffect_effects plan t k m ▸ h, nofun⟩
  | leave k =>
    have leaves : ∀ exit, (t.engine.step setup (.leave k exit)).1.effects[id]? = some .polled →
        t.engine.effects[id]? = some .polled ∧ Act.leave k ≠ .leave id := by
      intro exit hpolled
      rcases Engine.Threads.polled_step setup hpolled with ⟨hold, hleave⟩ | ⟨hlook, -⟩
      · exact ⟨hold, fun heq => hleave exit (by cases heq; rfl)⟩
      · cases hlook
    change (t.leave plan k).1.engine.effects[id]? = some .polled at h
    unfold leave at h
    split at h
    · exact Or.inl (leaves _ h)
    · rename_i hdropping
      split at h
      · exact Or.inl (leaves _ h)
      · rw [abandon_engine] at h
        refine Or.inl ⟨h, fun heq => ?_⟩
        cases heq
        rw [hdropping] at h
        cases h
    · rename_i hne _
      refine Or.inl ⟨h, fun heq => ?_⟩
      cases heq
      exact hne h

theorem run_concat (wallClock : Timestamp) (acts : List Act) (act : Act) :
    run plan wallClock (acts ++ [act]) =
      (((run plan wallClock acts).1.step plan act).1,
        (run plan wallClock acts).2 ++ ((run plan wallClock acts).1.step plan act).2) :=
  List.foldl_append

/-- **A poll goes back to a look at a signal that was not there.** -/
theorem polled_since (wallClock : Timestamp) {acts : List Act} {id : Nat}
    (h : (run plan wallClock acts).1.engine.effects[id]? = some .polled) :
    ∃ before after, acts = before ++ Act.look id :: after ∧ .leave id ∉ after ∧
      (run plan wallClock before).1.engine.isSignalled id = false := by
  induction acts using List.reverseRecOn with
  | nil => cases h
  | append_singleton acts act ih =>
    rw [run_concat] at h
    rcases polled_of_step plan _ h with ⟨hold, hact⟩ | ⟨rfl, hs⟩
    · obtain ⟨before, after, rfl, hstays, hs⟩ := ih hold
      refine ⟨before, after ++ [act], by simp, ?_, hs⟩
      rw [List.mem_append, List.mem_singleton, not_or]
      exact ⟨hstays, Ne.symm hact⟩
    · exact ⟨acts, [], rfl, List.not_mem_nil, hs⟩

/-- No effect is being polled, and none will be. -/
structure Still (t : Transfer) : Prop where
  shutdown : t.engine.shutdown = true
  unpolled : ∀ id : Nat, t.engine.effects[id]? ≠ some .polled

variable {plan t}

theorem Still.step (h : Still t) (act : Act) : Still (t.step plan act).1 where
  shutdown := (step_chain plan t act).shutdown h.shutdown
  unpolled id hpolled := by
    rcases polled_of_step plan t hpolled with ⟨hold, -⟩ | ⟨-, hno⟩
    · exact h.unpolled id hold
    · rw [Engine.Threads.isSignalled, h.shutdown] at hno
      cases hno

theorem Still.ebbing (h : Still t) (act : Act) : Ebbing (t.step plan act).2 := by
  intro event hmem
  cases hbegins : event.begins with
  | false => rfl
  | true =>
    obtain ⟨id, -, -, hpolled⟩ := step_begins plan t hmem hbegins
    exact absurd hpolled (h.unpolled id)

/-- **When the signal is there and no effect is being polled, nothing begins any more.** -/
theorem Still.ebbing_after (h : Still t) (acts : List Act) :
    Ebbing (History.after (Transfer.step plan) t acts).2 := by
  have hkept : Still (History.after (Transfer.step plan) t acts).1 ∧
      Ebbing (History.after (Transfer.step plan) t acts).2 :=
    History.after_induct (Transfer.step plan) (P := fun t past => Still t ∧ Ebbing past) ⟨h, nofun⟩
      fun act _ t past ih => ⟨ih.1.step act, ih.2.append (ih.1.ebbing act)⟩
  exact hkept.2

/-- A call of `destroy` has found no effect left. -/
theorem still_of_call (plan : Plan) (wallClock : Timestamp) (acts : List Act) {id : Nat}
    {call : Engine.Call} (hc : (run plan wallClock acts).1.engine.teardowns[id]? = some call)
    (hcall : call ≠ .awaitingEffects) : Still (run plan wallClock acts).1 := by
  have hcleared : (run plan wallClock acts).1.engine.Cleared := by
    refine History.after_induct (step plan) (P := fun t _ => t.engine.Cleared) nofun ?_
    exact fun act _ t _ h => (step_chain plan t act).cleared h
  obtain ⟨hs, hnone⟩ := hcleared id call hc hcall
  exact ⟨hs, hnone⟩

end Polls

end IntentLoop.Transfer
