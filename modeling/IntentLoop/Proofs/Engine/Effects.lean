import IntentLoop.Proofs.Engine.Rest
/-!
# What becomes of effects

Effects go their way beside the worker, and do not need it. An effect that was launched is tracked
until it ends, and it ends once: by a move of its own or, once a teardown has begun, as a cancelled one
when it moves next (`tracked_runFrom`); over a whole run it ends just once (`endings_run`). `Fares` is
what one act can do to one effect.
-/

namespace IntentLoop.Engine

variable {σ ι ε : Type} {S : Setup σ ι ε} {e : Engine σ ι}

/-! ### The worker -/

theorem track_effects (effect : Option ε) (e : Engine σ ι) :
    (e.track effect).effects = e.effects ++ (effect.map fun _ => .running).toList := by
  cases effect with
  | none => exact (List.append_nil _).symm
  | some _ => rfl

theorem Receipt.working {state : σ} {previous : Option ι} {i : ι}
    {after : Engine σ ι × List (Event σ ι ε)} (h : Receipt S state previous i e after) :
    Working after.2 ∧ ∃ more, after.1.effects = e.effects ++ more := by
  cases h with
  | crashed p called hd =>
    exact ⟨(Working.cons rfl hd.deciding.working).append (.cons rfl .nil), [], (List.append_nil _).symm⟩
  | skipped f called hd _ => exact ⟨.cons rfl hd.deciding.working, [], (List.append_nil _).symm⟩
  | failed p effect called hd =>
    exact ⟨(Working.cons rfl hd.deciding.working).append (.cons rfl (.cons rfl .nil)), _,
      track_effects effect e⟩
  | kept next effect called hd _ =>
    exact ⟨(Working.cons rfl hd.deciding.working).append (.cons rfl .nil), _, track_effects effect e⟩
  | published next effect called hd _ _ _ =>
    exact ⟨((Working.cons rfl hd.deciding.working).append (news_working S next)).append (.cons rfl .nil), _,
      track_effects effect e⟩
  | unnoticed next effect called p hd _ _ _ =>
    exact ⟨((Working.cons rfl hd.deciding.working).append (news_working S next)).append (.cons rfl .nil), _,
      track_effects effect e⟩

theorem Worked.working {after : Engine σ ι × List (Event σ ι ε)} (h : Worked S e after) :
    Working after.2 ∧ ∃ more, after.1.effects = e.effects ++ more := by
  cases h with
  | ended | stopped | idle => exact ⟨.nil, [], (List.append_nil _).symm⟩
  | received state previous _ _ i rest _ hr => exact hr.working

/-! ### One act -/

def Event.ended? (id : Nat) : Event σ ι ε → Option Ending
  | .effectEnded k how => if k = id then some how else none
  | _ => none

/-- The endings of an effect. -/
def endingsIn (id : Nat) (past : List (Event σ ι ε)) : List Ending := past.filterMap (Event.ended? id)

@[simp] theorem endingsIn_append (id : Nat) (past later : List (Event σ ι ε)) :
    endingsIn id (past ++ later) = endingsIn id past ++ endingsIn id later := List.filterMap_append

theorem Working.endings {events : List (Event σ ι ε)} (h : Working events) (id : Nat) :
    endingsIn id events = [] := by
  refine List.filterMap_eq_nil_iff.mpr fun event hmem => ?_
  have hevent := h event hmem
  cases event <;> first | rfl | cases hevent

/-- What can become of an effect in one act: nothing, or it ends. -/
inductive Fares (e : Engine σ ι) (id : Nat) (stage : EffectStage)
    (after : Engine σ ι × List (Event σ ι ε)) : Prop
  | same (hs : after.1.effects[id]? = some stage) (hn : endingsIn id after.2 = [])
  | ended (how : Ending) (hr : stage = .running) (hs : after.1.effects[id]? = some (.ended how))
      (hn : endingsIn id after.2 = [how]) (hhow : how = .cancelled ↔ e.shutdown = true)

/-- The ending of one effect is the ending of that effect. -/
theorem Fares.of_set {k id : Nat} {stage : EffectStage} {how : Ending}
    {after : Engine σ ι × List (Event σ ι ε)} (h : e.effects[id]? = some stage)
    (hr : e.effects[k]? = some .running) (hset : after.1.effects = e.effects.set k (.ended how))
    (hn : endingsIn id after.2 = if k = id then [how] else [])
    (hhow : how = .cancelled ↔ e.shutdown = true) : Fares e id stage after := by
  by_cases hk : k = id
  · subst hk
    rw [if_pos rfl] at hn
    rw [h] at hr
    refine .ended how (Option.some.inj hr) ?_ hn hhow
    rw [hset, List.getElem?_set_self (List.getElem?_eq_some_iff.mp h).1]
  · rw [if_neg hk] at hn
    refine .same ?_ hn
    rw [hset, List.getElem?_set_ne hk, h]

theorem endingsIn_effectEnded (id k : Nat) (how : Ending) :
    endingsIn id [(.effectEnded k how : Event σ ι ε)] = if k = id then [how] else [] := by
  unfold endingsIn Event.ended?
  split <;> simp [*]

theorem Moved.fares {k : Nat} {intents : List ι} {after : Engine σ ι × List (Event σ ι ε)}
    (h : Moved k intents e after) {id : Nat} {stage : EffectStage}
    (hs : e.effects[id]? = some stage) : Fares e id stage after := by
  have hsent : (e.submitAll intents : Engine σ ι × List (Event σ ι ε)).1.effects = e.effects ∧
      endingsIn id (e.submitAll intents : Engine σ ι × List (Event σ ι ε)).2 = [] := by
    unfold submitAll
    split <;> simp [endingsIn, Event.ended?]
  cases h with
  | still => exact .same hs rfl
  | cancelled hr hstop =>
    exact .of_set hs hr rfl (endingsIn_effectEnded id k .cancelled) ⟨fun _ => hstop, fun _ => rfl⟩
  | waits => exact .same (hsent.1 ▸ hs) hsent.2
  | ends how hr hrun hhow =>
    refine .of_set hs hr ?_ ?_ ⟨fun hc => absurd hc hhow, fun hc => ?_⟩
    · exact congrArg (List.set · k (.ended how)) hsent.1
    · rw [endingsIn_append, hsent.2]
      exact endingsIn_effectEnded id k how
    · rw [hrun] at hc
      cases hc

theorem Resumed.fares {k : Nat} {after : Engine σ ι × List (Event σ ι ε)} (h : Resumed k e after)
    {id : Nat} {stage : EffectStage} (hs : e.effects[id]? = some stage) : Fares e id stage after := by
  cases h with
  | still => exact .same hs rfl
  | claimed => exact .same hs rfl
  | spared => exact .same hs rfl
  | joined => exact .same hs rfl

theorem Moved.length {id : Nat} {intents : List ι} {after : Engine σ ι × List (Event σ ι ε)}
    (h : Moved id intents e after) : after.1.effects.length = e.effects.length := by
  have hsent : (e.submitAll intents : Engine σ ι × List (Event σ ι ε)).1.effects = e.effects := by
    unfold submitAll
    split <;> rfl
  cases h with
  | still => rfl
  | cancelled => exact List.length_set
  | waits => exact congrArg List.length hsent
  | ends how => exact List.length_set.trans (congrArg List.length hsent)

theorem Resumed.effects {id : Nat} {after : Engine σ ι × List (Event σ ι ε)}
    (h : Resumed id e after) : after.1.effects = e.effects := by
  cases h with
  | still | claimed | spared | joined => rfl

theorem step_length (S : Setup σ ι ε) (e : Engine σ ι) {act : Act ι} (h : act ≠ .work) :
    (e.step S act).1.effects.length = e.effects.length := by
  cases act with
  | work => exact absurd rfl h
  | submit i =>
    show (e.submit i : Engine σ ι × List (Event σ ι ε)).1.effects.length = e.effects.length
    unfold submit
    split <;> rfl
  | effect id intents exit => exact (e.moveEffect_moved id intents exit).length
  | resume id => exact congrArg List.length (e.resume_resumed id).effects
  | subscribe | read | unsubscribe | destroy | drop => rfl

/-- An effect ends at most once, and it is cancelled just when it moves under the shutdown signal. -/
theorem step_fares (S : Setup σ ι ε) (e : Engine σ ι) (act : Act ι) {id : Nat} {stage : EffectStage}
    (h : e.effects[id]? = some stage) : Fares e id stage (e.step S act) := by
  cases act with
  | work =>
    obtain ⟨hw, more, hmore⟩ := (work_worked S e).working
    refine .same ?_ (hw.endings id)
    show (e.work S).1.effects[id]? = some stage
    rw [hmore, List.getElem?_append_left (List.getElem?_eq_some_iff.mp h).1, h]
  | submit i =>
    show Fares e id stage (e.submit i)
    unfold submit
    split <;> exact .same h rfl
  | effect k intents exit => exact (e.moveEffect_moved k intents exit).fares h
  | resume k => exact (e.resume_resumed k).fares h
  | subscribe | read | unsubscribe | destroy | drop => exact .same h rfl

/-! ### The shutdown signal -/

theorem Receipt.shutdown {state : σ} {previous : Option ι} {i : ι}
    {after : Engine σ ι × List (Event σ ι ε)} (h : Receipt S state previous i e after) :
    after.1.shutdown = e.shutdown := by
  cases h with
  | crashed | skipped => rfl
  | failed p effect => exact track_shutdown effect e
  | kept next effect => exact track_shutdown effect e
  | published next effect => exact track_shutdown effect e
  | unnoticed next effect => exact track_shutdown effect e

theorem Worked.shutdown {after : Engine σ ι × List (Event σ ι ε)} (h : Worked S e after) :
    after.1.shutdown = e.shutdown := by
  cases h with
  | ended | stopped | idle => rfl
  | received state previous _ _ i rest _ hr => exact hr.shutdown

theorem step_shutdown (S : Setup σ ι ε) (e : Engine σ ι) (act : Act ι) :
    (e.step S act).1.shutdown = true ↔ e.shutdown = true ∨ act = .destroy ∨ act = .drop := by
  have same : ∀ {after : Engine σ ι × List (Event σ ι ε)}, after.1.shutdown = e.shutdown →
      act ≠ .destroy → act ≠ .drop →
      (after.1.shutdown = true ↔ e.shutdown = true ∨ act = .destroy ∨ act = .drop) := by
    intro after hs hdestroy hdrop
    rw [hs]
    simp [hdestroy, hdrop]
  cases act with
  | work => exact same (work_worked S e).shutdown nofun nofun
  | submit i => exact same (e.submit_beside i).shutdown nofun nofun
  | effect k intents exit => exact same (e.moveEffect_beside k intents exit).shutdown nofun nofun
  | resume k => exact same (e.resume_beside k).shutdown nofun nofun
  | subscribe | read | unsubscribe => simp [step]
  | destroy | drop => simp [step, stop]

theorem runFrom_shutdown (S : Setup σ ι ε) (e : Engine σ ι) (acts : List (Act ι)) :
    (e.runFrom S acts).1.shutdown = true ↔
      e.shutdown = true ∨ .destroy ∈ acts ∨ .drop ∈ acts := by
  induction acts generalizing e with
  | nil => simp [runFrom]
  | cons act acts ih =>
    rw [runFrom_cons]
    dsimp only
    rw [ih, step_shutdown, List.mem_cons, List.mem_cons]
    simp only [eq_comm (a := act)]
    constructor
    · rintro ((h | h | h) | h | h) <;> simp [h]
    · rintro (h | (h | h) | h | h) <;> simp [h]

/-! ### Runs -/

/-- What became of an effect that was running at first. -/
def Tracked (id : Nat) (mayEnd : Ending → Prop) (e : Engine σ ι) (later : List (Event σ ι ε)) :
    Prop :=
  (e.effects[id]? = some .running ∧ endingsIn id later = []) ∨
    ∃ how, e.effects[id]? = some (.ended how) ∧ endingsIn id later = [how] ∧ mayEnd how

theorem Tracked.mono {id : Nat} {mayEnd mayEnd' : Ending → Prop} {later : List (Event σ ι ε)}
    (h : Tracked id mayEnd e later) (himp : ∀ how, mayEnd how → mayEnd' how) :
    Tracked id mayEnd' e later :=
  h.imp (fun hrunning => hrunning) fun ⟨how, hs, hn, hhow⟩ => ⟨how, hs, hn, himp how hhow⟩

theorem ended_runFrom (S : Setup σ ι ε) {id : Nat} {how : Ending}
    (h : e.effects[id]? = some (.ended how)) (acts : List (Act ι)) :
    (e.runFrom S acts).1.effects[id]? = some (.ended how) ∧
      endingsIn id (e.runFrom S acts).2 = [] := by
  refine runFrom_induct (P := fun e' past =>
    e'.effects[id]? = some (.ended how) ∧ endingsIn id past = []) ⟨h, rfl⟩ ?_
  intro act _ e' past ⟨hs, hn⟩
  cases step_fares S e' act hs with
  | same hs' hn' => exact ⟨hs', by rw [endingsIn_append, hn, hn']; rfl⟩
  | ended _ hr => cases hr

/-- **An effect is tracked until it ends**, which it does once: as a cancelled one if a teardown had
begun when it moved, and else in its own way. -/
theorem tracked_runFrom (S : Setup σ ι ε) {id : Nat} (h : e.effects[id]? = some .running)
    (acts : List (Act ι)) :
    Tracked id
      (fun how => (how = .cancelled → e.shutdown = true ∨ .destroy ∈ acts ∨ .drop ∈ acts) ∧
        (e.shutdown = true → how = .cancelled))
      (e.runFrom S acts).1 (e.runFrom S acts).2 := by
  induction acts generalizing e with
  | nil => exact Or.inl ⟨h, rfl⟩
  | cons act acts ih =>
    have hshutdown := step_shutdown S e act
    have hcause : e.shutdown = true ∨ act = .destroy ∨ act = .drop →
        e.shutdown = true ∨ .destroy ∈ act :: acts ∨ .drop ∈ act :: acts := by
      rintro (hs | rfl | rfl)
      · exact Or.inl hs
      · exact Or.inr (Or.inl List.mem_cons_self)
      · exact Or.inr (Or.inr List.mem_cons_self)
    rw [runFrom_cons]
    cases step_fares S e act h with
    | same hs hn =>
      rcases ih hs with ⟨hr, hnone⟩ | ⟨how, hr, hone, hwhy, hstop⟩
      · exact Or.inl ⟨hr, by rw [endingsIn_append, hn, hnone]; rfl⟩
      · refine Or.inr ⟨how, hr, by rw [endingsIn_append, hn, hone]; rfl, ?_, ?_⟩
        · intro hc
          rcases hwhy hc with hs | hd | hd
          · exact hcause (hshutdown.mp hs)
          · exact Or.inr (Or.inl (List.mem_cons_of_mem act hd))
          · exact Or.inr (Or.inr (List.mem_cons_of_mem act hd))
        · exact fun hs => hstop (hshutdown.mpr (Or.inl hs))
    | ended how _ hs hn hhow =>
      obtain ⟨hstay, hnone⟩ := ended_runFrom S hs acts
      exact Or.inr ⟨how, hstay, by rw [endingsIn_append, hn, hnone]; rfl,
        fun hc => Or.inl (hhow.mp hc), hhow.mpr⟩

/-! ### What every effect comes to -/

theorem Receipt.launched {state : σ} {previous : Option ι} {i : ι}
    {after : Engine σ ι × List (Event σ ι ε)} (h : Receipt S state previous i e after) :
    ∃ effect : Option ε, after.1.effects = e.effects ++ (effect.map fun _ => .running).toList := by
  cases h with
  | crashed | skipped => exact ⟨none, (List.append_nil _).symm⟩
  | failed p effect => exact ⟨effect, track_effects effect e⟩
  | kept next effect => exact ⟨effect, track_effects effect e⟩
  | published next effect => exact ⟨effect, track_effects effect e⟩
  | unnoticed next effect => exact ⟨effect, track_effects effect e⟩

theorem Worked.launched {after : Engine σ ι × List (Event σ ι ε)} (h : Worked S e after) :
    ∃ effect : Option ε, after.1.effects = e.effects ++ (effect.map fun _ => .running).toList := by
  cases h with
  | ended | stopped | idle => exact ⟨none, (List.append_nil _).symm⟩
  | received state previous _ _ i rest _ hr => exact hr.launched

theorem submitAll_endings (id : Nat) (intents : List ι) (e : Engine σ ι) :
    endingsIn id (e.submitAll intents : Engine σ ι × List (Event σ ι ε)).2 = [] := by
  unfold submitAll
  split <;> simp [endingsIn, Event.ended?]

theorem Moved.unlaunched {k : Nat} {intents : List ι} {after : Engine σ ι × List (Event σ ι ε)}
    (h : Moved k intents e after) {id : Nat} (hno : e.effects[id]? = none) :
    endingsIn id after.2 = [] := by
  have hne : e.effects[k]? = some .running → k ≠ id := by
    rintro hr rfl
    rw [hno] at hr
    cases hr
  cases h with
  | still => rfl
  | cancelled hr => exact (endingsIn_effectEnded id k .cancelled).trans (if_neg (hne hr))
  | waits => exact submitAll_endings id intents e
  | ends how hr =>
    rw [endingsIn_append, submitAll_endings, endingsIn_effectEnded, if_neg (hne hr)]
    rfl

theorem Resumed.endings {k id : Nat} {after : Engine σ ι × List (Event σ ι ε)}
    (h : Resumed k e after) : endingsIn id after.2 = [] := by
  cases h with
  | still | claimed | spared | joined => rfl

theorem step_unlaunched (S : Setup σ ι ε) (e : Engine σ ι) (act : Act ι) {id : Nat}
    (h : e.effects[id]? = none) :
    endingsIn id (e.step S act).2 = [] ∧
      ((e.step S act).1.effects[id]? = none ∨ (e.step S act).1.effects[id]? = some .running) := by
  by_cases hact : act = .work
  · subst hact
    refine ⟨(work_worked S e).working.1.endings id, ?_⟩
    obtain ⟨effect, hmore⟩ := (work_worked S e).launched
    show (e.work S).1.effects[id]? = none ∨ (e.work S).1.effects[id]? = some .running
    rw [hmore]
    cases effect with
    | none => exact Or.inl ((congrArg (·[id]?) (List.append_nil _)).trans h)
    | some effect =>
      show (e.effects ++ [.running])[id]? = none ∨ (e.effects ++ [.running])[id]? = some .running
      rw [getElem?_append_singleton, h]
      split
      · exact Or.inr rfl
      · exact Or.inl rfl
  · refine ⟨?_, Or.inl ?_⟩
    · cases act with
      | work => exact absurd rfl hact
      | submit i =>
        show endingsIn id (e.submit i).2 = []
        unfold submit
        split <;> rfl
      | effect k intents exit => exact (e.moveEffect_moved k intents exit).unlaunched h
      | resume k => exact (e.resume_resumed k).endings
      | subscribe | read | unsubscribe | destroy | drop => rfl
    · rw [List.getElem?_eq_none_iff] at h ⊢
      exact (step_length S e hact).symm ▸ h

/-- **Each effect ends just once, if it has ended.** -/
theorem endings_run (S : Setup σ ι ε) (acts : List (Act ι)) (id : Nat) :
    endingsIn id (run S acts).2 =
      (match (run S acts).1.effects[id]? with
        | some (.ended how) => [how]
        | _ => []) := by
  refine runFrom_induct (P := fun e past => endingsIn id past =
    (match e.effects[id]? with
      | some (.ended how) => [how]
      | _ => [])) rfl ?_
  intro act _ e past h
  rw [endingsIn_append, h]
  cases hs : e.effects[id]? with
  | none =>
    obtain ⟨hnone, hlater⟩ := step_unlaunched S e act hs
    rw [hnone]
    rcases hlater with hl | hl <;> rw [hl] <;> rfl
  | some stage =>
    cases step_fares S e act hs with
    | same hs' hn =>
      rw [hs', hn, List.append_nil]
    | ended how hr hs' hn =>
      rw [hs', hn, hr]
      rfl

end IntentLoop.Engine
