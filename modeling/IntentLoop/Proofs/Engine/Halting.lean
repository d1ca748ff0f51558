import IntentLoop.Proofs.Engine.Replay
import IntentLoop.Proofs.Engine.Sequential
/-!
# Halting is atomic

A callback that breaks off during validation, handling or reduction stops the engine in the middle of
an intent. What others see of the engine stays as if the intent had not been received; the failure is
reported once; and the engine does nothing more. Only effects go on, and one that was launched for the
intent before its reduction broke off is among them.

* `Breaks`: the ways in which an intent can break off, with the calls made by then.
* `work_breaks`: what the worker does at such an intent.
* `unreported_run`: before that, nothing was reported.
* `halting_is_atomic` puts these together with what is known of engines at rest, of effects, and of
  runs that receive the same intents.
-/

namespace IntentLoop.Engine

variable {σ ι ε : Type} {S : Setup σ ι ε} {e : Engine σ ι}

/-! ### The intent that breaks off -/

/-- A callback breaks off at an intent that is received in a state and is no repeat: with which panic,
which effect was launched by then, and which calls were made. -/
inductive Breaks (S : Setup σ ι ε) (state : σ) (i : ι) (id : Nat) (p : Panic) :
    Option ε → List (Event σ ι ε) → Prop
  | validation (hv : S.rules.valid i state = .error p) :
      Breaks S state i id p none [.validated i state]
  | handler (h : Handler σ ι ε) (hv : S.rules.valid i state = .ok true) (hS : S.handler = some h)
      (hp : h.perform state i = .error p) :
      Breaks S state i id p none [.validated i state, .performed state i]
  | reduction (effect : Option ε) (performed : List (Event σ ι ε))
      (hv : S.rules.valid i state = .ok true)
      (hp : perform S state i id = (.ok effect, performed))
      (hr : S.rules.reduce i state = .error p) :
      Breaks S state i id p effect (.validated i state :: performed ++ [.reduced i state])

def Event.launched? : Event σ ι ε → Option (Nat × ε)
  | .launched id effect => some (id, effect)
  | _ => none

/-- The effects launched, with their numbers. -/
def launchesIn (past : List (Event σ ι ε)) : List (Nat × ε) := past.filterMap Event.launched?

theorem launchesIn_append (past later : List (Event σ ι ε)) :
    launchesIn (past ++ later) = launchesIn past ++ launchesIn later := List.filterMap_append

theorem launchesIn_of_workless {events : List (Event σ ι ε)} (h : Workless events) :
    launchesIn events = [] := by
  refine List.filterMap_eq_nil_iff.mpr fun event hmem => ?_
  have hevent := h event hmem
  cases event <;> first | rfl | cases hevent

theorem perform_launches {state : σ} {i : ι} {id : Nat} {effect : Option ε}
    {performed : List (Event σ ι ε)} (h : perform S state i id = (.ok effect, performed)) :
    launchesIn performed = (effect.map (id, ·)).toList := by
  unfold perform at h
  split at h
  · cases h
    rfl
  · split at h <;> cases h <;> rfl

theorem compare_of_repeats {previous : Option ι} {i : ι} {b : Bool}
    (h : repeats S.filter previous i = .ok b) :
    compare S previous i = (.ok b, (compare S previous i).2) := by
  cases previous with
  | none =>
    cases h
    rfl
  | some p =>
    exact Prod.ext h rfl

namespace Breaks

variable {state : σ} {i : ι} {id : Nat} {p : Panic} {effect : Option ε} {calls : List (Event σ ι ε)}

theorem fate {previous : Option ι} (h : Breaks S state i id p effect calls)
    (hrep : repeats S.filter previous i = .ok false) :
    fate S state previous i id = (.failed p effect, (compare S previous i).2 ++ calls) := by
  have hc := compare_of_repeats hrep
  unfold Engine.fate
  rw [hc]
  dsimp only
  cases h with
  | validation hv => rw [hv]
  | handler h hv hS hp =>
    have hperform : perform S state i id = (.error p, [.performed state i]) := by
      unfold perform
      rw [hS]
      dsimp only
      rw [hp]
    rw [hv, hperform]
    simp
  | reduction effect performed hv hp hr =>
    rw [hv, hp]
    dsimp only
    rw [hr]
    simp

theorem launches (h : Breaks S state i id p effect calls) :
    launchesIn calls = (effect.map (id, ·)).toList := by
  cases h with
  | validation => rfl
  | handler => rfl
  | reduction effect performed hv hp hr =>
    show launchesIn (performed ++ [_]) = _
    rw [launchesIn, List.filterMap_append, ← launchesIn, perform_launches hp]
    exact List.append_nil _

end Breaks

/-- What is told of an intent that broke off. -/
def halting (S : Setup σ ι ε) (previous : Option ι) (i : ι) (p : Panic)
    (calls : List (Event σ ι ε)) : List (Event σ ι ε) :=
  .received i :: ((compare S previous i).2 ++ calls) ++
    [.halted (.reduction (S.rules.describe i) p.message),
      .reported S.reporter "engine" (.reduction (S.rules.describe i) p.message)]

theorem Breaks.decided {state : σ} {previous : Option ι} {i : ι} {id : Nat} {p : Panic}
    {effect : Option ε} {calls : List (Event σ ι ε)} (h : Breaks S state i id p effect calls)
    (hrep : repeats S.filter previous i = .ok false) :
    Decided S state previous i id (.failed p effect, (compare S previous i).2 ++ calls) :=
  h.fate hrep ▸ fate_decided S state previous i id

/-- Nothing of it is made public, and it is reported once. -/
theorem Breaks.halting {state : σ} {previous : Option ι} {i : ι} {id : Nat} {p : Panic}
    {effect : Option ε} {calls : List (Event σ ι ε)} (h : Breaks S state i id p effect calls)
    (hrep : repeats S.filter previous i = .ok false) :
    publishedIn (halting S previous i p calls) = [] ∧
      observedIn (halting S previous i p calls) = [] ∧
      reportsIn (halting S previous i p calls) =
        [(S.reporter, "engine", .reduction (S.rules.describe i) p.message)] := by
  have hd := h.decided hrep
  refine ⟨hd.silent.publishedIn_cons i _, hd.silent.observedIn_cons i _, ?_⟩
  rw [Engine.halting, reportsIn_append]
  show reportsIn ((compare S previous i).2 ++ calls) ++ _ = _
  rw [hd.deciding.reports]
  rfl

/-- **What the worker does at an intent that breaks off.** -/
theorem work_breaks {state : σ} {previous : Option ι} {i : ι} {rest : List ι} {p : Panic}
    {effect : Option ε} {calls : List (Event σ ι ε)} (hw : e.worker = .alive state previous)
    (hs : e.shutdown = false) (hi : e.inbox = i :: rest)
    (hrep : repeats S.filter previous i = .ok false)
    (hb : Breaks S state i e.effects.length p effect calls) :
    (e.work S).2 = halting S previous i p calls ∧
      (e.work S).1.isAlive = false ∧ (e.work S).1.status = .halted ∧
      (e.work S).1.broadcast = e.broadcast ∧
      (e.work S).1.effects = e.effects ++ (effect.map fun _ => .running).toList := by
  rw [work_received S hw hs hi]
  have hfate := hb.fate hrep
  unfold receive
  rw [show ({ e with inbox := rest } : Engine σ ι).effects = e.effects from rfl, hfate]
  exact ⟨rfl, rfl, rfl, track_broadcast effect _, track_effects effect _⟩

/-! ### Nothing is reported before -/

theorem reportsIn_of_workless {events : List (Event σ ι ε)} (h : Workless events) :
    reportsIn events = [] := by
  rw [← reportsIn_workIn, h.workIn]
  rfl

theorem Receipt.unreported {state : σ} {previous : Option ι} {i : ι}
    {after : Engine σ ι × List (Event σ ι ε)} (h : Receipt S state previous i e after)
    (halive : after.1.isAlive = true) : reportsIn after.2 = [] := by
  have hnews : ∀ next, reportsIn (news S next) = [] := by
    intro next
    unfold news
    cases S.observer <;> rfl
  cases h with
  | crashed => cases halive
  | skipped f called hd _ => exact hd.deciding.reports
  | failed => cases halive
  | kept next effect called hd _ => exact hd.deciding.reportsIn_cons i _
  | published next effect called hd _ _ _ =>
    rw [List.append_assoc, hd.deciding.reportsIn_cons, reportsIn_append, hnews]
    rfl
  | unnoticed => cases halive

theorem Worked.unreported {after : Engine σ ι × List (Event σ ι ε)} (h : Worked S e after)
    (halive : after.1.isAlive = true) : reportsIn after.2 = [] := by
  cases h with
  | ended | stopped | idle => rfl
  | received state previous _ _ i rest _ hr => exact hr.unreported halive

/-- As long as the worker is there, it has reported nothing. -/
theorem unreported_run (S : Setup σ ι ε) (acts : List (Act ι))
    (h : (run S acts).1.isAlive = true) : reportsIn (run S acts).2 = [] := by
  refine runFrom_induct (P := fun e past => e.isAlive = true → reportsIn past = []) (fun _ => rfl)
    ?_ h
  intro act _ e past ih halive
  rw [reportsIn_append, ih (alive_of_step S halive), List.nil_append]
  by_cases hact : act = .work
  · subst hact
    exact (work_worked S e).unreported halive
  · exact reportsIn_of_workless (step_workless S e hact)

/-- **Halting is atomic.** Let an intent that is no repeat be received, and let its validation, the
effect handler or its reduction break off.

Whatever happens afterwards, the states published, the calls of the observer and the current state are
those of the plain run on the intents received before, whose worker stands where this one stood. There
is one report, by the engine, of a failed reduction with the text of the intent and that of the panic.
The engine has halted, until a teardown ends. Nothing that is queued or submitted later is looked at,
and whatever is submitted is rejected.

If the reduction broke off, the effect that goes with the intent was launched, once, and else none
was. The effects that were running, this one included, are tracked on: each until it ends, as a
cancelled one only if a teardown begins. -/
theorem halting_is_atomic (S : Setup σ ι ε) (pre post : List (Act ι)) {state : σ}
    {previous : Option ι} {i : ι} {rest : List ι} {p : Panic} {effect : Option ε}
    {calls : List (Event σ ι ε)} (hw : (run S pre).1.worker = .alive state previous)
    (hs : (run S pre).1.shutdown = false) (hi : (run S pre).1.inbox = i :: rest)
    (hrep : repeats S.filter previous i = .ok false)
    (hb : Breaks S state i (run S pre).1.effects.length p effect calls) :
    ∃ later,
      (run S (pre ++ .work :: post)).2 =
        (run S pre).2 ++ (halting S previous i p calls ++ later) ∧
      ((run S (plain (receivedIn (run S pre).2))).1.worker = .alive state previous ∧
        publishedIn (run S (pre ++ .work :: post)).2 =
          publishedIn (run S (plain (receivedIn (run S pre).2))).2 ∧
        observedIn (run S (pre ++ .work :: post)).2 =
          observedIn (run S (plain (receivedIn (run S pre).2))).2 ∧
        (run S (pre ++ .work :: post)).1.current =
          (run S (plain (receivedIn (run S pre).2))).1.current) ∧
      reportsIn (run S (pre ++ .work :: post)).2 =
        [(S.reporter, "engine", .reduction (S.rules.describe i) p.message)] ∧
      ((run S (pre ++ [.work])).1.status = .halted ∧
        ((run S (pre ++ .work :: post)).1.status = .halted ∨
          (run S (pre ++ .work :: post)).1.status = .destroyed ∧
            ∃ id result, .teardownEnded id result ∈ later)) ∧
      (workIn later = [] ∧ (∀ j, .accepted j ∉ later) ∧
        ∀ j, (run S (pre ++ .work :: post)).1.submit j =
          ((run S (pre ++ .work :: post)).1, ([.rejected j] : List (Event σ ι ε)))) ∧
      launchesIn calls = (effect.map ((run S pre).1.effects.length, ·)).toList ∧
      (run S (pre ++ [.work])).1.effects =
        (run S pre).1.effects ++ (effect.map fun _ => .running).toList ∧
      ∀ id, (run S (pre ++ [.work])).1.effects[id]? = some .running →
        Tracked id (fun how => how = .cancelled → .destroy ∈ post ∨ .drop ∈ post)
          (run S (pre ++ .work :: post)).1 later := by
  obtain ⟨hevents, hdead, hstatus, hbroadcast, heffects⟩ := work_breaks hw hs hi hrep hb
  obtain ⟨hpublished, hobserved, hreported⟩ := hb.halting hrep
  have hreplayed := replayed_run S hs
  have hbefore : reportsIn (run S pre).2 = [] := unreported_run S pre (by rw [isAlive, hw])
  have hstep : (run S (pre ++ [.work])).1 = ((run S pre).1.work S).1 := by
    rw [run_split]
    rfl
  have hrunning : ((run S pre).1.work S).1.shutdown = false :=
    (work_worked S (run S pre).1).shutdown.trans hs
  obtain ⟨-, hidle, hcurrent⟩ := Resting.runFrom S (Or.inl hdead) post
  obtain ⟨hstill, hclosed⟩ := runFrom_dead S hdead post
  have hsettled := runFrom_settled S hdead post
  have htracked : ∀ id, ((run S pre).1.work S).1.effects[id]? = some EffectStage.running →
      Tracked id (fun how => how = .cancelled → .destroy ∈ post ∨ .drop ∈ post)
        (((run S pre).1.work S).1.runFrom S post).1 (((run S pre).1.work S).1.runFrom S post).2 := by
    intro id hid
    refine (tracked_runFrom S hid post).mono fun how hwhy hc => ?_
    rcases hwhy.1 hc with hno | htorn
    · rw [hrunning] at hno
      cases hno
    · exact htorn
  have hsplit : run S (pre ++ .work :: post) =
      ((((run S pre).1.work S).1.runFrom S post).1,
        (run S pre).2 ++ (halting S previous i p calls ++
          (((run S pre).1.work S).1.runFrom S post).2)) := by
    rw [run_split, ← hevents]
    rfl
  rw [hstep, hsplit]
  dsimp only
  generalize ((run S pre).1.work S).1.runFrom S post = last at *
  obtain ⟨after, later⟩ := last
  have hnone : publishedIn later = [] ∧ observedIn later = [] ∧ reportsIn later = [] := by
    rw [← publishedIn_workIn, ← observedIn_workIn, ← reportsIn_workIn, hidle]
    exact ⟨rfl, rfl, rfl⟩
  refine ⟨later, rfl, ⟨?_, ?_, ?_, ?_⟩, ?_, ⟨hstatus, ?_⟩, ⟨hidle, hclosed, ?_⟩, hb.launches,
    heffects, htracked⟩
  · exact hreplayed.akin.worker.symm.trans hw
  · rw [publishedIn_append, publishedIn_append, hpublished, hnone.1, ← publishedIn_workIn,
      hreplayed.work, publishedIn_workIn, List.append_nil, List.append_nil]
  · rw [observedIn_append, observedIn_append, hobserved, hnone.2.1, ← observedIn_workIn,
      hreplayed.work, observedIn_workIn, List.append_nil, List.append_nil]
  · rw [hcurrent, current, hbroadcast]
    exact hreplayed.akin.last
  · rw [reportsIn_append, reportsIn_append, hbefore, hreported, hnone.2.2]
    rfl
  · exact hsettled.imp (fun hsame => hsame.trans hstatus) id
  · exact submit_dead hstill

/-- A sum with an effect for every summand, in which 0 cannot be added. -/
def fused : Setup Nat Nat Unit where
  rules := {
    same := fun a b => a == b
    valid := fun _ _ => .ok true
    reduce := fun i s => if i = 0 then .error (.text "blown") else .ok (s + i)
    describe := fun i => toString i }
  settings := {}
  initial := 0
  filter := .structural
  handler := some { name := "bell", perform := fun _ _ => .ok (some ()) }
  reporter := .sink "main"
  observer := none

/-- The reduction of 0 breaks off when an effect runs, the effect of 0 is launched, and 2 is queued.
The first effect completes, and the second one is cancelled by the teardown. -/
theorem fused_halts :
    publishedIn (run fused [.submit 1, .work, .submit 0, .submit 2, .work, .submit 3, .work,
        .effect 0 [4] .completes, .destroy, .effect 1 [] .waits]).2 =
      publishedIn (run fused (plain [1])).2 ∧
    reportsIn (run fused [.submit 1, .work, .submit 0, .submit 2, .work, .submit 3, .work,
        .effect 0 [4] .completes, .destroy, .effect 1 [] .waits]).2 =
      [(.sink "main", "engine", .reduction "0" "blown")] ∧
    (run fused [.submit 1, .work, .submit 0, .submit 2, .work]).1.effects = [.running, .running] := by
  obtain ⟨later, -, ⟨-, hpublished, -, -⟩, hreported, -, -, -, heffects, -⟩ := halting_is_atomic fused
    [.submit 1, .work, .submit 0, .submit 2]
    [.submit 3, .work, .effect 0 [4] .completes, .destroy, .effect 1 [] .waits]
    rfl rfl rfl rfl (.reduction (some ()) [.performed 1 0, .launched 1 ()] rfl rfl rfl)
  exact ⟨hpublished, hreported, heffects⟩

end IntentLoop.Engine
