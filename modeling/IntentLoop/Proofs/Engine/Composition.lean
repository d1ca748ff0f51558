import IntentLoop.Engine.Builder
import IntentLoop.Proofs.Engine.Handling
/-!
# What an engine is composed of

An engine has seven parts that can be set, and a call on a builder sets one of them, or the name and the
strictness together. A builder is no more than its parts (`ext_part`), so that what a sequence of calls
comes to can be told part by part: a call sets its own parts and leaves all others as they were
(`part_call`), and hence the last call on a part decides, or the origin of the builder if there was none
(`part_calls_last`, `part_calls_untouched`). `Composed` says this of a setup, and `built_by_last_calls`
that it is just the setup, and the engine, that is built.

An engine on which no handler was set has none. It does what it would do with a handler that is asked
and never starts an effect (`step_attended`).
-/

namespace IntentLoop

variable {σ ι ε : Type}

namespace Builder

/-! ### Parts -/

/-- The parts of an engine that can be set. -/
inductive Part where
  | initial
  | name
  | strict
  | filter
  | handler
  | reporter
  | observer

/-- What a part can be. An initial state, a handler and an observer may be missing. -/
abbrev Part.Value (σ ι ε : Type) : Part → Type
  | initial => Option σ
  | name => String
  | strict => Bool
  | filter => IntentFilter ι
  | handler => Option (Handler σ ι ε)
  | reporter => Reporter
  | observer => Option (Observer σ)

def part (b : Builder σ ι ε) : (p : Part) → p.Value σ ι ε
  | .initial => b.initial
  | .name => b.settings.name
  | .strict => b.settings.strict
  | .filter => b.filter
  | .handler => b.handler
  | .reporter => b.reporter
  | .observer => b.observer

/-- What the call sets the part to, if it is a call on that part. -/
def Call.sets : Call σ ι ε → (p : Part) → Option (p.Value σ ι ε)
  | .initial s, .initial => some (some s)
  | .name text, .name => some text
  | .strict flag, .strict => some flag
  | .settings s, .name => some s.name
  | .settings s, .strict => some s.strict
  | .filter f, .filter => some f
  | .handler h, .handler => some (some h)
  | .reporter r, .reporter => some r
  | .observer o, .observer => some (some o)
  | _, _ => none

/-- What the parts are of which nothing was set. -/
def Origin.standard [BEq ι] (debug : Bool) (origin : Origin ι) : (p : Part) → p.Value σ ι ε
  | .initial => none
  | .name => "engine"
  | .strict => debug
  | .filter =>
    match origin with
    | .new | .default => .structural
    | .withFilter filter => filter
  | .handler => none
  | .reporter => .log
  | .observer => none

theorem part_origin [BEq ι] (origin : Origin ι) (debug : Bool) (p : Part) :
    (origin.builder debug : Builder σ ι ε).part p = origin.standard debug p := by
  cases origin <;> cases p <;> rfl

/-- **A builder is no more than its parts.** -/
theorem ext_part {b b' : Builder σ ι ε} (h : ∀ p, b.part p = b'.part p) : b = b' := by
  obtain ⟨filter, initial, ⟨name, strict⟩, handler, reporter, observer⟩ := b
  obtain ⟨filter', initial', ⟨name', strict'⟩, handler', reporter', observer'⟩ := b'
  obtain rfl : filter = filter' := h .filter
  obtain rfl : initial = initial' := h .initial
  obtain rfl : name = name' := h .name
  obtain rfl : strict = strict' := h .strict
  obtain rfl : handler = handler' := h .handler
  obtain rfl : reporter = reporter' := h .reporter
  obtain rfl : observer = observer' := h .observer
  rfl

/-! ### Calls -/

variable {b : Builder σ ι ε} {c : Call σ ι ε} {before after cs : List (Call σ ι ε)} {p : Part}

/-- **A call sets its own parts and leaves all others as they were.** -/
theorem part_call (b : Builder σ ι ε) (c : Call σ ι ε) (p : Part) :
    (b.call c).part p = (c.sets p).getD (b.part p) := by
  cases c <;> cases p <;> rfl

theorem part_call_of_sets {value : p.Value σ ι ε} (h : c.sets p = some value) :
    (b.call c).part p = value := by
  rw [part_call, h, Option.getD_some]

theorem part_call_of_not_sets (h : c.sets p = none) : (b.call c).part p = b.part p := by
  rw [part_call, h, Option.getD_none]

theorem calls_cons (b : Builder σ ι ε) (c : Call σ ι ε) (cs : List (Call σ ι ε)) :
    b.calls (c :: cs) = (b.call c).calls cs := rfl

theorem calls_append (b : Builder σ ι ε) (cs more : List (Call σ ι ε)) :
    b.calls (cs ++ more) = (b.calls cs).calls more := List.foldl_append

theorem part_calls_untouched (h : ∀ c ∈ cs, c.sets p = none) : (b.calls cs).part p = b.part p := by
  induction cs generalizing b with
  | nil => rfl
  | cons c cs ih =>
    rw [calls_cons, ih fun later hmem => h later (List.mem_cons_of_mem c hmem)]
    exact part_call_of_not_sets (h c List.mem_cons_self)

/-- **The last call on a part decides.** -/
theorem part_calls_last {value : p.Value σ ι ε} (h : c.sets p = some value)
    (hlater : ∀ later ∈ after, later.sets p = none) :
    (b.calls (before ++ c :: after)).part p = value := by
  rw [calls_append, calls_cons, part_calls_untouched hlater, part_call_of_sets h]

/-- A part was never set, or some call was the last to set it. -/
theorem last_or_untouched (p : Part) (cs : List (Call σ ι ε)) :
    (∀ c ∈ cs, c.sets p = none) ∨ ∃ before c after value, cs = before ++ c :: after ∧
      c.sets p = some value ∧ ∀ later ∈ after, later.sets p = none := by
  induction cs with
  | nil => exact Or.inl nofun
  | cons first rest ih =>
    rcases ih with hnone | ⟨before, c, after, value, rfl, hset, hlater⟩
    · cases hfirst : first.sets p with
      | none => exact Or.inl (List.forall_mem_cons.mpr ⟨hfirst, hnone⟩)
      | some value => exact Or.inr ⟨[], first, rest, value, rfl, hfirst, hnone⟩
    · exact Or.inr ⟨first :: before, c, after, value, rfl, hset, hlater⟩

/-! ### The order of calls -/

/-- The calls have no part in common. -/
def Call.Disjoint (c d : Call σ ι ε) : Prop := ∀ p, c.sets p = none ∨ d.sets p = none

/-- Later calls set all that the call sets. -/
def Call.Overridden (c : Call σ ι ε) (after : List (Call σ ι ε)) : Prop :=
  ∀ p, c.sets p ≠ none → ∃ later ∈ after, later.sets p ≠ none

/-- What calls make of a part depends on nothing but that part. -/
theorem part_calls_congr {b b' : Builder σ ι ε} (h : b.part p = b'.part p) (cs : List (Call σ ι ε)) :
    (b.calls cs).part p = (b'.calls cs).part p := by
  rcases last_or_untouched p cs with hnone | ⟨before, c, after, value, rfl, hset, hlater⟩
  · rw [part_calls_untouched hnone, part_calls_untouched hnone, h]
  · rw [part_calls_last hset hlater, part_calls_last hset hlater]

/-- **Calls on different parts commute.** -/
theorem calls_comm {ds : List (Call σ ι ε)} (h : ∀ c ∈ cs, ∀ d ∈ ds, c.Disjoint d)
    (b : Builder σ ι ε) : (b.calls cs).calls ds = (b.calls ds).calls cs := by
  refine ext_part fun p => ?_
  rcases last_or_untouched p cs with hnone | ⟨before, c, after, value, rfl, hset, hlater⟩
  · rw [part_calls_untouched hnone]
    exact part_calls_congr (part_calls_untouched hnone) ds
  · have hnone : ∀ d ∈ ds, d.sets p = none := by
      intro d hd
      rcases h c (List.mem_append_right before List.mem_cons_self) d hd p with hc | hd
      · rw [hset] at hc
        cases hc
      · exact hd
    rw [part_calls_untouched hnone, part_calls_last hset hlater, part_calls_last hset hlater]

/-- **A call that is overridden leaves no trace.** -/
theorem call_overridden (h : c.Overridden after) (b : Builder σ ι ε) :
    (b.call c).calls after = b.calls after := by
  refine ext_part fun p => ?_
  rcases last_or_untouched p after with hnone | ⟨before, d, rest, value, rfl, hset, hlater⟩
  · have hc : c.sets p = none := by
      refine Classical.byContradiction fun hc => ?_
      obtain ⟨later, hmem, hlater⟩ := h p hc
      exact hlater (hnone later hmem)
    exact part_calls_congr (part_call_of_not_sets hc) after
  · rw [part_calls_last hset hlater, part_calls_last hset hlater]

/-! ### Building -/

/-- The builder that has collected just this setup. -/
def ofSetup (S : Setup σ ι ε) : Builder σ ι ε :=
  { filter := S.filter, initial := some S.initial, settings := S.settings, handler := S.handler
    reporter := S.reporter, observer := S.observer }

/-- Each part of the setup is the one that was set last, or as it is without calls if it was never
set. -/
structure Composed (rules : Rules σ ι) (standard : (p : Part) → p.Value σ ι ε)
    (cs : List (Call σ ι ε)) (S : Setup σ ι ε) : Prop where
  rules : S.rules = rules
  last : ∀ {before c after p} {value : p.Value σ ι ε}, cs = before ++ c :: after →
    c.sets p = some value → (∀ later ∈ after, later.sets p = none) → (ofSetup S).part p = value
  untouched : ∀ p, (∀ c ∈ cs, c.sets p = none) → (ofSetup S).part p = standard p

theorem composed_iff {rules : Rules σ ι} {S : Setup σ ι ε} :
    Composed rules b.part cs S ↔ S.rules = rules ∧ ofSetup S = b.calls cs := by
  constructor
  · intro h
    refine ⟨h.rules, ext_part fun p => ?_⟩
    rcases last_or_untouched p cs with hnone | ⟨before, c, after, value, hcs, hset, hlater⟩
    · rw [h.untouched p hnone, part_calls_untouched hnone]
    · rw [h.last hcs hset hlater, hcs, part_calls_last hset hlater]
  · rintro ⟨hrules, hS⟩
    refine ⟨hrules, ?_, ?_⟩
    · rintro before c after p value rfl hset hlater
      rw [hS, part_calls_last hset hlater]
    · intro p hnone
      rw [hS, part_calls_untouched hnone]

theorem build_eq_ok_iff {rules : Rules σ ι} {runtime : Bool} {S : Setup σ ι ε} :
    b.build rules runtime = .ok S ↔ runtime = true ∧ S.rules = rules ∧ ofSetup S = b := by
  obtain ⟨filter, initial, settings, handler, reporter, observer⟩ := b
  constructor
  · intro h
    unfold build at h
    split at h
    · cases h
    · rename_i hinitial
      cases runtime with
      | true =>
        cases h
        cases hinitial
        exact ⟨rfl, rfl, rfl⟩
      | false => cases h
  · rintro ⟨rfl, rfl, hS⟩
    cases hS
    rfl

theorem build_missing_iff {rules : Rules σ ι} {runtime : Bool} :
    b.build rules runtime = .error .missingInitialState ↔ b.initial = none := by
  unfold build
  cases b.initial with
  | none => exact ⟨fun _ => rfl, fun _ => rfl⟩
  | some s => cases runtime <;> exact ⟨nofun, nofun⟩

theorem build_noRuntime_iff {rules : Rules σ ι} {runtime : Bool} :
    b.build rules runtime = .error .noRuntime ↔ b.initial ≠ none ∧ runtime = false := by
  unfold build
  cases b.initial with
  | none => exact ⟨nofun, fun h => absurd rfl h.1⟩
  | some s =>
    cases runtime with
    | true => exact ⟨nofun, nofun⟩
    | false => exact ⟨fun _ => ⟨nofun, rfl⟩, fun _ => rfl⟩

theorem sets_initial_eq_none_iff : c.sets .initial = none ↔ ∀ s, c ≠ .initial s := by
  cases c with
  | initial s => exact ⟨nofun, fun h => absurd rfl (h s)⟩
  | name | strict | settings | filter | handler | reporter | observer =>
    exact ⟨fun _ => nofun, fun _ => rfl⟩

theorem initial_calls_eq_none_iff (hb : b.initial = none) :
    (b.calls cs).initial = none ↔ ∀ s, .initial s ∉ cs := by
  have huntouched : (∀ c ∈ cs, c.sets .initial = none) ↔ ∀ s, .initial s ∉ cs := by
    constructor
    · intro h s hmem
      exact sets_initial_eq_none_iff.mp (h _ hmem) s rfl
    · intro h c hmem
      exact sets_initial_eq_none_iff.mpr fun s hc => h s (hc ▸ hmem)
  rw [← huntouched]
  rcases last_or_untouched .initial cs with hnone | ⟨before, c, after, value, rfl, hset, hlater⟩
  · have hinitial : (b.calls cs).initial = b.initial := part_calls_untouched (p := .initial) hnone
    rw [hinitial, hb]
    exact ⟨fun _ => hnone, fun _ => rfl⟩
  · have hinitial : (b.calls (before ++ c :: after)).initial = value :=
      part_calls_last (p := .initial) hset hlater
    have hmem : c ∈ before ++ c :: after := List.mem_append_right before List.mem_cons_self
    rw [hinitial]
    cases c <;> cases hset
    exact ⟨nofun, fun h => nomatch h _ hmem⟩

end Builder

/-! ### Where no handler is set -/

/-- With a handler that is asked and never starts an effect. -/
def Setup.attended (S : Setup σ ι ε) (name : String) : Setup σ ι ε :=
  { S with handler := some { name, perform := fun _ _ => .ok none } }

namespace Engine

variable {S : Setup σ ι ε}

/-- What is told but the calls of the handler. -/
def unasked (events : List (Event σ ι ε)) : List (Event σ ι ε) :=
  events.filter (·.performed?.isNone)

theorem unasked_append (events more : List (Event σ ι ε)) :
    unasked (events ++ more) = unasked events ++ unasked more := List.filter_append ..

theorem unasked_of_workless {events : List (Event σ ι ε)} (h : Workless events) :
    unasked events = events := by
  refine List.filter_eq_self.mpr fun event hmem => ?_
  have hevent := h event hmem
  cases event <;> first | rfl | cases hevent

theorem fate_attended (hS : S.handler = none) (name : String) (state : σ) (previous : Option ι) (i : ι)
    (id : Nat) :
    (fate (S.attended name) state previous i id).1 = (fate S state previous i id).1 ∧
      unasked (fate (S.attended name) state previous i id).2 = (fate S state previous i id).2 := by
  have hperform : perform S state i id = (.ok none, []) := by
    unfold perform
    rw [hS]
  have hperform' : perform (S.attended name) state i id = (.ok none, [.performed state i]) := rfl
  have hcompare' : compare (S.attended name) previous i = compare S previous i := rfl
  have hcompare : unasked (compare S previous i).2 = (compare S previous i).2 := by
    cases previous <;> rfl
  have hrules : (S.attended name).rules = S.rules := rfl
  unfold fate
  rw [hcompare', hperform, hperform', hrules]
  generalize compare S previous i = answer at hcompare ⊢
  obtain ⟨repeats, compared⟩ := answer
  have htold : ∀ more, unasked (compared ++ more) = compared ++ unasked more := by
    intro more
    rw [unasked_append, hcompare]
  rcases repeats with p | _ | _
  · exact ⟨rfl, hcompare⟩
  · dsimp only
    cases S.rules.valid i state with
    | error p => exact ⟨rfl, htold _⟩
    | ok valid =>
      cases valid with
      | false =>
        dsimp only
        rw [List.append_assoc]
        exact ⟨rfl, htold _⟩
      | true =>
        dsimp only
        cases S.rules.reduce i state with
        | error | ok =>
          refine ⟨rfl, ?_⟩
          simp only [List.append_assoc, htold]
          rfl
  · exact ⟨rfl, htold _⟩

theorem unasked_publish (S : Setup σ ι ε) (next : σ) (e : Engine σ ι) :
    unasked (e.publish S next).2.2 = (e.publish S next).2.2 := by
  rcases publish_cases S next e with ⟨-, hp⟩ | ⟨-, -, hp⟩
  · rw [hp]
    rfl
  · rw [hp]
    unfold news
    cases S.observer <;> rfl

theorem receive_attended (hS : S.handler = none) (name : String) (state : σ) (previous : Option ι)
    (i : ι) (e : Engine σ ι) :
    ((e.receive (S.attended name) state previous i).1,
      unasked (e.receive (S.attended name) state previous i).2) = e.receive S state previous i := by
  obtain ⟨hfate, hcalled⟩ := fate_attended hS name state previous i e.effects.length
  have hhalt : ∀ e : Engine σ ι, ∀ p, e.halt (S.attended name) i p = e.halt S i p := fun _ _ => rfl
  have hpublish : ∀ e : Engine σ ι, ∀ next,
      e.publish (S.attended name) next = e.publish S next := fun _ _ => rfl
  unfold receive
  generalize fate (S.attended name) state previous i e.effects.length = decision' at hfate hcalled ⊢
  generalize fate S state previous i e.effects.length = decision at hfate hcalled ⊢
  obtain ⟨f, called⟩ := decision
  obtain ⟨f', called'⟩ := decision'
  obtain rfl : f' = f := hfate
  obtain rfl : unasked called' = called := hcalled
  have htold : ∀ more, unasked (.received i :: called' ++ more) =
      .received i :: unasked called' ++ unasked more := by
    intro more
    rw [unasked_append]
    rfl
  cases f' with
  | crashed p => exact Prod.ext rfl (htold _)
  | repeated | refused => rfl
  | failed p effect =>
    dsimp only
    rw [hhalt]
    exact Prod.ext rfl (htold _)
  | applied next effect =>
    have hnews := unasked_publish S next (e.track effect)
    dsimp only
    rw [hpublish]
    generalize (e.track effect).publish S next = published at hnews ⊢
    obtain ⟨noticed, after, news⟩ := published
    cases noticed with
    | ok | error =>
      refine Prod.ext rfl ?_
      dsimp only at hnews ⊢
      rw [unasked_append, htold, hnews]
      rfl

/-- **An engine without a handler does what it would do with one that never starts an effect.** -/
theorem step_attended (hS : S.handler = none) (name : String) (e : Engine σ ι) (act : Act ι) :
    ((e.step (S.attended name) act).1, unasked (e.step (S.attended name) act).2) = e.step S act := by
  by_cases hact : act = .work
  · subst hact
    show ((e.work (S.attended name)).1, unasked (e.work (S.attended name)).2) = e.work S
    unfold work
    split
    · split
      · rfl
      · split
        · rfl
        · exact receive_attended hS name ..
    · rfl
    · rfl
  · have hstep : e.step (S.attended name) act = e.step S act := by
      cases act <;> first | rfl | exact absurd rfl hact
    rw [hstep, unasked_of_workless (step_workless S e hact)]

theorem runFrom_attended (hS : S.handler = none) (name : String) (e : Engine σ ι)
    (acts : List (Act ι)) :
    ((e.runFrom (S.attended name) acts).1, unasked (e.runFrom (S.attended name) acts).2) =
      e.runFrom S acts := by
  induction acts generalizing e with
  | nil => rfl
  | cons act rest ih =>
    rw [runFrom_cons, runFrom_cons, unasked_append, ← step_attended hS name e act, ← ih]

end Engine

namespace Builder

open Engine (Act Event unasked)

/-! ### The engine that is built -/

/-- The run of the engine that is built. -/
def run (b : Builder σ ι ε) (rules : Rules σ ι) (runtime : Bool) (acts : List (Act ι)) :
    Except BuildError (Engine σ ι × List (Event σ ι ε)) :=
  (b.build rules runtime).map (Engine.run · acts)

theorem run_of_build {b : Builder σ ι ε} {rules : Rules σ ι} {runtime : Bool} {S : Setup σ ι ε}
    (h : b.build rules runtime = .ok S) (acts : List (Act ι)) :
    b.run rules runtime acts = .ok (Engine.run S acts) := by
  rw [run, h]
  rfl

/-- **The last calls decide what is built.** Let any calls be made on a builder, whichever way it was
come by.

Nothing is built without an initial state, be there a runtime or not, and with one it takes no more than
a runtime. What is built then is the engine each part of which is what the last call on that part set it
to, or what it is by default if no call did; it is run as such an engine is. By default there is no
handler, which comes to the same as one that never starts an effect, but for its calls.

Calls that have no part in common can change places, be they single or many, and a call can be left
out where later ones set all that it sets. The engine that takes an initial state and nothing else is
the one for which there was only that call. -/
theorem built_by_last_calls [BEq ι] (origin : Origin ι) (debug : Bool) (rules : Rules σ ι)
    (cs : List (Call σ ι ε)) :
    let built (cs : List (Call σ ι ε)) : Builder σ ι ε := (origin.builder debug).calls cs
    let composed := Composed rules (origin.standard debug) cs
    (∀ runtime, (built cs).build rules runtime = .error .missingInitialState ↔
      ∀ s, .initial s ∉ cs) ∧
    (∀ runtime, (built cs).build rules runtime = .error .noRuntime ↔
      (∃ s, .initial s ∈ cs) ∧ runtime = false) ∧
    (∀ runtime S, (built cs).build rules runtime = .ok S ↔ runtime = true ∧ composed S) ∧
    ((∃ s, .initial s ∈ cs) → ∃ S, composed S) ∧
    (∀ S, composed S → ∀ acts,
      (built cs).run rules true acts = .ok (Engine.run S acts) ∧
      ((∀ c ∈ cs, c.sets .handler = none) → ∀ name,
        ((Engine.run (S.attended name) acts).1, unasked (Engine.run (S.attended name) acts).2) =
          Engine.run S acts)) ∧
    (∀ before ds es after, cs = before ++ (ds ++ es) ++ after →
      (∀ d ∈ ds, ∀ e ∈ es, d.Disjoint e) → built (before ++ (es ++ ds) ++ after) = built cs) ∧
    (∀ before c after, cs = before ++ c :: after → c.Overridden after →
      built (before ++ after) = built cs) ∧
    (∀ s runtime, pure s rules runtime debug =
      ((Origin.new.builder debug : Builder σ ι ε).calls [.initial s]).build rules runtime) ∧
    ∀ s acts, (pure s rules true debug).map (Engine.run · acts) =
      .ok (Engine.run
        ({ rules, settings := { name := "engine", strict := debug }, initial := s
           filter := .structural, handler := none, reporter := .log, observer := none } :
          Setup σ ι ε) acts) := by
  intro built composed
  have hstandard : (origin.builder debug : Builder σ ι ε).part = origin.standard debug :=
    funext (part_origin origin debug)
  have hinitial : (built cs).initial = none ↔ ∀ s, .initial s ∉ cs :=
    initial_calls_eq_none_iff (part_origin origin debug .initial)
  have hset : (built cs).initial ≠ none ↔ ∃ s, .initial s ∈ cs := by
    rw [ne_eq, hinitial]
    exact ⟨fun h => Classical.byContradiction fun hs => h fun s hmem => hs ⟨s, hmem⟩,
      fun ⟨s, hmem⟩ h => h s hmem⟩
  have hbuilt : ∀ runtime S, (built cs).build rules runtime = .ok S ↔
      runtime = true ∧ composed S := by
    intro runtime S
    rw [build_eq_ok_iff, ← composed_iff, hstandard]
  refine ⟨fun runtime => build_missing_iff.trans hinitial,
    fun runtime => build_noRuntime_iff.trans (and_congr_left' hset), hbuilt, ?_, ?_, ?_, ?_, ?_, ?_⟩
  · intro hs
    cases hbuild : (built cs).build rules true with
    | ok S => exact ⟨S, ((hbuilt true S).mp hbuild).2⟩
    | error error =>
      cases error with
      | missingInitialState => exact absurd (build_missing_iff.mp hbuild) (hset.mpr hs)
      | noRuntime => cases (build_noRuntime_iff.mp hbuild).2
  · intro S hS acts
    refine ⟨run_of_build ((hbuilt true S).mpr ⟨rfl, hS⟩) acts, fun hnone name => ?_⟩
    have hhandler : S.handler = none := hS.untouched .handler hnone
    exact Engine.runFrom_attended hhandler name (Engine.start S) acts
  · rintro before ds es after rfl hdisjoint
    show (origin.builder debug).calls _ = (origin.builder debug).calls _
    simp only [calls_append]
    rw [calls_comm hdisjoint]
  · rintro before c after rfl hover
    show (origin.builder debug).calls _ = (origin.builder debug).calls _
    rw [calls_append, calls_append, calls_cons, call_overridden hover]
  · intro s runtime
    rfl
  · intro s acts
    rfl

/-- Settings replace a name and a strictness set before, and a name set after them replaces theirs. -/
example :
    ((Builder.new : Builder Nat Nat Unit).calls [.strict true, .name "first", .initial 3,
        .settings { name := "second", strict := false }, .name "third"]).settings =
      { name := "third", strict := false } := rfl

end Builder

end IntentLoop
