import Mathlib.Data.List.Induction
import IntentLoop.Proofs.Auth.Reports
/-!
# Handles to one holder

Whatever is asked of a family can be asked through any of its handles (`Order.Rerouted`). Calls that were
made through different executors are the same once executors are left out of them (`unrouted`), and where
nobody has a reporter an access does not care about executors at all (`step_unrouted`). So two runs of
rerouted orders can be told apart by their reports only (`rerouting_shows_in_reports_only`).

An executor is never changed by others that are made after it, clones of it or not
(`getElem?_makeAll_append`).
-/

namespace IntentLoop.Auth

variable {ε φ α : Type}

/-! ### Executors and their clones -/

theorem makeAll_concat (made : List Making) (m : Making) :
    makeAll (made ++ [m]) = makeAll made ++ [m.executor (makeAll made)] := by
  rw [makeAll, List.foldl_append]
  rfl

theorem length_makeAll (made : List Making) : (makeAll made).length = made.length := by
  induction made using List.reverseRecOn with
  | nil => rfl
  | append_singleton made m ih =>
    rw [makeAll_concat, List.length_append, List.length_append, ih]
    rfl

theorem getElem?_makeAll_append (made more : List Making) {n : Nat} (hn : n < made.length) :
    (makeAll (made ++ more))[n]? = (makeAll made)[n]? := by
  induction more using List.reverseRecOn with
  | nil => rw [List.append_nil]
  | append_singleton more m ih =>
    have hlt : n < (makeAll (made ++ more)).length := by
      rw [length_makeAll, List.length_append]
      omega
    rw [← List.append_assoc, makeAll_concat, List.getElem?_append_left hlt, ih]

/-- The family with these executors. -/
def Family.having (F : Family ε φ) (made : List Making) : Family ε φ :=
  { F with executors := makeAll made }

/-! ### Executors left out -/

def Purpose.unrouted : Purpose → Purpose
  | .token => .token
  | .header _ => .header 0
  | .request _ => .request 0

def Caller.unrouted (c : Caller ε φ α) : Caller ε φ α := { c with purpose := c.purpose.unrouted }

namespace Access

variable {F : Family ε φ}

def unrouted (a : Access ε φ α) : Access ε φ α := { a with callers := a.callers.map Caller.unrouted }

def Act.unrouted : Act ε φ α → Act ε φ α
  | .begin purpose => .begin purpose.unrouted
  | act => act

def Event.unrouted : Event ε φ α → Event ε φ α
  | .began k purpose => .began k purpose.unrouted
  | event => event

/-- What is left of an act, or of a run, when executors are left out. -/
def unroutedAfter (after : Access ε φ α × List (Event ε φ α)) : Access ε φ α × List (Event ε φ α) :=
  (after.1.unrouted, after.2.map Event.unrouted)

section Parts

variable (k : Nat) (stage : Stage ε φ α) (purpose : Purpose) (t : Token) (a : Access ε φ α)

theorem unrouted_getElem? : a.unrouted.callers[k]? = (a.callers[k]?).map Caller.unrouted :=
  List.getElem?_map

theorem unrouted_of_getElem? {k : Nat} {purpose : Purpose} {stage : Stage ε φ α} {a : Access ε φ α}
    (hc : a.callers[k]? = some { purpose, stage }) :
    a.unrouted.callers[k]? = some { purpose := purpose.unrouted, stage } := by
  rw [unrouted_getElem?, hc]
  rfl

theorem of_unrouted_getElem? {k : Nat} {purpose : Purpose} {stage : Stage ε φ α} {a : Access ε φ α}
    (hc : a.unrouted.callers[k]? = some { purpose, stage }) :
    ∃ purpose', a.callers[k]? = some { purpose := purpose', stage } ∧ purpose'.unrouted = purpose := by
  rw [unrouted_getElem?] at hc
  obtain ⟨⟨purpose', stage'⟩, hc', hsame⟩ := Option.map_eq_some_iff.mp hc
  cases hsame
  exact ⟨purpose', hc', rfl⟩

theorem unrouted_stage? : a.unrouted.stage? k = a.stage? k := by
  rw [stage?, unrouted_getElem?, Option.map_map]
  rfl

theorem unrouted_usable : a.unrouted.usable = a.usable := rfl

theorem setStage_unrouted : a.unrouted.setStage k stage = (a.setStage k stage).unrouted := by
  have hcallers : (a.unrouted.setStage k stage).callers = (a.setStage k stage).unrouted.callers := by
    apply List.ext_getElem?
    intro j
    rw [getElem?_setStage, unrouted_getElem?, unrouted_getElem?, getElem?_setStage, Option.map_map,
      Option.map_map]
    refine congrArg (Option.map · _) (funext fun c => ?_)
    dsimp only [Function.comp_apply]
    split <;> rfl
  exact congrArg (fun callers => { a with callers }) hcallers

theorem passTurn_unrouted : a.unrouted.passTurn = a.passTurn.unrouted := by
  have hline : a.unrouted.line = a.line := rfl
  unfold passTurn
  rw [hline]
  cases a.line with
  | nil => rfl
  | cons next rest => exact setStage_unrouted next .granted { a with turn := some next, line := rest }

theorem join_unrouted : a.unrouted.join purpose.unrouted stage = (a.join purpose stage).unrouted := by
  unfold join unrouted
  rw [List.map_append]
  rfl

theorem seekTurn_unrouted : a.unrouted.seekTurn k = (a.seekTurn k).unrouted := by
  have hturn : a.unrouted.turn = a.turn := rfl
  unfold seekTurn
  rw [hturn]
  cases a.turn with
  | none => exact setStage_unrouted k .granted { a with turn := some k }
  | some holder => exact setStage_unrouted k .queued { a with turn := some holder, line := a.line ++ [k] }

theorem stageWith_unrouted : (purpose.unrouted.stageWith t : Stage ε φ α) = purpose.stageWith t := by
  cases purpose <;> rfl

theorem given_unrouted :
    purpose.unrouted.given k t = (purpose.given k t : List (Event ε φ α)).map Event.unrouted := by
  cases purpose <;> rfl

end Parts

/-! ### Acts without executors -/

theorem inspect_unrouted (F : Family ε φ) (k executor executor' : Nat) (text : String) :
    inspect F.mute k executor text =
      (inspect F.mute k executor' text : List (Event ε φ α)).map Event.unrouted := by
  unfold inspect
  split
  · rfl
  · rfl

theorem failure_unrouted (F : Family ε φ) (purpose : Purpose) (e : ε) :
    (purpose.unrouted.failure F e : Result ε φ α) = purpose.failure F e := by
  cases purpose <;> rfl

theorem complaints_unrouted (F : Family ε φ) (purpose : Purpose) (k : Nat) (e : ε) :
    purpose.unrouted.complaints F.mute k e =
      (purpose.complaints F.mute k e : List (Event ε φ α)).map Event.unrouted := by
  cases purpose with
  | token => rfl
  | header executor => exact inspect_unrouted F k 0 executor _
  | request executor => exact inspect_unrouted F k 0 executor _

theorem verdictOn_unrouted (F : Family ε φ) (k executor : Nat) (answer : Except φ α) :
    verdictOn F.mute k 0 answer = (verdictOn F.mute k executor answer).map Event.unrouted := by
  cases answer with
  | ok value => rfl
  | error e => exact inspect_unrouted F k 0 executor _

theorem begin_unrouted (purpose : Purpose) (a : Access ε φ α) :
    a.unrouted.begin purpose.unrouted = unroutedAfter (a.begin purpose) := by
  have hlength : a.unrouted.callers.length = a.callers.length := List.length_map _
  have husable := a.unrouted_usable
  cases hu : a.usable with
  | none =>
    rw [begin_of_unusable purpose hu, begin_of_unusable purpose.unrouted (husable.trans hu), hlength,
      join_unrouted, seekTurn_unrouted]
    rfl
  | some t =>
    rw [begin_of_usable purpose hu, begin_of_usable purpose.unrouted (husable.trans hu), hlength,
      stageWith_unrouted, join_unrouted, given_unrouted]
    rfl

theorem resume_unrouted (k : Nat) (a : Access ε φ α) :
    a.unrouted.resume k = unroutedAfter (a.resume k) := by
  have husable := a.unrouted_usable
  by_cases h : ∃ purpose, a.callers[k]? = some { purpose, stage := .granted }
  · obtain ⟨purpose, hc⟩ := h
    have hc' := unrouted_of_getElem? hc
    cases hu : a.usable with
    | none =>
      rw [resume_of_unusable hc hu, resume_of_unusable hc' (husable.trans hu), setStage_unrouted]
      rfl
    | some t =>
      rw [resume_of_usable hc hu, resume_of_usable hc' (husable.trans hu), passTurn_unrouted,
        setStage_unrouted, stageWith_unrouted, given_unrouted]
      rfl
  · push Not at h
    rw [resume_of_not_granted h, resume_of_not_granted fun purpose hc => ?_]
    · rfl
    · obtain ⟨purpose', hc', -⟩ := of_unrouted_getElem? hc
      exact h purpose' hc'

theorem store_unrouted (epoch : Nat) (t : Token) (a : Access ε φ α) :
    a.unrouted.store epoch t = (a.store epoch t).unrouted := by
  show (if a.epoch = epoch then _ else _) = (if a.epoch = epoch then _ else _ : Access ε φ α).unrouted
  split <;> rfl

theorem fetched_unrouted (F : Family ε φ) (k : Nat) (result : Except ε Token) (a : Access ε φ α) :
    a.unrouted.fetched F.mute k result = unroutedAfter (a.fetched F.mute k result) := by
  by_cases h : ∃ purpose epoch, a.callers[k]? = some { purpose, stage := .fetching epoch }
  · obtain ⟨purpose, epoch, hc⟩ := h
    have hc' := unrouted_of_getElem? hc
    cases result with
    | ok t =>
      rw [fetched_ok _ hc, fetched_ok _ hc', store_unrouted, passTurn_unrouted, setStage_unrouted,
        stageWith_unrouted, given_unrouted]
      rfl
    | error e =>
      rw [fetched_error _ hc, fetched_error _ hc', passTurn_unrouted, setStage_unrouted, failure_unrouted,
        complaints_unrouted, unroutedAfter, List.map_cons, List.map_append]
      rfl
  · push Not at h
    rw [fetched_of_not_fetching _ h, fetched_of_not_fetching _ fun purpose epoch hc => ?_]
    · rfl
    · obtain ⟨purpose', hc', -⟩ := of_unrouted_getElem? hc
      exact h purpose' epoch hc'

theorem answered_unrouted (F : Family ε φ) (k : Nat) (answer : Except φ α) (a : Access ε φ α) :
    a.unrouted.answered F.mute k answer = unroutedAfter (a.answered F.mute k answer) := by
  by_cases h : ∃ executor t,
      a.callers[k]? = some { purpose := .request executor, stage := .requesting t }
  · obtain ⟨executor, t, hc⟩ := h
    rw [answered_of_requesting _ hc, answered_of_requesting _ (unrouted_of_getElem? hc),
      setStage_unrouted, verdictOn_unrouted F k executor, unroutedAfter, List.map_append]
    rfl
  · push Not at h
    rw [answered_of_not_requesting _ h, answered_of_not_requesting _ fun executor t hc => ?_]
    · rfl
    · obtain ⟨purpose, hc', hsame⟩ := of_unrouted_getElem? hc
      cases purpose <;> cases hsame
      exact h _ t hc'

theorem drop_unrouted (k : Nat) (a : Access ε φ α) :
    a.unrouted.drop k = unroutedAfter (a.drop k) := by
  unfold drop
  rw [unrouted_stage?, setStage_unrouted]
  cases a.stage? k with
  | none => rfl
  | some stage =>
    cases stage with
    | granted | fetching =>
      dsimp only
      rw [passTurn_unrouted]
      rfl
    | _ => rfl

/-- **Without reporters an act does just the same without executors.** -/
theorem step_unrouted (F : Family ε φ) (a : Access ε φ α) (act : Act ε φ α) :
    a.unrouted.step F.mute act.unrouted = unroutedAfter (a.step F.mute act) := by
  cases act with
  | begin purpose => exact begin_unrouted purpose a
  | resume k => exact resume_unrouted k a
  | fetched k result => exact fetched_unrouted F k result a
  | answered k answer => exact answered_unrouted F k answer a
  | drop k => exact drop_unrouted k a
  | invalidate | pass => rfl

/-- The history without executors. -/
def unroutedIn (history : List (Timestamp × Event ε φ α)) : List (Timestamp × Event ε φ α) :=
  history.map fun told => (told.1, told.2.unrouted)

theorem runFrom_unrouted (F : Family ε φ) (a : Access ε φ α) (acts : List (Act ε φ α)) :
    a.unrouted.runFrom F.mute (acts.map Act.unrouted) =
      ((a.runFrom F.mute acts).1.unrouted, unroutedIn (a.runFrom F.mute acts).2) := by
  induction acts generalizing a with
  | nil => rfl
  | cons act rest ih =>
    have hclock : a.unrouted.wallClock = a.wallClock := rfl
    rw [List.map_cons, runFrom_cons, runFrom_cons, step_unrouted, hclock]
    dsimp only [unroutedAfter]
    rw [ih, unroutedIn, unroutedIn, List.map_append, List.map_map, List.map_map]
    rfl

/-! ### Rerouted orders -/

open History (seen)

/-- The same is ordered, maybe through another handle. -/
inductive Order.Rerouted : Order ε φ α → Order ε φ α → Prop
  | current (via via' : Handle) : Rerouted (.current via) (.current via')
  | header (executor executor' : Nat) : Rerouted (.header executor) (.header executor')
  | authenticate (executor executor' : Nat) : Rerouted (.authenticate executor) (.authenticate executor')
  | invalidate (via via' : Handle) : Rerouted (.invalidate via) (.invalidate via')
  | proceed (act : Act ε φ α) : Rerouted (.proceed act) (.proceed act)

theorem Order.Rerouted.act_unrouted {order order' : Order ε φ α} (h : order.Rerouted order') :
    order.act.unrouted = order'.act.unrouted := by
  cases h <;> rfl

theorem map_act_unrouted {orders orders' : List (Order ε φ α)}
    (h : List.Forall₂ Order.Rerouted orders orders') :
    (orders.map Order.act).map Act.unrouted = (orders'.map Order.act).map Act.unrouted := by
  induction h with
  | nil => rfl
  | cons hfirst _ ih =>
    simp only [List.map_cons]
    rw [hfirst.act_unrouted, ih]

/-- What somebody comes for by an order. -/
def Order.purpose? (order : Order ε φ α) : Option Purpose := order.act.purpose?

/-- A run of orders, when these executors have been made. -/
def carryOut (F : Family ε φ) (made : List Making) (start : Timestamp) (orders : List (Order ε φ α)) :
    Access ε φ α × List (Timestamp × Event ε φ α) :=
  run (F.having made) start (orders.map Order.act)

theorem filterMap_purpose? (orders : List (Order ε φ α)) :
    (orders.map Order.act).filterMap Act.purpose? = orders.filterMap Order.purpose? :=
  List.filterMap_map

/-- Without reports a run of orders is that of nobody's reporters, executors left out. -/
theorem carryOut_unrouted (F : Family ε φ) (made : List Making) (start : Timestamp)
    (orders : List (Order ε φ α)) :
    run F.mute start ((orders.map Order.act).map Act.unrouted) =
      ((carryOut F made start orders).1.unrouted,
        unroutedIn (quiet (carryOut F made start orders).2)) := by
  have hstate : (carryOut F made start orders).1 = (run F.mute start (orders.map Order.act)).1 := by
    rw [carryOut, run_announced]
    rfl
  have htold : quiet (carryOut F made start orders).2 = (run F.mute start (orders.map Order.act)).2 :=
    quiet_run (F.having made) start (orders.map Order.act)
  rw [hstate, htold]
  exact runFrom_unrouted F (new start) (orders.map Order.act)

/-- Orders do not notice executors that are made besides those through which they go, whatever is ordered
of these later. -/
theorem carryOut_append (F : Family ε φ) (made more : List Making) (start : Timestamp)
    {orders : List (Order ε φ α)}
    (h : ∀ purpose ∈ orders.filterMap Order.purpose?, ∀ n, purpose.executor? = some n → n < made.length)
    (later : List (Order ε φ α)) :
    carryOut F (made ++ more) start (orders ++ later) =
      (((carryOut F made start orders).1.runFrom (F.having (made ++ more)) (later.map Order.act)).1,
        (carryOut F made start orders).2 ++
          ((carryOut F made start orders).1.runFrom (F.having (made ++ more))
            (later.map Order.act)).2) := by
  have hmute : (F.having (made ++ more)).mute = (F.having made).mute := rfl
  have hreporters : ∀ purpose ∈ (orders.map Order.act).filterMap Act.purpose?,
      (F.having (made ++ more)).reporterFor purpose = (F.having made).reporterFor purpose := by
    rw [filterMap_purpose?]
    intro purpose hmem
    unfold Family.reporterFor
    cases hn : purpose.executor? with
    | none => rfl
    | some n =>
      exact congrArg (·.bind Executor.reporter) (getElem?_makeAll_append made more (h _ hmem n hn))
  rw [carryOut, List.map_append, run_append, run_congr hmute start _ hreporters]
  rfl

/-- **Through which handle something is ordered shows in reports only.** Two runs of the same orders,
each with its own executors and its own choice among them and the holder, lead to the same state and tell
the same at the same instants, but for the executors and the reports. In both, every report stands behind
what told of blocking, and goes to the reporter of the executor that the call went through, if it has one.
And executors that are made besides, clones with reporters among them, change neither an executor that was
there before nor anything told of orders that go through those, whatever is ordered later. -/
theorem rerouting_shows_in_reports_only (F : Family ε φ) (made made' : List Making) (start : Timestamp)
    {orders orders' : List (Order ε φ α)} (h : List.Forall₂ Order.Rerouted orders orders') :
    let here := carryOut F made start orders
    let there := carryOut F made' start orders'
    (here.1.unrouted = there.1.unrouted ∧ unroutedIn (quiet here.2) = unroutedIn (quiet there.2)) ∧
    here.2 = (quiet here.2).flatMap (announceAt (F.having made) (orders.filterMap Order.purpose?)) ∧
    there.2 = (quiet there.2).flatMap (announceAt (F.having made') (orders'.filterMap Order.purpose?)) ∧
    ∀ more,
      (∀ n, n < made.length → (makeAll (made ++ more))[n]? = (makeAll made)[n]?) ∧
      ((∀ purpose ∈ orders.filterMap Order.purpose?, ∀ n, purpose.executor? = some n → n < made.length) →
        ∀ later, carryOut F (made ++ more) start (orders ++ later) =
          ((here.1.runFrom (F.having (made ++ more)) (later.map Order.act)).1,
            here.2 ++ (here.1.runFrom (F.having (made ++ more)) (later.map Order.act)).2)) := by
  intro here there
  have hsame : (here.1.unrouted, unroutedIn (quiet here.2)) =
      (there.1.unrouted, unroutedIn (quiet there.2)) := by
    rw [← carryOut_unrouted, ← carryOut_unrouted, map_act_unrouted h]
  obtain ⟨hstate, htold⟩ := Prod.mk.inj hsame
  refine ⟨⟨hstate, htold⟩, ?_, ?_, fun more => ⟨fun n hn => getElem?_makeAll_append made more hn, ?_⟩⟩
  · rw [← filterMap_purpose?]
    exact run_eq_announced _ start _
  · rw [← filterMap_purpose?]
    exact run_eq_announced _ start _
  · exact carryOut_append F made more start

/-- A caller fetches a token, the next one makes a request with it and is refused, and the token is
forgotten, all by way of one executor, or of another handle where there is a choice. -/
def refusedVia (executor : Nat) (via : Handle) : List (Order String String Unit) :=
  [.current via, .proceed (.resume 0), .proceed (.fetched 0 (.ok { secret := "abc" })),
    .authenticate executor, .proceed (.answered 1 (.error "403: Blocked_Ip")), .invalidate via]

/-- A clone that was given a reporter reports where the executor that it was made from does not, and that
is all the difference. -/
theorem clone_reports_alone :
    let plain := carryOut watched [{}] { secs := 0 } (refusedVia 0 .holder)
    let cloned := carryOut watched [{}, { clone := some 0, reporter := some (.sink "ops") }]
      { secs := 0 } (refusedVia 1 (.executor 1))
    unroutedIn (quiet plain.2) = unroutedIn (quiet cloned.2) ∧
      reportsOf 1 (seen plain.2) = [] ∧
      reportsOf 1 (seen cloned.2) =
        [(.sink "ops", "auth", "Request blocked by IP: 403: Blocked_Ip")] := by
  have hrerouted : List.Forall₂ Order.Rerouted (refusedVia 0 .holder) (refusedVia 1 (.executor 1)) :=
    .cons (.current _ _) (.cons (.proceed _) (.cons (.proceed _) (.cons (.authenticate 0 1)
      (.cons (.proceed _) (.cons (.invalidate _ _) .nil)))))
  obtain ⟨⟨-, hsame⟩, -⟩ := rerouting_shows_in_reports_only watched [{}]
    [{}, { clone := some 0, reporter := some (.sink "ops") }] { secs := 0 } hrerouted
  exact ⟨hsame, by decide, by decide⟩

end Access

end IntentLoop.Auth
