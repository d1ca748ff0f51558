import IntentLoop.Auth.Executors
import IntentLoop.Proofs.Auth.Story
/-!
# Reports only tell

A family without reporters does all that a family with reporters does: the run of the one is the run of
the other, and behind everything told of blocking stands the report that it leads to, if the executor of
the call has a reporter (`run_announced`). So reports can be left out of a history and be put in again
(`run_eq_announced`), and it is known to whom each of them goes before the run.
-/

namespace IntentLoop.Auth

variable {ε φ α : Type}

/-- The executor through which a caller goes. -/
def Purpose.executor? : Purpose → Option Nat
  | .token => none
  | .header executor | .request executor => some executor

namespace Family

/-- The family without its executors, so that nobody has a reporter. -/
def mute (F : Family ε φ) : Family ε φ := { F with executors := [] }

/-- The reporter of the executor through which a caller goes. -/
def reporterFor (F : Family ε φ) (purpose : Purpose) : Option Reporter :=
  (purpose.executor?.bind (F.executors[·]?)).bind Executor.reporter

end Family

namespace Access

variable {F : Family ε φ} {a b : Access ε φ α} {events : List (Event ε φ α)} {k : Nat}
  {purpose : Purpose} {all : List Purpose}

/-! ### What callers came for -/

def Act.purpose? : Act ε φ α → Option Purpose
  | .begin purpose => some purpose
  | _ => none

/-- What all callers came for. -/
def purposes (a : Access ε φ α) : List Purpose := a.callers.map Caller.purpose

theorem purposes_setStage (k : Nat) (stage : Stage ε φ α) (a : Access ε φ α) :
    (a.setStage k stage).purposes = a.purposes := by
  apply List.ext_getElem?
  intro j
  rw [purposes, purposes, List.getElem?_map, List.getElem?_map, getElem?_setStage, Option.map_map]
  refine congrArg (Option.map · _) (funext fun c => ?_)
  dsimp only [Function.comp_apply]
  split <;> rfl

theorem purposes_passTurn (a : Access ε φ α) : a.passTurn.purposes = a.purposes := by
  apply List.ext_getElem?
  intro j
  rw [purposes, purposes, List.getElem?_map, List.getElem?_map]
  exact a.purpose_passTurn j

theorem purposes_join (purpose : Purpose) (stage : Stage ε φ α) (a : Access ε φ α) :
    (a.join purpose stage).purposes = a.purposes ++ [purpose] := List.map_append

theorem purposes_seekTurn (k : Nat) (a : Access ε φ α) : (a.seekTurn k).purposes = a.purposes := by
  unfold seekTurn
  split <;> exact purposes_setStage k _ _

theorem purposes_begin (purpose : Purpose) (a : Access ε φ α) :
    (a.begin purpose).1.purposes = a.purposes ++ [purpose] := by
  cases hu : a.usable with
  | none => rw [begin_of_unusable purpose hu, purposes_seekTurn, purposes_join]
  | some t => rw [begin_of_usable purpose hu, purposes_join]

theorem purposes_resume (k : Nat) (a : Access ε φ α) : (a.resume k).1.purposes = a.purposes := by
  by_cases h : ∃ purpose, a.callers[k]? = some { purpose, stage := .granted }
  · obtain ⟨purpose, hc⟩ := h
    cases hu : a.usable with
    | none => rw [resume_of_unusable hc hu, purposes_setStage]
    | some t => rw [resume_of_usable hc hu, purposes_setStage, purposes_passTurn]
  · push Not at h
    rw [resume_of_not_granted h]

theorem purposes_fetched (F : Family ε φ) (k : Nat) (result : Except ε Token) (a : Access ε φ α) :
    (a.fetched F k result).1.purposes = a.purposes := by
  by_cases h : ∃ purpose epoch, a.callers[k]? = some { purpose, stage := .fetching epoch }
  · obtain ⟨purpose, epoch, hc⟩ := h
    cases result with
    | ok t =>
      rw [fetched_ok F hc, purposes_setStage, purposes_passTurn, purposes, store_callers, purposes]
    | error e => rw [fetched_error F hc, purposes_setStage, purposes_passTurn]
  · push Not at h
    rw [fetched_of_not_fetching F h]

theorem purposes_answered (F : Family ε φ) (k : Nat) (answer : Except φ α) (a : Access ε φ α) :
    (a.answered F k answer).1.purposes = a.purposes := by
  by_cases h : ∃ executor t,
      a.callers[k]? = some { purpose := .request executor, stage := .requesting t }
  · obtain ⟨executor, t, hc⟩ := h
    rw [answered_of_requesting F hc, purposes_setStage]
  · push Not at h
    rw [answered_of_not_requesting F h]

theorem purposes_drop (k : Nat) (a : Access ε φ α) : (a.drop k).1.purposes = a.purposes := by
  have hgone := purposes_setStage k .dropped a
  unfold drop
  split
  · exact hgone
  · rw [purposes_passTurn, hgone]
  · rw [purposes_passTurn, hgone]
  · exact hgone
  · rfl

/-- **Callers are numbered as they come**, and none of them changes what it came for. -/
theorem purposes_step (F : Family ε φ) (a : Access ε φ α) (act : Act ε φ α) :
    (a.step F act).1.purposes = a.purposes ++ act.purpose?.toList := by
  cases act with
  | begin purpose => exact purposes_begin purpose a
  | resume k => exact (purposes_resume k a).trans (List.append_nil _).symm
  | fetched k result => exact (purposes_fetched F k result a).trans (List.append_nil _).symm
  | answered k answer => exact (purposes_answered F k answer a).trans (List.append_nil _).symm
  | drop k => exact (purposes_drop k a).trans (List.append_nil _).symm
  | invalidate | pass => exact (List.append_nil a.purposes).symm

theorem purpose_among {c : Caller ε φ α} (h : a.purposes <+: all) (hc : a.callers[k]? = some c) :
    all[k]? = some c.purpose := by
  obtain ⟨rest, rfl⟩ := h
  have hk : a.purposes[k]? = some c.purpose := by
    rw [purposes, List.getElem?_map, hc]
    rfl
  rw [List.getElem?_append_left (List.getElem?_eq_some_iff.mp hk).1, hk]

/-! ### Reports put in -/

/-- Whatever is told, and behind blocking the report to the executor of the call, when callers came for
these purposes. -/
def announce (F : Family ε φ) (all : List Purpose) : Event ε φ α → List (Event ε φ α)
  | .blocked k text => .blocked k text ::
      ((all[k]?.bind F.reporterFor).map fun r =>
        .reported k r "auth" ("Request blocked by IP: " ++ text)).toList
  | event => [event]

theorem inspect_announced (F : Family ε φ) {executor : Nat} (hk : all[k]? = some purpose)
    (hp : purpose.executor? = some executor) (text : String) :
    (inspect F.mute k executor text).flatMap (announce F all) =
      (inspect F k executor text : List (Event ε φ α)) := by
  have hreporter : all[k]?.bind F.reporterFor =
      (F.executors[executor]?).bind Executor.reporter := by
    rw [hk, Option.bind_some, Family.reporterFor, hp, Option.bind_some]
  unfold inspect
  by_cases h : speaksOfBlocking text = true
  · rw [if_pos h, if_pos h]
    have hmute : F.mute.executors[executor]? = none := rfl
    rw [hmute]
    dsimp only
    rw [List.flatMap_singleton, announce, hreporter]
    cases F.executors[executor]? with
    | none => rfl
    | some x =>
      obtain ⟨reporter⟩ := x
      cases reporter <;> rfl
  · rw [if_neg h, if_neg h]
    rfl

theorem complaints_announced (F : Family ε φ) (hk : all[k]? = some purpose) (e : ε) :
    (purpose.complaints F.mute k e).flatMap (announce F all) =
      (purpose.complaints F k e : List (Event ε φ α)) := by
  cases purpose with
  | token => rfl
  | header executor => exact inspect_announced F hk rfl _
  | request executor => exact inspect_announced F hk rfl _

theorem verdictOn_announced (F : Family ε φ) {executor : Nat} (hk : all[k]? = some (.request executor))
    (answer : Except φ α) :
    (verdictOn F.mute k executor answer).flatMap (announce F all) = verdictOn F k executor answer := by
  cases answer with
  | ok value => rfl
  | error e => exact inspect_announced F hk rfl _

theorem given_announced (F : Family ε φ) (purpose : Purpose) (k : Nat) (t : Token) :
    (purpose.given k t).flatMap (announce F all) = (purpose.given k t : List (Event ε φ α)) := by
  cases purpose <;> rfl

theorem begin_announced (F : Family ε φ) (all : List Purpose) (purpose : Purpose) (a : Access ε φ α) :
    (a.begin purpose).2.flatMap (announce F all) = (a.begin purpose).2 := by
  cases hu : a.usable with
  | none =>
    rw [begin_of_unusable purpose hu]
    rfl
  | some t =>
    rw [begin_of_usable purpose hu, List.flatMap_cons, List.flatMap_cons, given_announced]
    rfl

theorem resume_announced (F : Family ε φ) (all : List Purpose) (k : Nat) (a : Access ε φ α) :
    (a.resume k).2.flatMap (announce F all) = (a.resume k).2 := by
  by_cases h : ∃ purpose, a.callers[k]? = some { purpose, stage := .granted }
  · obtain ⟨purpose, hc⟩ := h
    cases hu : a.usable with
    | none =>
      rw [resume_of_unusable hc hu]
      rfl
    | some t =>
      rw [resume_of_usable hc hu, List.flatMap_cons, given_announced]
      rfl
  · push Not at h
    rw [resume_of_not_granted h]
    rfl

theorem fetched_announced (F : Family ε φ) (h : a.purposes <+: all) (k : Nat)
    (result : Except ε Token) :
    a.fetched F k result =
      ((a.fetched F.mute k result).1, (a.fetched F.mute k result).2.flatMap (announce F all)) := by
  by_cases hfetches : ∃ purpose epoch, a.callers[k]? = some { purpose, stage := .fetching epoch }
  · obtain ⟨purpose, epoch, hc⟩ := hfetches
    cases result with
    | ok t =>
      rw [fetched_ok F hc, fetched_ok F.mute hc, List.flatMap_cons, List.flatMap_cons, given_announced]
      rfl
    | error e =>
      rw [fetched_error F hc, fetched_error F.mute hc, List.flatMap_cons, List.flatMap_append,
        complaints_announced F (purpose_among h hc)]
      rfl
  · push Not at hfetches
    rw [fetched_of_not_fetching F hfetches, fetched_of_not_fetching F.mute hfetches]
    rfl

theorem answered_announced (F : Family ε φ) (h : a.purposes <+: all) (k : Nat)
    (answer : Except φ α) :
    a.answered F k answer =
      ((a.answered F.mute k answer).1, (a.answered F.mute k answer).2.flatMap (announce F all)) := by
  by_cases hwaits : ∃ executor t,
      a.callers[k]? = some { purpose := .request executor, stage := .requesting t }
  · obtain ⟨executor, t, hc⟩ := hwaits
    rw [answered_of_requesting F hc, answered_of_requesting F.mute hc, List.flatMap_append,
      verdictOn_announced F (purpose_among h hc)]
    rfl
  · push Not at hwaits
    rw [answered_of_not_requesting F hwaits, answered_of_not_requesting F.mute hwaits]
    rfl

theorem drop_announced (F : Family ε φ) (all : List Purpose) (k : Nat) (a : Access ε φ α) :
    (a.drop k).2.flatMap (announce F all) = (a.drop k).2 := by
  unfold drop
  split <;> rfl

/-- **An act does the same without reporters**, and tells the same but for the reports. -/
theorem step_announced (F : Family ε φ) (h : a.purposes <+: all) (act : Act ε φ α) :
    a.step F act = ((a.step F.mute act).1, (a.step F.mute act).2.flatMap (announce F all)) := by
  cases act with
  | begin purpose => exact Prod.ext rfl (begin_announced F all purpose a).symm
  | resume k => exact Prod.ext rfl (resume_announced F all k a).symm
  | fetched k result => exact fetched_announced F h k result
  | answered k answer => exact answered_announced F h k answer
  | drop k => exact Prod.ext rfl (drop_announced F all k a).symm
  | invalidate | pass => rfl

/-- The same for what is told with its instant. -/
def announceAt (F : Family ε φ) (all : List Purpose) (told : Timestamp × Event ε φ α) :
    List (Timestamp × Event ε φ α) := (announce F all told.2).map (told.1, ·)

theorem flatMap_announceAt (F : Family ε φ) (all : List Purpose) (time : Timestamp)
    (events : List (Event ε φ α)) :
    (events.map (time, ·)).flatMap (announceAt F all) =
      (events.flatMap (announce F all)).map (time, ·) := by
  rw [List.flatMap_map, List.map_flatMap]
  rfl

theorem runFrom_cons (F : Family ε φ) (a : Access ε φ α) (act : Act ε φ α) (rest : List (Act ε φ α)) :
    a.runFrom F (act :: rest) = (((a.step F act).1.runFrom F rest).1,
      (a.step F act).2.map (a.wallClock, ·) ++ ((a.step F act).1.runFrom F rest).2) :=
  History.after_cons (History.stamped (step F) Access.wallClock) a act rest

theorem runFrom_announced (F : Family ε φ) (a : Access ε φ α) (acts : List (Act ε φ α))
    (h : a.purposes ++ acts.filterMap Act.purpose? <+: all) :
    a.runFrom F acts =
      ((a.runFrom F.mute acts).1, (a.runFrom F.mute acts).2.flatMap (announceAt F all)) := by
  induction acts generalizing a with
  | nil => rfl
  | cons act rest ih =>
    have hnow : a.purposes <+: all := (List.prefix_append _ _).trans h
    have hlater : (a.step F.mute act).1.purposes ++ rest.filterMap Act.purpose? <+: all := by
      rw [purposes_step, List.append_assoc]
      cases act <;> exact h
    rw [runFrom_cons, runFrom_cons, step_announced F hnow]
    dsimp only
    rw [ih _ hlater, List.flatMap_append, flatMap_announceAt]

/-- **A run does the same without reporters**, and tells the same but for the reports. -/
theorem run_announced (F : Family ε φ) (start : Timestamp) (acts : List (Act ε φ α)) :
    run F start acts = ((run F.mute start acts).1,
      (run F.mute start acts).2.flatMap (announceAt F (acts.filterMap Act.purpose?))) :=
  runFrom_announced F (new start) acts (List.prefix_refl _)

/-! ### Reports left out -/

def Event.isReport : Event ε φ α → Bool
  | .reported _ _ _ _ => true
  | _ => false

/-- The history without reports. -/
def quiet (history : List (Timestamp × Event ε φ α)) : List (Timestamp × Event ε φ α) :=
  history.filter (!·.2.isReport)

theorem quiet_append (past later : List (Timestamp × Event ε φ α)) :
    quiet (past ++ later) = quiet past ++ quiet later := List.filter_append past later

theorem quiet_announceAt (F : Family ε φ) (all : List Purpose) (told : Timestamp × Event ε φ α) :
    quiet (announceAt F all told) = quiet [told] := by
  obtain ⟨time, event⟩ := told
  cases event with
  | blocked k text =>
    show quiet ((time, .blocked k text) :: _) = _
    cases all[k]?.bind F.reporterFor <;> rfl
  | _ => rfl

theorem quiet_flatMap (F : Family ε φ) (all : List Purpose) (history : List (Timestamp × Event ε φ α)) :
    quiet (history.flatMap (announceAt F all)) = quiet history := by
  induction history with
  | nil => rfl
  | cons told rest ih =>
    rw [List.flatMap_cons, quiet_append, quiet_announceAt, ih, ← quiet_append]
    rfl

/-- No event is a report. -/
def Unreported (events : List (Event ε φ α)) : Prop := ∀ event ∈ events, event.isReport = false

namespace Unreported

theorem nil : Unreported ([] : List (Event ε φ α)) := fun _ hmem => absurd hmem List.not_mem_nil

theorem cons {event : Event ε φ α} (hevent : event.isReport = false) (h : Unreported events) :
    Unreported (event :: events) := List.forall_mem_cons.mpr ⟨hevent, h⟩

theorem append {more : List (Event ε φ α)} (h : Unreported events) (hm : Unreported more) :
    Unreported (events ++ more) := List.forall_mem_append.mpr ⟨h, hm⟩

theorem given (purpose : Purpose) (k : Nat) (t : Token) :
    Unreported (purpose.given k t : List (Event ε φ α)) := by
  cases purpose <;> exact cons rfl nil

theorem inspect (F : Family ε φ) (k executor : Nat) (text : String) :
    Unreported (inspect F.mute k executor text : List (Event ε φ α)) := by
  unfold Access.inspect
  split
  · exact cons rfl nil
  · exact nil

theorem complaints (F : Family ε φ) (purpose : Purpose) (k : Nat) (e : ε) :
    Unreported (purpose.complaints F.mute k e : List (Event ε φ α)) := by
  cases purpose with
  | token => exact nil
  | header executor => exact inspect F k executor _
  | request executor => exact inspect F k executor _

theorem verdictOn (F : Family ε φ) (k executor : Nat) (answer : Except φ α) :
    Unreported (verdictOn F.mute k executor answer) := by
  cases answer with
  | ok value => exact nil
  | error e => exact inspect F k executor _

theorem move (m : Move F.mute a b events) : Unreported events := by
  cases m with
  | served purpose t _ => exact cons rfl (cons rfl (given purpose _ t))
  | found k purpose t _ _ => exact cons rfl (given purpose k t)
  | fetched k _ purpose t _ => exact cons rfl (cons rfl (given purpose k t))
  | failed k _ purpose e _ => exact cons rfl ((complaints F purpose k e).append (cons rfl nil))
  | answered k executor _ answer _ => exact (verdictOn F k executor answer).append (cons rfl nil)
  | passed => exact nil
  | admitted | queued | fetch | left | yielded | abandoned | invalidated => exact cons rfl nil

end Unreported

theorem quiet_run_mute (F : Family ε φ) (start : Timestamp) (acts : List (Act ε φ α)) :
    quiet (run F.mute start acts).2 = (run F.mute start acts).2 := by
  have hnone : ∀ told ∈ (run F.mute start acts).2, told.2.isReport = false := by
    refine runFrom_induct (P := fun _ past => ∀ told ∈ past, told.2.isReport = false) nofun ?_ acts
    intro a past b events h m
    refine List.forall_mem_append.mpr ⟨h, ?_⟩
    intro told hmem
    obtain ⟨event, hevent, rfl⟩ := List.mem_map.mp hmem
    exact Unreported.move m event hevent
  apply List.filter_eq_self.mpr
  intro told hmem
  rw [hnone told hmem]
  rfl

/-- The history without reports is that of the family without reporters. -/
theorem quiet_run (F : Family ε φ) (start : Timestamp) (acts : List (Act ε φ α)) :
    quiet (run F start acts).2 = (run F.mute start acts).2 := by
  rw [run_announced, quiet_flatMap, quiet_run_mute]

/-- **Reports stand behind what they report**, and go to the executor of the call. -/
theorem run_eq_announced (F : Family ε φ) (start : Timestamp) (acts : List (Act ε φ α)) :
    (run F start acts).2 =
      (quiet (run F start acts).2).flatMap (announceAt F (acts.filterMap Act.purpose?)) := by
  rw [quiet_run, run_announced]

/-- A run depends on those executors only through which somebody goes. -/
theorem run_congr {F' : Family ε φ} (hmute : F.mute = F'.mute) (start : Timestamp)
    (acts : List (Act ε φ α))
    (h : ∀ purpose ∈ acts.filterMap Act.purpose?, F.reporterFor purpose = F'.reporterFor purpose) :
    run F start acts = run F' start acts := by
  generalize hall : acts.filterMap Act.purpose? = all at h
  have hsame : ∀ k : Nat, all[k]?.bind F.reporterFor = all[k]?.bind F'.reporterFor := by
    intro k
    cases hk : all[k]? with
    | none => rfl
    | some purpose => exact h purpose (List.mem_of_getElem? hk)
  have hannounce : ∀ event : Event ε φ α, announce F all event = announce F' all event := by
    intro event
    cases event with
    | blocked k text => rw [announce, announce, hsame]
    | _ => rfl
  have hannounceAt : announceAt (α := α) F all = announceAt F' all := by
    funext told
    rw [announceAt, announceAt, hannounce]
  rw [run_announced F, run_announced F', hmute, hall, hannounceAt]

end Access

end IntentLoop.Auth
