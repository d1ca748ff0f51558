import IntentLoop.Proofs.Auth.Acts
import IntentLoop.Proofs.Auth.Marker
import IntentLoop.Proofs.Auth.Sources
/-!
# The story of a call

What has been told of a caller is settled by where it stands: that it came, if it waits for its turn;
that it began a fetch, if it has not gone further; and so on, up to its result, and a report if the
result calls for one. `Story` lists those histories, and every caller of every run has one
(`told_run`). Whatever is to be said of a call as a whole is read off its story: how often it made its
request and with which token, what it returned, and what was reported of it.
-/

namespace IntentLoop.Auth

/-- What a caller has returned at this stage. -/
def Stage.result? {ε φ α : Type} : Stage ε φ α → Option (Result ε φ α)
  | returned result => some result
  | _ => none

namespace Access

variable {ε φ α : Type} {F : Family ε φ} {a b c : Access ε φ α} {past events : List (Event ε φ α)}
  {k executor : Nat} {purpose : Purpose} {stage : Stage ε φ α} {told : List (Event ε φ α)}

/-! ### What is told of a caller -/

/-- The caller that the event is about. -/
def Event.caller? : Event ε φ α → Option Nat
  | .began k _ | .fetch k | .fetched k _ | .obtained k _ | .requested k _ | .blocked k _
  | .reported k _ _ _ | .returned k _ | .dropped k => some k
  | .invalidated => none

/-- All that was told of a caller. -/
def about (k : Nat) (past : List (Event ε φ α)) : List (Event ε φ α) :=
  past.filter (·.caller? = some k)

theorem about_append (k : Nat) (past later : List (Event ε φ α)) :
    about k (past ++ later) = about k past ++ about k later := List.filter_append past later

/-- The events are about one caller. -/
def Concerning (k : Nat) (events : List (Event ε φ α)) : Prop :=
  ∀ event ∈ events, event.caller? = some k

namespace Concerning

theorem append {more : List (Event ε φ α)} (h : Concerning k events) (hm : Concerning k more) :
    Concerning k (events ++ more) := List.forall_mem_append.mpr ⟨h, hm⟩

theorem cons {event : Event ε φ α} (hevent : event.caller? = some k) (h : Concerning k events) :
    Concerning k (event :: events) := List.forall_mem_cons.mpr ⟨hevent, h⟩

theorem about_self (h : Concerning k events) : about k events = events :=
  List.filter_eq_self.mpr fun event hmem => decide_eq_true (h event hmem)

theorem about_other (h : Concerning k events) {j : Nat} (hj : j ≠ k) : about j events = [] := by
  apply List.filter_eq_nil_iff.mpr
  intro event hmem hevent
  have hsome := of_decide_eq_true hevent
  rw [h event hmem] at hsome
  exact hj (Option.some.inj hsome).symm

theorem given (purpose : Purpose) (k : Nat) (t : Token) :
    Concerning k (purpose.given k t : List (Event ε φ α)) := by
  cases purpose <;> exact cons rfl nofun

theorem complaints (F : Family ε φ) (purpose : Purpose) (k : Nat) (e : ε) :
    Concerning k (purpose.complaints F k e : List (Event ε φ α)) :=
  forall_complaints (fun _ => rfl) (fun _ _ _ => rfl) F purpose e

theorem verdictOn (F : Family ε φ) (k executor : Nat) (answer : Except φ α) :
    Concerning k (Auth.verdictOn F k executor answer : List (Event ε φ α)) :=
  forall_verdictOn (fun _ => rfl) (fun _ _ _ => rfl) F executor answer

end Concerning

/-! ### Stories -/

/-- A caller has come to a token: it was there, or the caller fetched it. -/
inductive Opening (k : Nat) (purpose : Purpose) (t : Token) : List (Event ε φ α) → Prop
  | found : Opening k purpose t [.began k purpose]
  | fetched : Opening k purpose t [.began k purpose, .fetch k, .fetched k (.ok t)]

/-- All that has been told of a caller that stands at this stage. -/
inductive Story (F : Family ε φ) (k : Nat) (purpose : Purpose) :
    Stage ε φ α → List (Event ε φ α) → Prop
  | queued : Story F k purpose .queued [.began k purpose]
  | granted : Story F k purpose .granted [.began k purpose]
  | fetching (epoch : Nat) : Story F k purpose (.fetching epoch) [.began k purpose, .fetch k]
  | given {stage : Stage ε φ α} (t : Token) (opening : List (Event ε φ α))
      (h : Opening k purpose t opening) (hs : stage = purpose.stageWith t) :
      Story F k purpose stage (opening ++ .obtained k t :: purpose.given k t)
  | failed (e : ε) :
      Story F k purpose (.returned (purpose.failure F e))
        ([.began k purpose, .fetch k, .fetched k (.error e)] ++
          (purpose.complaints F k e ++ [.returned k (purpose.failure F e)]))
  | answered (executor : Nat) (t : Token) (opening : List (Event ε φ α)) (result : Except φ α)
      (hp : purpose = .request executor) (h : Opening k purpose t opening) :
      Story F k purpose (.returned (.request result))
        (opening ++ [.obtained k t, .requested k t] ++
          (verdictOn F k executor result ++ [.returned k (.request result)]))
  | dropped (stage : Stage ε φ α) (told : List (Event ε φ α)) (h : Story F k purpose stage told)
      (hs : stage.isUnderWay = true) : Story F k purpose .dropped (told ++ [.dropped k])

namespace Story

theorem eq_of_granted (h : Story F k purpose (.granted : Stage ε φ α) told) :
    told = [.began k purpose] := by
  cases h with
  | granted => rfl
  | given t opening _ hs => cases purpose <;> cases hs

theorem eq_of_queued (h : Story F k purpose (.queued : Stage ε φ α) told) :
    told = [.began k purpose] := by
  cases h with
  | queued => rfl
  | given t opening _ hs => cases purpose <;> cases hs

theorem eq_of_fetching {epoch : Nat} (h : Story F k purpose (.fetching epoch : Stage ε φ α) told) :
    told = [.began k purpose, .fetch k] := by
  cases h with
  | fetching => rfl
  | given t opening _ hs => cases purpose <;> cases hs

theorem eq_of_requesting {t : Token}
    (h : Story F k (.request executor) (.requesting t : Stage ε φ α) told) :
    ∃ opening, Opening k (.request executor) t opening ∧
      told = opening ++ [.obtained k t, .requested k t] := by
  cases h with
  | given t opening h hs =>
    cases hs
    exact ⟨opening, h, rfl⟩

end Story

/-! ### Moves -/

/-- The other callers are where they were, or have been given the turn. -/
def Elsewhere (a b : Access ε φ α) (k : Nat) : Prop :=
  ∀ j, j ≠ k → b.callers[j]? = a.callers[j]? ∨ ∃ purpose,
    a.callers[j]? = some { purpose, stage := .queued } ∧
      b.callers[j]? = some { purpose, stage := .granted }

namespace Elsewhere

theorem trans (h : Elsewhere a b k) (h' : Elsewhere b c k) : Elsewhere a c k := by
  intro j hj
  rcases h j hj with hsame | ⟨purpose, hbefore, hafter⟩
  · rw [← hsame]
    exact h' j hj
  · rcases h' j hj with hsame' | ⟨_, hqueued, -⟩
    · exact Or.inr ⟨purpose, hbefore, hsame'.trans hafter⟩
    · rw [hafter] at hqueued
      cases hqueued

theorem setStage (k : Nat) (stage : Stage ε φ α) (a : Access ε φ α) :
    Elsewhere a (a.setStage k stage) k := by
  intro j hj
  rw [getElem?_setStage]
  simp [hj]

theorem join (purpose : Purpose) (stage : Stage ε φ α) (a : Access ε φ α) :
    Elsewhere a (a.join purpose stage) a.callers.length := by
  intro j hj
  left
  show (a.callers ++ [_])[j]? = _
  rw [getElem?_append_singleton, if_neg hj]

theorem passTurn (h : ∀ next, a.line.head? = some next → a.stage? next = some .queued) (k : Nat) :
    Elsewhere a a.passTurn k := by
  intro j _
  unfold Access.passTurn
  cases hl : a.line with
  | nil => exact Or.inl rfl
  | cons next rest =>
    dsimp only
    rw [getElem?_setStage]
    by_cases hj : j = next
    · obtain ⟨c, hc, hstage⟩ := Option.map_eq_some_iff.mp (h next (by rw [hl]; rfl))
      refine Or.inr ⟨c.purpose, ?_, ?_⟩
      · rw [hj, hc, ← hstage]
      · show (a.callers[j]?).map _ = _
        rw [hj, hc]
        simp
    · simp [hj]

theorem passedOn (h : Orderly a) (k : Nat) (stage : Stage ε φ α) :
    Elsewhere a (a.passTurn.setStage k stage) k := by
  apply (Elsewhere.passTurn ?_ k).trans (.setStage k stage _)
  intro next hhead
  exact (h.line next).mp (List.mem_of_head? hhead)

end Elsewhere

/-- Every caller has its story, and nothing was told of anybody who has not come. -/
structure Told (F : Family ε φ) (a : Access ε φ α) (past : List (Event ε φ α)) : Prop where
  story : ∀ k c, a.callers[k]? = some c → Story F k c.purpose c.stage (about k past)
  unborn : ∀ k, a.callers[k]? = none → about k past = []

namespace Told

theorem new (F : Family ε φ) (start : Timestamp) : Told F (new start : Access ε φ α) [] where
  story _ _ hc := by cases hc
  unborn _ _ := rfl

theorem advance (h : Told F a past) (hc : b.callers[k]? = some { purpose, stage })
    (hstory : Story F k purpose stage (about k past ++ events)) (hown : Concerning k events)
    (helse : Elsewhere a b k) : Told F b (past ++ events) where
  story j c hj := by
    rw [about_append]
    by_cases heq : j = k
    · subst heq
      obtain rfl := Option.some.inj (hc.symm.trans hj)
      rw [hown.about_self]
      exact hstory
    · rw [hown.about_other heq, List.append_nil]
      rcases helse j heq with hsame | ⟨p, hbefore, hafter⟩
      · exact h.story j c (hsame ▸ hj)
      · obtain rfl := Option.some.inj (hafter.symm.trans hj)
        rw [(h.story j _ hbefore).eq_of_queued]
        exact .granted
  unborn j hj := by
    have heq : j ≠ k := by
      rintro rfl
      rw [hc] at hj
      cases hj
    rw [about_append, hown.about_other heq, List.append_nil]
    rcases helse j heq with hsame | ⟨p, -, hafter⟩
    · exact h.unborn j (hsame ▸ hj)
    · rw [hafter] at hj
      cases hj

theorem comes (h : Told F a past) (hb : b.callers = (a.join purpose stage).callers)
    (hstory : Story F a.callers.length purpose stage events)
    (hown : Concerning a.callers.length events) : Told F b (past ++ events) := by
  have hnone : about a.callers.length past = [] :=
    h.unborn _ (List.getElem?_eq_none (Nat.le_refl _))
  refine h.advance (k := a.callers.length) ?_ (by rw [hnone]; exact hstory) hown ?_
  · rw [hb]
    exact List.getElem?_concat_length
  · intro j hj
    rw [hb]
    exact Elsewhere.join purpose stage a j hj

theorem aside (h : Told F a past) (hb : b.callers = a.callers)
    (hnone : ∀ event ∈ events, event.caller? = none) : Told F b (past ++ events) := by
  have hnothing : ∀ j, about j events = [] := by
    intro j
    apply List.filter_eq_nil_iff.mpr
    intro event hmem
    simp [hnone event hmem]
  constructor
  · intro j c hj
    rw [about_append, hnothing, List.append_nil]
    exact h.story j c (hb ▸ hj)
  · intro j hj
    rw [about_append, hnothing, List.append_nil]
    exact h.unborn j (hb ▸ hj)

theorem leaves (h : Told F a past) (hs : a.stage? k = some stage) (hstage : stage.isUnderWay = true)
    (hb : b.stage? k = some .dropped)
    (hpurpose : (b.callers[k]?).map (·.purpose) = (a.callers[k]?).map (·.purpose))
    (helse : Elsewhere a b k) : Told F b (past ++ [.dropped k]) := by
  obtain ⟨⟨p, s⟩, hc, rfl⟩ := Option.map_eq_some_iff.mp hs
  obtain ⟨⟨p', s'⟩, hc', rfl⟩ := Option.map_eq_some_iff.mp hb
  rw [hc, hc'] at hpurpose
  obtain rfl := Option.some.inj hpurpose
  exact h.advance hc' (.dropped _ _ (h.story k _ hc) hstage) (.cons rfl nofun) helse

/-- **Every move goes on with the story of one caller**, or of none. -/
theorem move (h : Told F a past) (ho : Orderly a) (m : Move F a b events) :
    Told F b (past ++ events) := by
  cases m with
  | served purpose t _ =>
    exact h.comes rfl (.given t [.began _ purpose] .found rfl) (.cons rfl (.cons rfl (.given purpose _ t)))
  | admitted purpose _ _ => exact h.comes rfl .granted (.cons rfl nofun)
  | queued purpose holder _ _ => exact h.comes rfl .queued (.cons rfl nofun)
  | found k purpose t hc _ =>
    refine h.advance (getElem?_passTurn_setStage hc) ?_ (.cons rfl (.given purpose k t)) (.passedOn ho k _)
    rw [(h.story k _ hc).eq_of_granted]
    exact .given t _ .found rfl
  | fetch k purpose hc _ =>
    refine h.advance (getElem?_setStage_self hc) ?_ (.cons rfl nofun) (.setStage k _ a)
    rw [(h.story k _ hc).eq_of_granted]
    exact .fetching a.epoch
  | fetched k epoch purpose t hc =>
    have hstored : (a.store epoch t).callers[k]? = some { purpose, stage := .fetching epoch } :=
      (congrArg (·[k]?) (store_callers epoch t a)).trans hc
    refine h.advance (getElem?_passTurn_setStage hstored) ?_
      (.cons rfl (.cons rfl (.given purpose k t))) ?_
    · rw [(h.story k _ hc).eq_of_fetching]
      exact .given t _ .fetched rfl
    · intro j hj
      rw [← store_callers epoch t a]
      exact Elsewhere.passedOn (ho.store epoch t) k _ j hj
  | failed k epoch purpose e hc =>
    refine h.advance (getElem?_passTurn_setStage hc) ?_
      (.cons rfl ((Concerning.complaints F purpose k e).append (.cons rfl nofun))) (.passedOn ho k _)
    rw [(h.story k _ hc).eq_of_fetching]
    exact .failed e
  | answered k executor t result hc =>
    refine h.advance (getElem?_setStage_self hc) ?_
      ((Concerning.verdictOn F k executor result).append (.cons rfl nofun)) (.setStage k _ a)
    obtain ⟨opening, hopening, htold⟩ := (h.story k _ hc).eq_of_requesting
    rw [htold]
    exact .answered executor t opening result rfl hopening
  | left k hs =>
    refine h.leaves hs rfl ?_ ?_ (Elsewhere.setStage k .dropped a)
    · exact (stage?_setStage (lt_length_of_stage? hs) .dropped k).trans (if_pos rfl)
    · show ((a.setStage k .dropped).callers[k]?).map _ = _
      rw [getElem?_setStage, Option.map_map]
      exact congrArg (Option.map · _) (funext fun c => by simp)
  | yielded k stage hs hold =>
    have hpassed := ho.passedOn_after hs hold .dropped
    refine h.leaves hs (by cases stage <;> first | rfl | cases hold) ?_ ?_ ?_
    · rw [hpassed.stages, if_pos rfl]
    · rw [purpose_passTurn, getElem?_setStage, Option.map_map]
      exact congrArg (Option.map · _) (funext fun c => by simp)
    · refine (Elsewhere.setStage k .dropped a).trans (.passTurn ?_ k)
      intro next hhead
      have hqueued := (ho.line next).mp (List.mem_of_head? hhead)
      rw [stage?_setStage (lt_length_of_stage? hs), if_neg, hqueued]
      rintro rfl
      rw [hs] at hqueued
      cases hqueued
      cases hold
  | abandoned k t hs =>
    refine h.leaves hs rfl ?_ ?_ (.setStage k .dropped a)
    · rw [stage?_setStage (lt_length_of_stage? hs), if_pos rfl]
    · rw [getElem?_setStage, Option.map_map]
      exact congrArg (Option.map · _) (funext fun c => by simp)
  | invalidated => exact h.aside rfl (by simp [Event.caller?])
  | passed time => exact h.aside rfl nofun

end Told

open History (seen)

theorem told_run (F : Family ε φ) (start : Timestamp) (acts : List (Act ε φ α)) :
    Told F (run F start acts).1 (seen (run F start acts).2) :=
  (runFrom_induct_seen (P := fun a past => Orderly a ∧ Told F a past) ⟨.new start, .new F start⟩
    (fun ⟨ho, h⟩ m => ⟨ho.move m, h.move ho m⟩) acts).2

/-! ### What a story tells -/

namespace Event

def requested? : Event ε φ α → Option Token
  | .requested _ t => some t
  | _ => none

def obtained? : Event ε φ α → Option Token
  | .obtained _ t => some t
  | _ => none

def outcome? : Event ε φ α → Option (Except ε Token)
  | .fetched _ result => some result
  | _ => none

def result? : Event ε φ α → Option (Result ε φ α)
  | .returned _ result => some result
  | _ => none

def report? : Event ε φ α → Option (Reporter × String × String)
  | .reported _ reporter component text => some (reporter, component, text)
  | _ => none

end Event

/-- The tokens with which the caller has made its request. -/
def requestsOf (k : Nat) (past : List (Event ε φ α)) : List Token :=
  (about k past).filterMap Event.requested?

/-- The tokens that the caller was given as the current one. -/
def tokensOf (k : Nat) (past : List (Event ε φ α)) : List Token :=
  (about k past).filterMap Event.obtained?

/-- What came of the fetches that the caller made. -/
def fetchesOf (k : Nat) (past : List (Event ε φ α)) : List (Except ε Token) :=
  (about k past).filterMap Event.outcome?

/-- What the caller has returned. -/
def returnsOf (k : Nat) (past : List (Event ε φ α)) : List (Result ε φ α) :=
  (about k past).filterMap Event.result?

/-- The reports made of the caller: to whom, under which name, and with what text. -/
def reportsOf (k : Nat) (past : List (Event ε φ α)) : List (Reporter × String × String) :=
  (about k past).filterMap Event.report?

/-- What an executor has to report of an error with this text: that the caller was blocked, if the text
says so, and the executor has a reporter. -/
def dueReport (F : Family ε φ) (executor : Nat) (text : String) : List (Reporter × String × String) :=
  if speaksOfBlocking text then
    match F.executors[executor]? with
    | some { reporter := some r } => [(r, "auth", "Request blocked by IP: " ++ text)]
    | _ => []
  else []

/-- What is to be reported of a caller that stands here: only of one that wanted a header or the answer
to a request, and has returned an error. -/
def dueOf (F : Family ε φ) : Caller ε φ α → List (Reporter × String × String)
  | { purpose := .header executor, stage := .returned (.header (.error e)) } =>
    dueReport F executor (F.fetchText e)
  | { purpose := .request executor, stage := .returned (.request (.error e)) } =>
    dueReport F executor (F.requestText e)
  | _ => []

section Quiet

variable {β : Type} {f : Event ε φ α → Option β} (hblocked : ∀ text, f (.blocked k text) = none)
  (hreported : ∀ r component text, f (.reported k r component text) = none)

include hblocked hreported

theorem complaints_quiet (purpose : Purpose) (e : ε) :
    (purpose.complaints F k e).filterMap f = [] :=
  List.filterMap_eq_nil_iff.mpr (forall_complaints hblocked hreported F purpose e)

theorem verdictOn_quiet (answer : Except φ α) : (verdictOn F k executor answer).filterMap f = [] :=
  List.filterMap_eq_nil_iff.mpr (forall_verdictOn hblocked hreported F executor answer)

end Quiet

theorem inspect_reports (F : Family ε φ) (k executor : Nat) (text : String) :
    (inspect F k executor text : List (Event ε φ α)).filterMap Event.report? =
      dueReport F executor text := by
  unfold inspect dueReport
  by_cases h : speaksOfBlocking text = true
  · rw [if_pos h, if_pos h]
    cases F.executors[executor]? with
    | none => rfl
    | some x =>
      obtain ⟨reporter⟩ := x
      cases reporter <;> rfl
  · rw [if_neg h, if_neg h]
    rfl

theorem Opening.filterMap_eq {t : Token} {opening : List (Event ε φ α)}
    (h : Opening k purpose t opening) {β : Type} {f : Event ε φ α → Option β}
    (hbegan : f (.began k purpose) = none) (hfetch : f (.fetch k) = none)
    (hfetched : f (.fetched k (.ok t)) = none) : opening.filterMap f = [] := by
  cases h with
  | found => simp [hbegan]
  | fetched => simp [hbegan, hfetch, hfetched]

namespace Story

/-- **A request is made with the token that was obtained**, and once at most. -/
theorem requests (h : Story F k (.request executor) stage told) :
    told.filterMap Event.requested? = told.filterMap Event.obtained? ∧
      (told.filterMap Event.obtained?).length ≤ 1 := by
  generalize hp : Purpose.request executor = purpose at h
  induction h with
  | queued | granted | fetching => exact ⟨rfl, Nat.zero_le 1⟩
  | given t opening h =>
    subst hp
    rw [List.filterMap_append, List.filterMap_append, h.filterMap_eq rfl rfl rfl,
      h.filterMap_eq rfl rfl rfl]
    exact ⟨rfl, Nat.le_refl 1⟩
  | failed e =>
    rw [List.filterMap_append, List.filterMap_append, List.filterMap_append, List.filterMap_append,
      complaints_quiet (fun _ => rfl) (fun _ _ _ => rfl),
      complaints_quiet (fun _ => rfl) (fun _ _ _ => rfl)]
    exact ⟨rfl, Nat.zero_le 1⟩
  | answered executor t opening result _ h =>
    simp only [List.filterMap_append]
    rw [h.filterMap_eq rfl rfl rfl, h.filterMap_eq rfl rfl rfl,
      verdictOn_quiet (fun _ => rfl) (fun _ _ _ => rfl),
      verdictOn_quiet (fun _ => rfl) (fun _ _ _ => rfl)]
    exact ⟨rfl, Nat.le_refl 1⟩
  | dropped stage told _ _ ih =>
    obtain ⟨hsame, hlength⟩ := ih
    rw [List.filterMap_append, List.filterMap_append, hsame]
    refine ⟨rfl, ?_⟩
    simpa [List.filterMap_cons, Event.obtained?] using hlength

/-- A caller fetches once at most. -/
theorem fetches (h : Story F k purpose stage told) : (fetchesIn told).length ≤ 1 := by
  have hopening : ∀ {t : Token} {opening : List (Event ε φ α)}, Opening k purpose t opening →
      (opening.filterMap Event.fetch?).length ≤ 1 := by
    intro t opening h
    cases h with
    | found => exact Nat.zero_le 1
    | fetched => exact Nat.le_refl 1
  unfold fetchesIn
  induction h with
  | queued | granted => exact Nat.zero_le 1
  | fetching => exact Nat.le_refl 1
  | given t opening h =>
    have hnone : (.obtained k t :: purpose.given k t : List (Event ε φ α)).filterMap Event.fetch? =
        [] := by
      cases purpose <;> rfl
    rw [List.filterMap_append, hnone, List.append_nil]
    exact hopening h
  | failed e =>
    rw [List.filterMap_append, List.filterMap_append,
      complaints_quiet (fun _ => rfl) (fun _ _ _ => rfl)]
    exact Nat.le_refl 1
  | answered executor t opening result _ h =>
    simp only [List.filterMap_append]
    rw [verdictOn_quiet (fun _ => rfl) (fun _ _ _ => rfl)]
    simpa [List.filterMap_cons, Event.fetch?] using hopening h
  | dropped stage told _ _ ih =>
    rw [List.filterMap_append]
    simpa [List.filterMap_cons, Event.fetch?] using ih

theorem returns (h : Story F k purpose stage told) :
    told.filterMap Event.result? = stage.result?.toList := by
  induction h with
  | queued | granted | fetching => rfl
  | given t opening h hs =>
    rw [List.filterMap_append, h.filterMap_eq rfl rfl rfl, hs]
    cases purpose <;> rfl
  | failed e =>
    rw [List.filterMap_append, List.filterMap_append,
      complaints_quiet (fun _ => rfl) (fun _ _ _ => rfl)]
    rfl
  | answered executor t opening result _ h =>
    simp only [List.filterMap_append]
    rw [h.filterMap_eq rfl rfl rfl, verdictOn_quiet (fun _ => rfl) (fun _ _ _ => rfl)]
    rfl
  | dropped stage told _ hs ih =>
    rw [List.filterMap_append, ih]
    cases stage <;> first | rfl | cases hs

/-- **What a request returns** is told with one token, or it is the error of the fetch, with none. -/
theorem outcome {result : Result ε φ α} (h : Story F k (.request executor) (.returned result) told) :
    (∃ t answer, told.filterMap Event.requested? = [t] ∧ result = .request answer) ∨
      ∃ e, told.filterMap Event.requested? = [] ∧ told.filterMap Event.outcome? = [.error e] ∧
        result = .request (.error (F.lift e)) := by
  cases h with
  | given t opening _ hs => cases hs
  | failed e =>
    right
    rw [List.filterMap_append, List.filterMap_append, List.filterMap_append, List.filterMap_append,
      complaints_quiet (fun _ => rfl) (fun _ _ _ => rfl),
      complaints_quiet (fun _ => rfl) (fun _ _ _ => rfl)]
    exact ⟨e, rfl, rfl, rfl⟩
  | answered executor t opening answer _ h =>
    left
    simp only [List.filterMap_append]
    rw [h.filterMap_eq rfl rfl rfl, verdictOn_quiet (fun _ => rfl) (fun _ _ _ => rfl)]
    exact ⟨t, answer, rfl, rfl⟩

/-- **An error is reported just if it calls for it**, and once. -/
theorem reports (h : Story F k purpose stage told) :
    told.filterMap Event.report? = dueOf F { purpose, stage } := by
  induction h with
  | queued | granted | fetching => cases purpose <;> rfl
  | given t opening h hs =>
    rw [List.filterMap_append, h.filterMap_eq rfl rfl rfl, hs]
    cases purpose <;> rfl
  | failed e =>
    have hended : ∀ result : Result ε φ α, ([.returned k result] : List (Event ε φ α)).filterMap
        Event.report? = [] := fun _ => rfl
    rw [List.filterMap_append, List.filterMap_append, hended, List.append_nil]
    cases purpose with
    | token => rfl
    | header executor => exact inspect_reports F k executor _
    | request executor => exact inspect_reports F k executor _
  | answered executor t opening result hp h =>
    subst hp
    simp only [List.filterMap_append]
    rw [h.filterMap_eq rfl rfl rfl]
    cases result with
    | ok value => rfl
    | error e =>
      have hended : ([.returned k (.request (.error e))] : List (Event ε φ α)).filterMap
          Event.report? = [] := rfl
      rw [hended, List.append_nil]
      exact inspect_reports F k executor _
  | dropped stage told _ hs ih =>
    rw [List.filterMap_append, ih]
    cases stage <;> cases purpose <;> first | rfl | cases hs

end Story

/-! ### Acts that return -/

theorem not_returned_given (k j : Nat) (purpose : Purpose) (t : Token) (result : Except φ α) :
    .returned k (.request result) ∉ (purpose.given j t : List (Event ε φ α)) := by
  cases purpose <;> simp [Purpose.given]

theorem not_returned_begin (k : Nat) (purpose : Purpose) (result : Except φ α) (a : Access ε φ α) :
    .returned k (.request result) ∉ (a.begin purpose).2 := by
  cases hu : a.usable with
  | none => simp [begin_of_unusable purpose hu]
  | some t => simp [begin_of_usable purpose hu, not_returned_given]

theorem not_returned_resume (k caller : Nat) (result : Except φ α) (a : Access ε φ α) :
    .returned k (.request result) ∉ (a.resume caller).2 := by
  by_cases h : ∃ purpose, a.callers[caller]? = some { purpose, stage := .granted }
  · obtain ⟨purpose, hc⟩ := h
    cases hu : a.usable with
    | none => simp [resume_of_unusable hc hu]
    | some t => simp [resume_of_usable hc hu, not_returned_given]
  · push Not at h
    rw [resume_of_not_granted h]
    exact List.not_mem_nil

theorem fetched_returned_iff (F : Family ε φ) (k caller : Nat) (fetch : Except ε Token)
    (result : Except φ α) (a : Access ε φ α) :
    .returned k (.request result) ∈ (a.fetched F caller fetch).2 ↔
      ∃ executor epoch e,
        a.callers[k]? = some { purpose := .request executor, stage := .fetching epoch } ∧
          (caller = k ∧ fetch = .error e) ∧ result = .error (F.lift e) := by
  by_cases h : ∃ purpose epoch, a.callers[caller]? = some { purpose, stage := .fetching epoch }
  · obtain ⟨purpose, epoch, hc⟩ := h
    cases fetch with
    | ok t => simp [fetched_ok F hc, not_returned_given]
    | error e =>
      have hcomplaints : .returned k (.request result) ∉
          (purpose.complaints F caller e : List (Event ε φ α)) := by
        have hother := forall_complaints (p := (· ≠ .returned k (.request result))) (k := caller)
          (fun _ => by simp) (fun _ _ _ => by simp) F purpose e
        exact fun hmem => hother _ hmem rfl
      rw [fetched_error F hc]
      simp only [List.mem_cons, List.mem_append, hcomplaints, false_or, reduceCtorEq, List.not_mem_nil,
        or_false, Event.returned.injEq]
      constructor
      · rintro ⟨rfl, hfailure⟩
        cases purpose <;> cases hfailure
        exact ⟨_, epoch, e, hc, ⟨rfl, rfl⟩, rfl⟩
      · rintro ⟨executor, epoch', e', hc', ⟨rfl, he⟩, rfl⟩
        rw [hc] at hc'
        cases hc'
        cases he
        exact ⟨rfl, rfl⟩
  · push Not at h
    rw [fetched_of_not_fetching F h]
    refine iff_of_false List.not_mem_nil ?_
    rintro ⟨executor, epoch, e, hc, ⟨rfl, -⟩, -⟩
    exact h _ _ hc

theorem answered_returned_iff (F : Family ε φ) (k caller : Nat) (answer result : Except φ α)
    (a : Access ε φ α) :
    .returned k (.request result) ∈ (a.answered F caller answer).2 ↔
      ∃ executor t, a.callers[k]? = some { purpose := .request executor, stage := .requesting t } ∧
        caller = k ∧ answer = result := by
  by_cases h : ∃ executor t,
      a.callers[caller]? = some { purpose := .request executor, stage := .requesting t }
  · obtain ⟨executor, t, hc⟩ := h
    have hverdict : .returned k (.request result) ∉
        (verdictOn F caller executor answer : List (Event ε φ α)) := by
      have hother := forall_verdictOn (p := (· ≠ .returned k (.request result))) (k := caller)
        (fun _ => by simp) (fun _ _ _ => by simp) F executor answer
      exact fun hmem => hother _ hmem rfl
    rw [answered_of_requesting F hc]
    constructor
    · intro hmem
      rcases List.mem_append.mp hmem with hmem | hmem
      · exact absurd hmem hverdict
      · cases List.mem_singleton.mp hmem
        exact ⟨executor, t, hc, rfl, rfl⟩
    · rintro ⟨-, -, -, rfl, rfl⟩
      exact List.mem_append_right _ (List.mem_singleton.mpr rfl)
  · push Not at h
    rw [answered_of_not_requesting F h]
    refine iff_of_false List.not_mem_nil ?_
    rintro ⟨executor, t, hc, rfl, -⟩
    exact h executor t hc

/-- **The answer to a request, once it is there, is what the caller returns**, and only a failed fetch
lets it return something else. -/
theorem returned_iff (F : Family ε φ) (a : Access ε φ α) (act : Act ε φ α) (k : Nat)
    (result : Except φ α) :
    .returned k (.request result) ∈ (a.step F act).2 ↔
      (∃ executor t, a.callers[k]? = some { purpose := .request executor, stage := .requesting t } ∧
        act = .answered k result) ∨
      ∃ executor epoch e,
        a.callers[k]? = some { purpose := .request executor, stage := .fetching epoch } ∧
          act = .fetched k (.error e) ∧ result = .error (F.lift e) := by
  cases act with
  | begin purpose => simpa [step] using not_returned_begin k purpose result a
  | resume caller => simpa [step] using not_returned_resume k caller result a
  | fetched caller fetch => simpa [step] using fetched_returned_iff F k caller fetch result a
  | answered caller answer => simpa [step] using answered_returned_iff F k caller answer result a
  | drop caller =>
    have hdropped : .returned k (.request result) ∉ (a.drop caller).2 := by
      intro hmem
      cases eq_dropped hmem
    simpa [step] using hdropped
  | invalidate => simp [step]
  | pass => simp [step]

/-- **The answer to a request concerns nobody but its caller**: the stored token, the turn and the line
are what they were, and so are all other callers. -/
theorem answered_frame (F : Family ε φ) (k : Nat) (result : Except φ α) (a : Access ε φ α) :
    (a.answered F k result).1 = { a with callers := (a.answered F k result).1.callers } ∧
      ∀ j, j ≠ k → (a.answered F k result).1.callers[j]? = a.callers[j]? := by
  by_cases h : ∃ executor t,
      a.callers[k]? = some { purpose := .request executor, stage := .requesting t }
  · obtain ⟨executor, t, hc⟩ := h
    rw [answered_of_requesting F hc]
    refine ⟨rfl, fun j hj => ?_⟩
    dsimp only
    rw [getElem?_setStage]
    simp [hj]
  · push Not at h
    rw [answered_of_not_requesting F h]
    exact ⟨rfl, fun _ _ => rfl⟩

/-! ### Acts that give a token -/

theorem begin_obtained_iff (k : Nat) (purpose : Purpose) (t : Token) (a : Access ε φ α) :
    .obtained k t ∈ (a.begin purpose).2 ↔ k = a.callers.length ∧ a.usable = some t := by
  cases hu : a.usable with
  | none => simp [begin_of_unusable purpose hu]
  | some u => simp [begin_of_usable purpose hu, (given_talk purpose _ u).not_obtained k t, eq_comm]

theorem resume_obtained_iff (k caller : Nat) (t : Token) (a : Access ε φ α) :
    .obtained k t ∈ (a.resume caller).2 ↔
      a.stage? k = some .granted ∧ caller = k ∧ a.usable = some t := by
  by_cases h : ∃ purpose, a.callers[caller]? = some { purpose, stage := .granted }
  · obtain ⟨purpose, hc⟩ := h
    cases hu : a.usable with
    | none => simp [resume_of_unusable hc hu]
    | some u =>
      rw [resume_of_usable hc hu]
      simp only [List.mem_cons, (given_talk purpose caller u).not_obtained k t, or_false,
        Event.obtained.injEq, Option.some.injEq]
      constructor
      · rintro ⟨rfl, rfl⟩
        exact ⟨stage?_of_getElem? hc, rfl, rfl⟩
      · rintro ⟨-, rfl, rfl⟩
        exact ⟨rfl, rfl⟩
  · push Not at h
    rw [resume_of_not_granted h]
    refine iff_of_false List.not_mem_nil ?_
    rintro ⟨hstage, rfl, -⟩
    obtain ⟨⟨purpose, stage⟩, hc, rfl⟩ := Option.map_eq_some_iff.mp hstage
    exact h purpose hc

theorem fetched_obtained_iff (F : Family ε φ) (k caller : Nat) (fetch : Except ε Token) (t : Token)
    (a : Access ε φ α) :
    .obtained k t ∈ (a.fetched F caller fetch).2 ↔
      ∃ epoch, a.stage? k = some (.fetching epoch) ∧ caller = k ∧ fetch = .ok t := by
  by_cases h : ∃ purpose epoch, a.callers[caller]? = some { purpose, stage := .fetching epoch }
  · obtain ⟨purpose, epoch, hc⟩ := h
    cases fetch with
    | ok u =>
      rw [fetched_ok F hc]
      simp only [List.mem_cons, (given_talk purpose caller u).not_obtained k t, or_false,
        Event.obtained.injEq, Except.ok.injEq, reduceCtorEq, false_or]
      constructor
      · rintro ⟨rfl, rfl⟩
        exact ⟨epoch, stage?_of_getElem? hc, rfl, rfl⟩
      · rintro ⟨-, -, rfl, rfl⟩
        exact ⟨rfl, rfl⟩
    | error e =>
      have htalk : Talk (purpose.complaints F caller e ++
          [.returned caller (purpose.failure F e)] : List (Event ε φ α)) :=
        (complaints_talk F purpose caller e).concat caller _
      simp [fetched_error F hc, htalk.not_obtained k t]
  · push Not at h
    rw [fetched_of_not_fetching F h]
    refine iff_of_false List.not_mem_nil ?_
    rintro ⟨epoch, hstage, rfl, -⟩
    obtain ⟨⟨purpose, stage⟩, hc, rfl⟩ := Option.map_eq_some_iff.mp hstage
    exact h purpose epoch hc

/-- **A token is obtained alike by all callers**, whatever they want it for: it is the usable one when
they come or when they have the turn, or else the one of their own fetch. -/
theorem obtained_iff (F : Family ε φ) (a : Access ε φ α) (act : Act ε φ α) (k : Nat) (t : Token) :
    .obtained k t ∈ (a.step F act).2 ↔
      (k = a.callers.length ∧ (∃ purpose, act = .begin purpose) ∧ a.usable = some t) ∨
      (a.stage? k = some .granted ∧ act = .resume k ∧ a.usable = some t) ∨
      ∃ epoch, a.stage? k = some (.fetching epoch) ∧ act = .fetched k (.ok t) := by
  cases act with
  | begin purpose => simpa [step] using begin_obtained_iff k purpose t a
  | resume caller => simpa [step, and_assoc] using resume_obtained_iff k caller t a
  | fetched caller fetch => simpa [step] using fetched_obtained_iff F k caller fetch t a
  | answered caller answer =>
    have hno : .obtained k t ∉ (a.answered F caller answer).2 := by
      by_cases h : ∃ executor t,
          a.callers[caller]? = some { purpose := .request executor, stage := .requesting t }
      · obtain ⟨executor, u, hc⟩ := h
        rw [answered_of_requesting F hc]
        exact ((verdictOn_talk F caller executor answer).concat caller _).not_obtained k t
      · push Not at h
        rw [answered_of_not_requesting F h]
        exact List.not_mem_nil
    simpa [step] using hno
  | drop caller =>
    have hno : .obtained k t ∉ (a.drop caller).2 := by
      intro hmem
      cases eq_dropped hmem
    simpa [step] using hno
  | invalidate => simp [step]
  | pass => simp [step]

/-! ### From end to end -/

/-- **A call of `authenticate` from end to end.** It makes its request with the token that it obtained,
once, or not at all if it obtained none, and it fetches once at most; a token is obtained just as by
those who want nothing else. What it returns is the answer to its request, and otherwise what the error
of its fetch becomes. The answer changes nothing but where its own caller stands. What was reported of a
caller is what its result calls for, once, and nothing else was: the marker of a blocked address may
stand anywhere in the text of the error, in letters of any case. -/
theorem authenticate_end_to_end (F : Family ε φ) (start : Timestamp) (acts : List (Act ε φ α)) :
    let a := (run F start acts).1
    let past := seen (run F start acts).2
    (∀ k executor stage, a.callers[k]? = some { purpose := .request executor, stage } →
      requestsOf k past = tokensOf k past ∧ (requestsOf k past).length ≤ 1 ∧
      (fetchesIn (about k past)).length ≤ 1 ∧ returnsOf k past = stage.result?.toList ∧
      ∀ result, stage = .returned result →
        (∃ t answer, requestsOf k past = [t] ∧ result = .request answer) ∨
        ∃ e, requestsOf k past = [] ∧ fetchesOf k past = [.error e] ∧
          result = .request (.error (F.lift e))) ∧
    (∀ act k t, .obtained k t ∈ (a.step F act).2 ↔
      (k = a.callers.length ∧ (∃ purpose, act = .begin purpose) ∧ a.usable = some t) ∨
      (a.stage? k = some .granted ∧ act = .resume k ∧ a.usable = some t) ∨
      ∃ epoch, a.stage? k = some (.fetching epoch) ∧ act = .fetched k (.ok t)) ∧
    (∀ act k result, .returned k (.request result) ∈ (a.step F act).2 ↔
      (∃ executor t, a.callers[k]? = some { purpose := .request executor, stage := .requesting t } ∧
        act = .answered k result) ∨
      ∃ executor epoch e,
        a.callers[k]? = some { purpose := .request executor, stage := .fetching epoch } ∧
          act = .fetched k (.error e) ∧ result = .error (F.lift e)) ∧
    (∀ k answer, (a.answered F k answer).1 = { a with callers := (a.answered F k answer).1.callers } ∧
      ∀ j, j ≠ k → (a.answered F k answer).1.callers[j]? = a.callers[j]?) ∧
    (∀ k, reportsOf k past = ((a.callers[k]?).map (dueOf F)).getD []) ∧
    ∀ text, speaksOfBlocking text = true ↔ ∃ before word after,
      text.toList = before ++ (word ++ after) ∧ List.Forall₂ SameLetter word "BLOCKED_IP".toList := by
  intro a past
  have htold : Told F a past := told_run F start acts
  refine ⟨?_, fun act k t => obtained_iff F a act k t, fun act k result => returned_iff F a act k result,
    fun k answer => answered_frame F k answer a, ?_, speaksOfBlocking_iff⟩
  · intro k executor stage hc
    have hstory : Story F k (.request executor) stage (about k past) := htold.story k _ hc
    obtain ⟨hsame, hlength⟩ := hstory.requests
    refine ⟨hsame, ?_, hstory.fetches, hstory.returns, ?_⟩
    · rw [requestsOf, hsame]
      exact hlength
    · rintro result rfl
      exact hstory.outcome
  · intro k
    cases hc : a.callers[k]? with
    | none =>
      rw [reportsOf, htold.unborn k hc]
      rfl
    | some c => exact (htold.story k c hc).reports

/-- The executor that reports to a sink. -/
def watched : Family String String :=
  { executors := [{ reporter := some (.sink "ops") }], fetchText := id, requestText := id, lift := id }

/-- A request is refused by a backend that blocks its caller, and the next call does not come to a
request. -/
def refused : List (Act String String Unit) :=
  [.begin (.request 0), .resume 0, .fetched 0 (.ok { secret := "abc" }),
    .answered 0 (.error "403: Blocked_Ip"), .invalidate, .begin (.request 0), .resume 1,
    .fetched 1 (.error "no login")]

/-- The first call makes its request and is reported; the second one makes none, and is not. -/
theorem refused_is_reported :
    let past := seen (run watched { secs := 0 } refused).2
    (requestsOf 0 past = [{ secret := "abc" }] ∧
      reportsOf 0 past = [(.sink "ops", "auth", "Request blocked by IP: 403: Blocked_Ip")] ∧
      returnsOf 0 past = [.request (.error "403: Blocked_Ip")]) ∧
    requestsOf 1 past = [] ∧ reportsOf 1 past = [] ∧
      returnsOf 1 past = [.request (.error "no login")] := by
  have hlast : (run watched { secs := 0 } refused).1.callers =
      [{ purpose := .request 0, stage := .returned (.request (.error "403: Blocked_Ip")) },
        { purpose := .request 0, stage := .returned (.request (.error "no login")) }] := by decide
  obtain ⟨hcalls, -, -, -, hreports, -⟩ := authenticate_end_to_end watched { secs := 0 } refused
  obtain ⟨hfirst, -, -, hfirstReturn, -⟩ := hcalls 0 0 _ (congrArg (·[0]?) hlast)
  obtain ⟨hsecond, -, -, hsecondReturn, -⟩ := hcalls 1 0 _ (congrArg (·[1]?) hlast)
  refine ⟨⟨hfirst.trans (by decide), ?_, hfirstReturn⟩, hsecond.trans (by decide), ?_, hsecondReturn⟩
  · rw [hreports 0, hlast]
    decide
  · rw [hreports 1, hlast]
    decide

end Access

end IntentLoop.Auth
