import IntentLoop.Proofs.Auth.Acts
import IntentLoop.Proofs.Auth.Turn
/-!
# Where tokens come from

All that a move means for the fetches and the stored token is a `Supply`: a fetch begins, it gives a
token or fails, its caller goes away, the stored token is invalidated, or nothing of the kind happens
and at most the stored token is handed out. What was seen of a run tells which callers are fetching
(`Logged`), and whoever shows a token has obtained it in some such move (`Backed`).
-/

namespace IntentLoop.Auth.Access

variable {ε φ α : Type} {F : Family ε φ} {a b : Access ε φ α} {past events : List (Event ε φ α)}

/-! ### What is told of fetches -/

namespace Event

/-- The caller whose fetch the event is about: it begins, it is over, or the caller goes away. -/
def fetcher? : Event ε φ α → Option Nat
  | .fetch k | .fetched k _ | .dropped k => some k
  | _ => none

/-- Does the event tell only what a caller does with a token, or without one? -/
def isTalk : Event ε φ α → Bool
  | .began _ _ | .requested _ _ | .blocked _ _ | .reported _ _ _ _ | .returned _ _ => true
  | _ => false

end Event

/-- Only what callers do with tokens, or without them. -/
def Talk (events : List (Event ε φ α)) : Prop := ∀ event ∈ events, event.isTalk

theorem Talk.fetcher? (h : Talk events) : ∀ event ∈ events, event.fetcher? = none := by
  intro event hmem
  have htalk := h event hmem
  cases event <;> first | rfl | cases htalk

theorem Talk.not_obtained (h : Talk events) (c : Nat) (t : Token) : .obtained c t ∉ events :=
  fun hmem => by cases h _ hmem

theorem given_talk (purpose : Purpose) (k : Nat) (t : Token) :
    Talk (purpose.given k t : List (Event ε φ α)) := by
  cases purpose <;> simp [Purpose.given, Talk, Event.isTalk]

theorem complaints_talk (F : Family ε φ) (purpose : Purpose) (k : Nat) (e : ε) :
    Talk (purpose.complaints F k e : List (Event ε φ α)) :=
  forall_complaints (fun _ => rfl) (fun _ _ _ => rfl) F purpose e

theorem verdictOn_talk (F : Family ε φ) (k executor : Nat) (result : Except φ α) :
    Talk (verdictOn F k executor result) :=
  forall_verdictOn (fun _ => rfl) (fun _ _ _ => rfl) F executor result

theorem Talk.concat (h : Talk events) (k : Nat) (result : Result ε φ α) :
    Talk (events ++ [.returned k result]) := by
  intro event hmem
  rcases List.mem_append.mp hmem with hmem | hmem
  · exact h event hmem
  · rw [List.mem_singleton.mp hmem]
    rfl

/-! ### What a move means for fetches -/

/-- The caller has not come yet, or has neither begun a fetch nor got around it. -/
def IsWaiting (a : Access ε φ α) (k : Nat) : Prop :=
  ∀ stage, a.stage? k = some stage → stage.isWaiting

def IsFetching (a : Access ε φ α) (k epoch : Nat) : Prop := a.stage? k = some (.fetching epoch)

/-- A caller has got past its fetch, and the fetches of the others are as before. -/
structure Left (a b : Access ε φ α) (k : Nat) : Prop where
  begun : ¬b.IsWaiting k
  finished : ∀ epoch, ¬b.IsFetching k epoch
  fetching : ∀ j, j ≠ k → ∀ epoch, b.IsFetching j epoch ↔ a.IsFetching j epoch
  waiting : ∀ j, j ≠ k → b.IsWaiting j → a.IsWaiting j

theorem Left.of_stages {k : Nat} {stage : Stage ε φ α} (hw : stage.isWaiting = false)
    (hf : stage.holdsTurn = false) (hs : ∀ j, b.stage? j = if j = k then some stage else a.stage? j) :
    Left a b k where
  begun hwaiting := by
    have hself := hwaiting stage (by rw [hs, if_pos rfl])
    rw [hw] at hself
    cases hself
  finished epoch hfetching := by
    rw [IsFetching, hs, if_pos rfl, Option.some.injEq] at hfetching
    rw [hfetching] at hf
    cases hf
  fetching j hj epoch := by rw [IsFetching, IsFetching, hs, if_neg hj]
  waiting j hj := by
    unfold IsWaiting
    rw [hs, if_neg hj]
    exact id

theorem Left.of_passedOn (h : Orderly a) {k : Nat} {stage : Stage ε φ α}
    (hp : PassedOn a b k stage) (hw : stage.isWaiting = false) (hf : stage.holdsTurn = false) :
    Left a b k := by
  have hself : b.stage? k = some stage := by rw [hp.stages, if_pos rfl]
  -- the next in line was waiting before, and is so now
  have hnext : ∀ j, a.line.head? = some j → a.stage? j = some .queued :=
    fun j hj => (h.line j).mp (List.mem_of_head? hj)
  refine ⟨?_, ?_, ?_, ?_⟩
  · intro hwaiting
    have hno := hwaiting stage hself
    rw [hw] at hno
    cases hno
  · intro epoch hfetching
    rw [IsFetching, hself, Option.some.injEq] at hfetching
    rw [hfetching] at hf
    cases hf
  · intro j hj epoch
    rw [IsFetching, IsFetching, hp.stages, if_neg hj]
    by_cases hhead : a.line.head? = some j
    · simp [hhead, hnext j hhead]
    · rw [if_neg hhead]
  · intro j hj hwaiting s hs
    by_cases hhead : a.line.head? = some j
    · rw [hnext j hhead] at hs
      cases hs
      rfl
    · exact hwaiting s (by rw [hp.stages, if_neg hj, if_neg hhead, hs])

/-- All that a move means for fetches and the stored token. -/
inductive Supply (a b : Access ε φ α) : List (Event ε φ α) → Prop
  /-- At most the stored token is handed out. -/
  | aside {events : List (Event ε φ α)} (ht : b.token = a.token) (he : b.epoch = a.epoch)
      (hf : ∀ k epoch, b.IsFetching k epoch ↔ a.IsFetching k epoch)
      (hw : ∀ k, b.IsWaiting k → a.IsWaiting k)
      (hev : ∀ event ∈ events, event.fetcher? = none)
      (ho : ∀ c t, .obtained c t ∈ events → a.token = some t) : Supply a b events
  | fetch (k : Nat) (ht : b.token = a.token) (he : b.epoch = a.epoch)
      (hs : a.stage? k = some .granted)
      (hstages : ∀ j, b.stage? j = if j = k then some (.fetching a.epoch) else a.stage? j) :
      Supply a b [.fetch k]
  | fetched (k epoch : Nat) (t : Token) {more : List (Event ε φ α)} (hs : a.IsFetching k epoch)
      (ht : b.token = if a.epoch = epoch then some t else a.token) (he : b.epoch = a.epoch)
      (hl : Left a b k) (hmore : Talk more) :
      Supply a b (.fetched k (.ok t) :: .obtained k t :: more)
  | failed (k epoch : Nat) (e : ε) {more : List (Event ε φ α)} (hs : a.IsFetching k epoch)
      (ht : b.token = a.token) (he : b.epoch = a.epoch) (hl : Left a b k) (hmore : Talk more) :
      Supply a b (.fetched k (.error e) :: more)
  | dropped (k : Nat) (ht : b.token = a.token) (he : b.epoch = a.epoch) (hl : Left a b k) :
      Supply a b [.dropped k]
  | invalidated (ht : b.token = none) (he : b.epoch = a.epoch + 1)
      (hs : ∀ k, b.stage? k = a.stage? k) : Supply a b [.invalidated]

theorem passTurn_token (a : Access ε φ α) : a.passTurn.token = a.token := by
  unfold passTurn
  cases a.line <;> rfl

theorem passTurn_epoch (a : Access ε φ α) : a.passTurn.epoch = a.epoch := by
  unfold passTurn
  cases a.line <;> rfl

theorem store_token (epoch : Nat) (t : Token) (a : Access ε φ α) :
    (a.store epoch t).token = if a.epoch = epoch then some t else a.token := by
  unfold store
  split <;> rfl

theorem store_epoch (epoch : Nat) (t : Token) (a : Access ε φ α) :
    (a.store epoch t).epoch = a.epoch := by
  unfold store
  split <;> rfl

theorem token_of_usable {t : Token} (h : a.usable = some t) : a.token = some t :=
  (Option.filter_eq_some_iff.mp h).1

theorem Supply.join (purpose : Purpose) {stage : Stage ε φ α} (ht : b.token = a.token)
    (he : b.epoch = a.epoch) (hs : ∀ k, b.stage? k = (a.join purpose stage).stage? k)
    (hno : ∀ epoch, stage ≠ .fetching epoch) (hev : ∀ event ∈ events, event.fetcher? = none)
    (ho : ∀ c t, .obtained c t ∈ events → a.token = some t) : Supply a b events := by
  have hnew : a.stage? a.callers.length = none := Orderly.stage?_length a
  refine .aside ht he ?_ ?_ hev ho
  · intro k epoch
    rw [IsFetching, IsFetching, hs, stage?_join]
    by_cases hk : k = a.callers.length
    · simp [hk, hnew, hno]
    · rw [if_neg hk]
  · intro k hw s hks
    by_cases hk : k = a.callers.length
    · rw [hk, hnew] at hks
      cases hks
    · exact hw s (by rw [hs, stage?_join, if_neg hk, hks])

theorem Left.aside {k : Nat} (hl : Left a b k) (hno : ∀ epoch, ¬a.IsFetching k epoch)
    (ht : b.token = a.token) (he : b.epoch = a.epoch)
    (hev : ∀ event ∈ events, event.fetcher? = none)
    (ho : ∀ c t, .obtained c t ∈ events → a.token = some t) : Supply a b events := by
  refine .aside ht he ?_ ?_ hev ho
  · intro j epoch
    by_cases hj : j = k
    · rw [hj]
      exact iff_of_false (hl.finished epoch) (hno epoch)
    · exact hl.fetching j hj epoch
  · intro j hw
    by_cases hj : j = k
    · exact absurd (hj ▸ hw) hl.begun
    · exact hl.waiting j hj hw

theorem Left.of_store {k epoch : Nat} {t : Token} (hl : Left (a.store epoch t) b k) :
    Left a b k where
  begun := hl.begun
  finished := hl.finished
  fetching j hj epoch' := by
    rw [hl.fetching j hj, IsFetching, stage?_store, IsFetching]
  waiting j hj hw stage hs := hl.waiting j hj hw stage ((stage?_store _ _ _ _).trans hs)

/-- **Every move is a supply of one kind or another.** -/
theorem Move.supply (h : Orderly a) (m : Move F a b events) : Supply a b events := by
  cases m with
  | served purpose t hu =>
    refine .join purpose rfl rfl (fun _ => rfl) ?_ ?_ ?_
    · intro epoch
      cases purpose <;> simp [Purpose.stageWith]
    · have hgiven := (given_talk (ε := ε) (φ := φ) (α := α) purpose a.callers.length t).fetcher?
      simpa [Event.fetcher?] using hgiven
    · intro c u hmem
      simp only [List.mem_cons, reduceCtorEq, Event.obtained.injEq, false_or] at hmem
      rcases hmem with ⟨-, rfl⟩ | hmem
      · exact token_of_usable hu
      · exact absurd hmem ((given_talk purpose _ t).not_obtained c u)
  | admitted purpose hu ht =>
    exact .join purpose rfl rfl (fun _ => rfl) (by simp) (by simp [Event.fetcher?]) (by simp)
  | queued purpose holder hu ht =>
    exact .join purpose rfl rfl (fun _ => rfl) (by simp) (by simp [Event.fetcher?]) (by simp)
  | found k purpose t hc hu =>
    have hs := stage?_of_getElem? hc
    have hl := Left.of_passedOn h (h.passedOn hs (purpose.stageWith t))
      (purpose.stageWith_isWaiting t) (purpose.stageWith_holdsTurn t)
    refine hl.aside (fun epoch => by simp [IsFetching, hs]) (passTurn_token a) (passTurn_epoch a) ?_ ?_
    · have hgiven := (given_talk (ε := ε) (φ := φ) (α := α) purpose k t).fetcher?
      simpa [Event.fetcher?] using hgiven
    · intro c u hmem
      rw [List.mem_cons, Event.obtained.injEq] at hmem
      rcases hmem with ⟨-, rfl⟩ | hmem
      · exact token_of_usable hu
      · exact absurd hmem ((given_talk purpose k t).not_obtained c u)
  | fetch k purpose hc hu =>
    have hs := stage?_of_getElem? hc
    exact .fetch k rfl rfl hs (stage?_setStage (lt_length_of_stage? hs) _)
  | fetched k epoch purpose t hc =>
    have hs := stage?_of_getElem? hc
    have hl := Left.of_passedOn (h.store epoch t)
      ((h.store epoch t).passedOn ((stage?_store epoch t a k).trans hs) (purpose.stageWith t))
      (purpose.stageWith_isWaiting t) (purpose.stageWith_holdsTurn t)
    exact .fetched k epoch t hs ((passTurn_token _).trans (store_token epoch t a))
      ((passTurn_epoch _).trans (store_epoch epoch t a)) hl.of_store (given_talk purpose k t)
  | failed k epoch purpose e hc =>
    have hs := stage?_of_getElem? hc
    exact .failed k epoch e hs (passTurn_token a) (passTurn_epoch a)
      (Left.of_passedOn h (h.passedOn hs _) rfl rfl) ((complaints_talk F purpose k e).concat k _)
  | answered k executor t result hc =>
    have hs := stage?_of_getElem? hc
    have hl := Left.of_stages (b := a.setStage k (.returned (.request result))) rfl rfl
      (stage?_setStage (lt_length_of_stage? hs) _)
    have htalk := (verdictOn_talk F k executor result).concat k (.request result)
    exact hl.aside (fun epoch => by simp [IsFetching, hs]) rfl rfl htalk.fetcher?
      fun c u hmem => absurd hmem (htalk.not_obtained c u)
  | left k hs =>
    exact .dropped k rfl rfl (Left.of_stages rfl rfl (stage?_setStage (lt_length_of_stage? hs) _))
  | yielded k stage hs hold =>
    exact .dropped k (passTurn_token _) (passTurn_epoch _)
      (Left.of_passedOn h (h.passedOn_after hs hold _) rfl rfl)
  | abandoned k t hs =>
    exact .dropped k rfl rfl (Left.of_stages rfl rfl (stage?_setStage (lt_length_of_stage? hs) _))
  | invalidated => exact .invalidated rfl rfl fun _ => rfl
  | passed time =>
    exact .aside rfl rfl (fun _ _ => Iff.rfl) (fun _ => id) (by simp) (by simp)

/-! ### Callers who fetch -/

/-- The fetch of the caller has begun and is not over, and the caller is still there. -/
def InFlight (past : List (Event ε φ α)) (k : Nat) : Prop :=
  .fetch k ∈ past ∧ (∀ result, .fetched k result ∉ past) ∧ .dropped k ∉ past

/-- Nothing was told of a fetch of the caller. -/
def Untold (past : List (Event ε φ α)) (k : Nat) : Prop :=
  ∀ event ∈ past, event.fetcher? ≠ some k

def Event.fetch? : Event ε φ α → Option Nat
  | .fetch k => some k
  | _ => none

/-- The fetches that were begun, by caller. -/
def fetchesIn (past : List (Event ε φ α)) : List Nat := past.filterMap Event.fetch?

theorem mem_fetchesIn {k : Nat} : k ∈ fetchesIn past ↔ .fetch k ∈ past := by
  rw [fetchesIn, List.mem_filterMap]
  constructor
  · rintro ⟨event, hmem, hk⟩
    cases event <;> cases hk
    exact hmem
  · intro h
    exact ⟨_, h, rfl⟩

theorem fetchesIn_append (h : ∀ event ∈ events, event.fetch? = none) :
    fetchesIn (past ++ events) = fetchesIn past := by
  rw [fetchesIn, List.filterMap_append, List.filterMap_eq_nil_iff.mpr h, List.append_nil, fetchesIn]

theorem fetch?_of_fetcher? (h : ∀ event ∈ events, event.fetcher? = none) :
    ∀ event ∈ events, event.fetch? = none := by
  intro event hmem
  have hnone := h event hmem
  cases event <;> first | rfl | cases hnone

theorem Talk.fetch? (h : Talk events) : ∀ event ∈ events, event.fetch? = none :=
  fetch?_of_fetcher? h.fetcher?

theorem Untold.inFlight_append {k : Nat} (h : Untold events k) :
    InFlight (past ++ events) k ↔ InFlight past k := by
  have hf : .fetch k ∉ events := fun hmem => h _ hmem rfl
  have hr : ∀ r, .fetched k r ∉ events := fun r hmem => h _ hmem rfl
  have hd : .dropped k ∉ events := fun hmem => h _ hmem rfl
  simp [InFlight, hf, hr, hd]

theorem Untold.append {k : Nat} (h : Untold past k) (he : Untold events k) :
    Untold (past ++ events) k := by
  intro event hmem
  rcases List.mem_append.mp hmem with hmem | hmem
  · exact h event hmem
  · exact he event hmem

/-- What was seen of a run tells which callers fetch. -/
structure Logged (a : Access ε φ α) (past : List (Event ε φ α)) : Prop where
  waiting : ∀ k, a.IsWaiting k → Untold past k
  fetching : ∀ k, InFlight past k ↔ ∃ epoch, a.IsFetching k epoch
  once : (fetchesIn past).Nodup
  /-- A fetch is made in the present epoch or an earlier one. -/
  epochs : ∀ k epoch, a.IsFetching k epoch → epoch ≤ a.epoch

namespace Logged

theorem new (start : Timestamp) : Logged (new start : Access ε φ α) [] where
  waiting := by simp [Untold]
  fetching := by simp [InFlight, IsFetching, Access.new, stage?]
  once := List.nodup_nil
  epochs := by simp [IsFetching, Access.new, stage?]

theorem left (h : Logged a past) {k : Nat} (hl : Left a b k) (he : b.epoch = a.epoch)
    (hover : (∃ result, .fetched k result ∈ events) ∨ .dropped k ∈ events)
    (hothers : ∀ event ∈ events, event.fetcher? = none ∨ event.fetcher? = some k)
    (hno : ∀ event ∈ events, event.fetch? = none) : Logged b (past ++ events) := by
  have untold : ∀ j, j ≠ k → Untold events j := by
    intro j hj event hmem heq
    rcases hothers event hmem with hnone | hsome
    · rw [hnone] at heq
      cases heq
    · rw [hsome] at heq
      exact hj (Option.some.inj heq).symm
  refine ⟨?_, ?_, ?_, ?_⟩
  · intro j hw
    by_cases hj : j = k
    · exact absurd (hj ▸ hw) hl.begun
    · exact (h.waiting j (hl.waiting j hj hw)).append (untold j hj)
  · intro j
    by_cases hj : j = k
    · rw [hj]
      refine iff_of_false ?_ fun ⟨epoch, hf⟩ => hl.finished epoch hf
      rintro ⟨-, hr, hd⟩
      rcases hover with ⟨result, hmem⟩ | hmem
      · exact hr result (List.mem_append_right past hmem)
      · exact hd (List.mem_append_right past hmem)
    · rw [(untold j hj).inFlight_append, h.fetching j]
      simp only [hl.fetching j hj]
  · rw [fetchesIn_append hno]
    exact h.once
  · intro j epoch hf
    rw [he]
    by_cases hj : j = k
    · exact absurd (hj ▸ hf) (hl.finished epoch)
    · exact h.epochs j epoch ((hl.fetching j hj epoch).mp hf)

theorem quiet (h : Logged a past) (he : a.epoch ≤ b.epoch)
    (hf : ∀ k epoch, b.IsFetching k epoch ↔ a.IsFetching k epoch)
    (hw : ∀ k, b.IsWaiting k → a.IsWaiting k) (hev : ∀ event ∈ events, event.fetcher? = none) :
    Logged b (past ++ events) := by
  have untold : ∀ k, Untold events k := by
    intro k event hmem heq
    rw [hev event hmem] at heq
    cases heq
  refine ⟨fun k hk => (h.waiting k (hw k hk)).append (untold k), ?_, ?_, ?_⟩
  · intro k
    rw [(untold k).inFlight_append, h.fetching k]
    simp only [hf]
  · rw [fetchesIn_append (fetch?_of_fetcher? hev)]
    exact h.once
  · intro k epoch hk
    exact Nat.le_trans (h.epochs k epoch ((hf k epoch).mp hk)) he

theorem fetch (h : Logged a past) {k : Nat} (he : b.epoch = a.epoch)
    (hs : a.stage? k = some .granted)
    (hstages : ∀ j, b.stage? j = if j = k then some (.fetching a.epoch) else a.stage? j) :
    Logged b (past ++ [.fetch k]) := by
  have hwaiting : a.IsWaiting k := by
    intro stage hk
    rw [hs] at hk
    cases hk
    rfl
  have hfresh := h.waiting k hwaiting
  have untold : ∀ j, j ≠ k → Untold [(.fetch k : Event ε φ α)] j := by
    simp [Untold, Event.fetcher?, eq_comm]
  refine ⟨?_, ?_, ?_, ?_⟩
  · intro j hw
    by_cases hj : j = k
    · have hno := hw (.fetching a.epoch) (by rw [hstages, if_pos hj])
      cases hno
    · refine (h.waiting j fun stage hk => hw stage ?_).append (untold j hj)
      rw [hstages, if_neg hj, hk]
  · intro j
    by_cases hj : j = k
    · rw [hj]
      refine iff_of_true ?_ ⟨a.epoch, by rw [IsFetching, hstages, if_pos rfl]⟩
      refine ⟨by simp, ?_, ?_⟩
      · intro r hmem
        exact (hfresh _ (by simpa using hmem)) rfl
      · intro hmem
        exact (hfresh _ (by simpa using hmem)) rfl
    · rw [(untold j hj).inFlight_append, h.fetching j]
      simp only [IsFetching, hstages, if_neg hj]
  · rw [fetchesIn, List.filterMap_append]
    refine List.nodup_append.mpr ⟨h.once, by simp [Event.fetch?], ?_⟩
    intro j hj l hl heq
    have hlk : l = k := by simpa [Event.fetch?] using hl
    rw [heq, hlk, ← fetchesIn, mem_fetchesIn] at hj
    exact hfresh _ hj rfl
  · intro j epoch hf
    rw [IsFetching, hstages] at hf
    rw [he]
    split at hf
    · cases hf
      exact Nat.le_refl _
    · exact h.epochs j epoch hf

theorem supply (h : Logged a past) (s : Supply a b events) : Logged b (past ++ events) := by
  cases s with
  | aside _ he hf hw hev _ => exact h.quiet (Nat.le_of_eq he.symm) hf hw hev
  | fetch k _ he hs hstages => exact h.fetch he hs hstages
  | fetched k epoch t hs _ he hl hmore =>
    refine h.left hl he (Or.inl ⟨.ok t, by simp⟩) ?_ ?_
    · intro event hmem
      simp only [List.mem_cons] at hmem
      rcases hmem with rfl | rfl | hmem
      · exact Or.inr rfl
      · exact Or.inl rfl
      · exact Or.inl (hmore.fetcher? event hmem)
    · intro event hmem
      simp only [List.mem_cons] at hmem
      rcases hmem with rfl | rfl | hmem
      · rfl
      · rfl
      · exact hmore.fetch? event hmem
  | failed k epoch e hs _ he hl hmore =>
    refine h.left hl he (Or.inl ⟨.error e, by simp⟩) ?_ ?_
    · intro event hmem
      rcases List.mem_cons.mp hmem with rfl | hmem
      · exact Or.inr rfl
      · exact Or.inl (hmore.fetcher? event hmem)
    · intro event hmem
      rcases List.mem_cons.mp hmem with rfl | hmem
      · rfl
      · exact hmore.fetch? event hmem
  | dropped k _ he hl =>
    exact h.left hl he (Or.inr (by simp)) (by simp [Event.fetcher?]) (by simp [Event.fetch?])
  | invalidated _ he hs =>
    refine h.quiet (Nat.le_of_lt (Nat.lt_of_succ_le (Nat.le_of_eq he.symm))) ?_ ?_ ?_
    · intro k epoch
      rw [IsFetching, hs, IsFetching]
    · exact fun k hw stage hk => hw stage ((hs k).trans hk)
    · simp [Event.fetcher?]

end Logged

/-! ### Tokens that are shown -/

/-- Whoever shows a token has obtained it. -/
structure Backed (events : List (Event ε φ α)) : Prop where
  requested : ∀ c t, .requested c t ∈ events → .obtained c t ∈ events
  token : ∀ c t, .returned c (.token (.ok t)) ∈ events → .obtained c t ∈ events
  header : ∀ c text, .returned c (.header (.ok text)) ∈ events →
    ∃ t, .obtained c t ∈ events ∧ text = t.header

namespace Backed

theorem nil : Backed ([] : List (Event ε φ α)) := ⟨by simp, by simp, by simp⟩

theorem append {more : List (Event ε φ α)} (h : Backed events) (hm : Backed more) :
    Backed (events ++ more) where
  requested c t hmem := by
    rw [List.mem_append] at hmem ⊢
    exact hmem.imp (h.requested c t) (hm.requested c t)
  token c t hmem := by
    rw [List.mem_append] at hmem ⊢
    exact hmem.imp (h.token c t) (hm.token c t)
  header c text hmem := by
    rcases List.mem_append.mp hmem with hmem | hmem
    · obtain ⟨t, ht, htext⟩ := h.header c text hmem
      exact ⟨t, List.mem_append_left more ht, htext⟩
    · obtain ⟨t, ht, htext⟩ := hm.header c text hmem
      exact ⟨t, List.mem_append_right events ht, htext⟩

theorem given (purpose : Purpose) (k : Nat) (t : Token) :
    Backed (.obtained k t :: purpose.given k t : List (Event ε φ α)) := by
  cases purpose <;> exact ⟨by simp [Purpose.given], by simp [Purpose.given], by simp [Purpose.given]⟩

theorem inspect (F : Family ε φ) (k executor : Nat) (text : String) :
    Backed (Access.inspect F k executor text : List (Event ε φ α)) := by
  unfold Access.inspect
  split
  · split <;> exact ⟨by simp, by simp, by simp⟩
  · exact nil

theorem complaints (F : Family ε φ) (purpose : Purpose) (k : Nat) (e : ε) :
    Backed (purpose.complaints F k e : List (Event ε φ α)) := by
  cases purpose with
  | token => exact nil
  | header executor => exact inspect F k executor _
  | request executor => exact inspect F k executor _

theorem verdictOn (F : Family ε φ) (k executor : Nat) (result : Except φ α) :
    Backed (Auth.verdictOn F k executor result) := by
  cases result with
  | ok value => exact nil
  | error e => exact inspect F k executor _

theorem move (m : Move F a b events) : Backed events := by
  -- whatever else is told of a move shows no token
  have still : ∀ event : Event ε φ α, (∀ c t, event ≠ .requested c t) →
      (∀ c t, event ≠ .returned c (.token (.ok t))) →
      (∀ c text, event ≠ .returned c (.header (.ok text))) → Backed [event] := by
    intro event h₁ h₂ h₃
    refine ⟨?_, ?_, ?_⟩
    · exact fun c t hmem => absurd (List.mem_singleton.mp hmem).symm (h₁ c t)
    · exact fun c t hmem => absurd (List.mem_singleton.mp hmem).symm (h₂ c t)
    · exact fun c text hmem => absurd (List.mem_singleton.mp hmem).symm (h₃ c text)
  have failing : ∀ (purpose : Purpose) (k : Nat) (e : ε),
      Backed [(.returned k (purpose.failure F e) : Event ε φ α)] := by
    intro purpose k e
    cases purpose <;> exact still _ (by simp) (by simp [Purpose.failure]) (by simp [Purpose.failure])
  cases m with
  | served purpose t _ => exact (still _ (by simp) (by simp) (by simp)).append (given purpose _ t)
  | admitted purpose _ _ => exact still _ (by simp) (by simp) (by simp)
  | queued purpose _ _ _ => exact still _ (by simp) (by simp) (by simp)
  | found k purpose t _ _ => exact given purpose k t
  | fetch k purpose _ _ => exact still _ (by simp) (by simp) (by simp)
  | fetched k epoch purpose t _ =>
    exact (still _ (by simp) (by simp) (by simp)).append (given purpose k t)
  | failed k epoch purpose e _ =>
    exact (still _ (by simp) (by simp) (by simp)).append
      ((complaints F purpose k e).append (failing purpose k e))
  | answered k executor t result _ =>
    exact (verdictOn F k executor result).append (still _ (by simp) (by simp) (by simp))
  | left k _ => exact still _ (by simp) (by simp) (by simp)
  | yielded k stage _ _ => exact still _ (by simp) (by simp) (by simp)
  | abandoned k t _ => exact still _ (by simp) (by simp) (by simp)
  | invalidated => exact still _ (by simp) (by simp) (by simp)
  | passed time => exact nil

end Backed

end IntentLoop.Auth.Access
