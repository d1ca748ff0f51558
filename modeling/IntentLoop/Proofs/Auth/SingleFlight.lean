import IntentLoop.Proofs.Auth.Acts
import IntentLoop.Proofs.Auth.Barrier
/-!
# One fetch at a time

A fetch is made by the caller that has the turn, and only if it has found that no usable token is
stored. Nothing that can happen before the fetch is over makes a token usable: an invalidation takes
the stored token away, a token that has expired stays so because the clock does not go backwards, and
a token is stored by the caller of the fetch only, at its end (`Dry.move`). So whoever finds a usable
token finds it while nobody fetches, and takes it at once.

The turn itself is never lost (`Orderly`): callers that wait for it, that were just given it, or that
fetch may go away at any time, and the next one in line has it from then on.
-/

namespace IntentLoop.Auth.Access

open History (seen)

variable {ε φ α : Type} {F : Family ε φ} {a b : Access ε φ α} {caller : Nat}
  {events : List (Event ε φ α)}

/-! ### Usable tokens -/

theorem usable_eq_some_iff {t : Token} :
    a.usable = some t ↔ a.token = some t ∧ t.isExpiredAt a.wallClock = false := by
  rw [usable, Option.filter_eq_some_iff, Bool.not_eq_true']

theorem usable_eq_none_iff :
    a.usable = none ↔ ∀ t, a.token = some t → t.isExpiredAt a.wallClock = true := by
  simp only [usable, Option.filter_eq_none_iff, Bool.not_eq_true', Bool.not_eq_false]

theorem hasToken_eq_false_iff : a.hasToken = false ↔ a.usable = none := by
  rw [hasToken, Option.isSome_eq_false_iff, Option.isNone_iff_eq_none]

theorem passTurn_wallClock (a : Access ε φ α) : a.passTurn.wallClock = a.wallClock := by
  unfold passTurn
  cases a.line <;> rfl

theorem store_wallClock (epoch : Nat) (t : Token) (a : Access ε φ α) :
    (a.store epoch t).wallClock = a.wallClock := by
  unfold store
  split <;> rfl

theorem Move.wallClock_le (m : Move F a b events) : a.wallClock.le b.wallClock := by
  have same : ∀ {c : Access ε φ α}, c.wallClock = a.wallClock → a.wallClock.le c.wallClock := by
    intro c hc
    rw [hc]
    exact Timestamp.le_refl _
  cases m with
  | served | admitted | queued | fetch | answered | left | abandoned | invalidated => exact same rfl
  | found caller purpose t hc hu => exact same a.passTurn_wallClock
  | failed caller epoch purpose e hc => exact same a.passTurn_wallClock
  | fetched caller epoch purpose t hc =>
    exact same ((passTurn_wallClock _).trans (store_wallClock epoch t a))
  | yielded caller stage hs hold => exact same (passTurn_wallClock _)
  | passed time => exact Timestamp.le_add _ _

theorem usable_eq_none_of_le (ht : b.token = a.token) (hclock : a.wallClock.le b.wallClock)
    (h : a.usable = none) : b.usable = none := by
  rw [usable_eq_none_iff] at h ⊢
  intro t hb
  exact t.isExpiredAt_mono hclock (h t (ht ▸ hb))

/-! ### No usable token while anyone fetches -/

/-- A fetch is begun only if no usable token is stored. -/
theorem Move.usable_of_fetch (m : Move F a b events) {k : Nat} (hk : .fetch k ∈ events) :
    a.usable = none := by
  have silent : ∀ {more : List (Event ε φ α)}, Talk more → .fetch k ∉ more :=
    fun htalk hmem => by cases htalk _ hmem
  cases m with
  | fetch caller purpose hc hu => exact hu
  | admitted purpose hu ht => exact hu
  | queued purpose holder hu ht => exact hu
  | served purpose t hu =>
    exact absurd (by simpa using hk) (silent (given_talk purpose a.callers.length t))
  | found caller purpose t hc hu =>
    exact absurd (by simpa using hk) (silent (given_talk purpose caller t))
  | fetched caller epoch purpose t hc =>
    exact absurd (by simpa using hk) (silent (given_talk purpose caller t))
  | failed caller epoch purpose e hc =>
    exact absurd (by simpa using hk) (silent (complaints_talk F purpose caller e))
  | answered caller executor t result hc =>
    exact absurd (by simpa using hk) (silent (verdictOn_talk F caller executor result))
  | left | yielded | abandoned | invalidated | passed => simp at hk

/-- While anyone fetches, no usable token is stored. -/
def Dry (a : Access ε φ α) : Prop := ∀ k epoch, a.IsFetching k epoch → a.usable = none

theorem Dry.new (start : Timestamp) : Dry (new start : Access ε φ α) := fun _ _ _ => rfl

theorem Left.none_fetching (ho : Orderly a) {k epoch : Nat} (hk : a.IsFetching k epoch)
    (hl : Left a b k) (j epoch' : Nat) : ¬b.IsFetching j epoch' := by
  intro hj
  by_cases hjk : j = k
  · exact hl.finished epoch' (hjk ▸ hj)
  · have hj' : a.IsFetching j epoch' := (hl.fetching j hjk epoch').mp hj
    exact hjk (ho.holder_unique hj' rfl hk rfl)

/-- **Nothing makes a token usable before a fetch is over.** -/
theorem Dry.move (ho : Orderly a) (h : Dry a) (m : Move F a b events) : Dry b := by
  have hclock := m.wallClock_le
  intro j epoch hj
  cases hs : m.supply ho with
  | aside ht he hf hw hev hobtained =>
    exact usable_eq_none_of_le ht hclock (h j epoch ((hf j epoch).mp hj))
  | fetch k ht he hgranted hstages =>
    exact usable_eq_none_of_le ht hclock (m.usable_of_fetch (k := k) (by simp))
  | fetched k epoch' t hk ht he hl hmore => exact absurd hj (hl.none_fetching ho hk j epoch)
  | failed k epoch' e hk ht he hl hmore => exact absurd hj (hl.none_fetching ho hk j epoch)
  | dropped k ht he hl =>
    have hjk : j ≠ k := by
      rintro rfl
      exact hl.finished epoch hj
    exact usable_eq_none_of_le ht hclock (h j epoch ((hl.fetching j hjk epoch).mp hj))
  | invalidated ht he hstages => rw [usable, ht]; rfl

theorem dry_run (F : Family ε φ) (start : Timestamp) (acts : List (Act ε φ α)) :
    Dry (run F start acts).1 := by
  refine (runFrom_induct_seen (P := fun a _ => Orderly a ∧ Dry a) ⟨.new start, .new start⟩ ?_ acts).2
  intro a past b events ⟨ho, h⟩ m
  exact ⟨ho.move m, h.move ho m⟩

/-! ### Callers that find a token -/

theorem not_isWaiting_of_stage? {stage : Stage ε φ α} (hs : a.stage? caller = some stage)
    (hw : stage.isWaiting = false) : ¬a.IsWaiting caller := by
  intro hwaiting
  rw [hwaiting stage hs] at hw
  cases hw

theorem obtained_of_begin (F : Family ε φ) (purpose : Purpose) {t : Token} (h : a.usable = some t) :
    .obtained a.callers.length t ∈ (a.step F (.begin purpose)).2 ∧
      ¬(a.step F (.begin purpose)).1.IsWaiting a.callers.length := by
  show .obtained a.callers.length t ∈ (a.begin purpose).2 ∧
    ¬(a.begin purpose).1.IsWaiting a.callers.length
  rw [begin_of_usable purpose h]
  refine ⟨by simp, not_isWaiting_of_stage? ?_ (purpose.stageWith_isWaiting t)⟩
  rw [stage?_join, if_pos rfl]

theorem obtained_of_resume (F : Family ε φ) {t : Token} (hs : a.stage? caller = some .granted)
    (h : a.usable = some t) :
    .obtained caller t ∈ (a.step F (.resume caller)).2 ∧
      ¬(a.step F (.resume caller)).1.IsWaiting caller := by
  obtain ⟨⟨purpose, stage⟩, hc, hstage⟩ := Option.map_eq_some_iff.mp hs
  cases hstage
  show .obtained caller t ∈ (a.resume caller).2 ∧ ¬(a.resume caller).1.IsWaiting caller
  rw [resume_of_usable hc h]
  refine ⟨by simp, not_isWaiting_of_stage? ?_ (purpose.stageWith_isWaiting t)⟩
  have hlt : caller < a.passTurn.callers.length := a.passTurn_length ▸ lt_length_of_stage? hs
  rw [stage?_setStage hlt, if_pos rfl]

/-! ### Callers that go away, and fetches that fail -/

theorem drop_keeps (caller : Nat) (a : Access ε φ α) :
    (a.drop caller).1.token = a.token ∧ (a.drop caller).1.epoch = a.epoch := by
  unfold drop
  dsimp only
  split
  · exact ⟨rfl, rfl⟩
  · exact ⟨passTurn_token _, passTurn_epoch _⟩
  · exact ⟨passTurn_token _, passTurn_epoch _⟩
  · exact ⟨rfl, rfl⟩
  · exact ⟨rfl, rfl⟩

theorem fetched_error_keeps (F : Family ε φ) (caller : Nat) (e : ε) (a : Access ε φ α) :
    (a.fetched F caller (.error e)).1.token = a.token ∧
      (a.fetched F caller (.error e)).1.epoch = a.epoch := by
  unfold fetched
  split
  · dsimp only
    rw [fail_eq]
    exact ⟨a.passTurn_token, a.passTurn_epoch⟩
  · exact ⟨rfl, rfl⟩

/-! ### At every moment of a run -/

/-- Fetches, the turn and the stored token at one moment. -/
structure SingleFlight (F : Family ε φ) (a : Access ε φ α) (past : List (Event ε φ α)) : Prop where
  /-- At most one fetch is in flight. -/
  one : ∀ k l, InFlight past k → InFlight past l → k = l
  /-- It is the fetch of a caller that is there and has the turn, and no usable token is stored. -/
  held : ∀ k, InFlight past k →
    a.turn = some k ∧ (∃ epoch, a.stage? k = some (.fetching epoch)) ∧ a.hasToken = false
  /-- Whoever has the turn fetches, or has just been given it. -/
  holder : ∀ k, a.turn = some k →
    a.stage? k = some .granted ∨ ∃ epoch, a.stage? k = some (.fetching epoch)
  /-- Nobody waits for a turn that nobody has. -/
  awaited : ∀ c, a.stage? c = some .queued → ∃ k, a.turn = some k
  /-- No fetch is begun while a usable token is stored. -/
  needed : ∀ act k, .fetch k ∈ (a.step F act).2 → a.hasToken = false
  /-- A caller that finds a usable token does not wait for anything. -/
  prompt : ∀ t, a.usable = some t →
    (∀ purpose, .obtained a.callers.length t ∈ (a.step F (.begin purpose)).2 ∧
      ¬(a.step F (.begin purpose)).1.IsWaiting a.callers.length) ∧
    ∀ c, a.stage? c = some .granted →
      .obtained c t ∈ (a.step F (.resume c)).2 ∧ ¬(a.step F (.resume c)).1.IsWaiting c
  /-- A caller that goes away, or whose fetch fails, leaves the stored token and the epoch alone. -/
  kept : ∀ act, (∃ c, act = .drop c) ∨ (∃ c e, act = .fetched c (.error e)) →
    (a.step F act).1.token = a.token ∧ (a.step F act).1.epoch = a.epoch

/-- **Fetches are made one at a time, by the caller that has the turn, and only when they are
needed.** This holds at every moment of every run, in whatever order callers come, wait, fetch and go
away, fetches fail, tokens expire and invalidations are made. -/
theorem singleFlight_run (F : Family ε φ) (start : Timestamp) (acts : List (Act ε φ α)) :
    SingleFlight F (run F start acts).1 (seen (run F start acts).2) := by
  obtain ⟨ho, hl⟩ := logged_run F start acts
  have hdry := dry_run F start acts
  generalize (run F start acts).1 = a at ho hl hdry ⊢
  generalize seen (run F start acts).2 = past at hl ⊢
  refine ⟨?_, ?_, ?_, ?_, ?_, ?_, ?_⟩
  · intro k l hk hl'
    obtain ⟨_, hk⟩ := (hl.fetching k).mp hk
    obtain ⟨_, hl'⟩ := (hl.fetching l).mp hl'
    exact ho.holder_unique hk rfl hl' rfl
  · intro k hk
    obtain ⟨epoch, hk⟩ := (hl.fetching k).mp hk
    exact ⟨(ho.holder k).mpr ⟨_, hk, rfl⟩, ⟨epoch, hk⟩, hasToken_eq_false_iff.mpr (hdry k epoch hk)⟩
  · intro k hk
    obtain ⟨stage, hs, hold⟩ := (ho.holder k).mp hk
    cases stage with
    | granted => exact Or.inl hs
    | fetching epoch => exact Or.inr ⟨epoch, hs⟩
    | queued | requesting | returned | dropped => cases hold
  · intro c hc
    refine Option.ne_none_iff_exists'.mp fun hnone => ?_
    have hmem := (ho.line c).mpr hc
    rw [ho.idle hnone] at hmem
    cases hmem
  · intro act k hk
    rcases a.step_move F act with hnone | hmove
    · rw [hnone] at hk
      cases hk
    · exact hasToken_eq_false_iff.mpr (hmove.usable_of_fetch hk)
  · exact fun t ht =>
      ⟨fun purpose => obtained_of_begin F purpose ht, fun c hc => obtained_of_resume F hc ht⟩
  · rintro act (⟨c, rfl⟩ | ⟨c, e, rfl⟩)
    · exact a.drop_keeps c
    · exact fetched_error_keeps F c e a

-- the caller that fetches goes away, and the one that is given the turn does so before it moves
example :
    (run plain { secs := 0 } ([.begin .token, .resume 0, .begin .token, .begin .token, .drop 0, .drop 1,
      .resume 2] : List (Act Unit Unit Unit))).1.turn = some 2 := by decide

end IntentLoop.Auth.Access
