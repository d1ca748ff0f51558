import Mathlib.Data.List.Chain
import IntentLoop.Proofs.Poll.Rounds
import IntentLoop.Schedule
/-!
# The pace of a session, and its end

Between two rounds a session waits. The wait begins when the matcher has answered, and it is over when the
timer says so; how exactly that keeps the interval of the session is a matter of the timer
(`Timer.Keeps`). That the next fetch does not come later than that is a matter of those who let the time
pass (`Prompt`).

* `Timed`: the waits of a session that are over, and the one it is in.
* `course_run`: in every run a session is on its course.
* `Specified`: what the rounds of a session say of it, stage by stage.
* `session_follows_rounds`: and so it is.
-/

namespace IntentLoop.Poll

open History (seen)

variable {ε α : Type}

namespace Poller

variable {T : Terms α} {i : Nat} {acts : List (Act ε α)} {act : Act ε α} {budget : Nat}
  {results : Nat → Except ε α} {interval : Duration} {s : Session ε α}

/-! ### Waits -/

/-- No time passes beyond the end of a wait of session `i` before the session makes its next fetch. -/
def Prompt (T : Terms α) (i : Nat) (acts : List (Act ε α)) : Prop :=
  ∀ before time after, acts = before ++ Act.pass time :: after →
    ∀ due, (run T before).1.due? i = some due → (run T before).1.now + time ≤ due

/-- A fetch that is told next after a value was looked at comes when the wait is over, and not later if
the run is prompt. -/
def Spaced (timer : Timer) (interval : Duration) (prompt : Prop) (first next : Duration × Event ε α) :
    Prop :=
  ∀ i value, first.2 = .evaluated i value → next.2 = .fetch i →
    timer.due first.1 interval ≤ next.1 ∧ (prompt → next.1 = timer.due first.1 interval)

/-- How long session `i` has waited, and how long it waits now. -/
structure Timed (T : Terms α) (i : Nat) (acts : List (Act ε α)) (interval : Duration) : Prop where
  chain : (told i (run T acts).2).IsChain (Spaced T.timer interval (Prompt T i acts))
  waiting : ∀ value due, ((run T acts).1.stage? i = some (.waiting value due) ∨
      (run T acts).1.stage? i = some (.cleared value due)) →
    ∃ time, (told i (run T acts).2).getLast? = some (time, .evaluated i value) ∧
      due = T.timer.due time interval ∧ (Prompt T i acts → (run T acts).1.now ≤ due)

theorem Prompt.init (h : Prompt T i (acts ++ [act])) : Prompt T i acts := by
  rintro before time after rfl
  exact h before time (after ++ [act]) (by simp)

theorem due?_of_waiting {p : Poller ε α} {value : α} {due : Duration}
    (h : p.stage? i = some (.waiting value due) ∨ p.stage? i = some (.cleared value due)) :
    p.due? i = some due := by
  unfold due?
  rcases h with h | h <;> rw [h]

theorem now_concat (T : Terms α) (acts : List (Act ε α)) (act : Act ε α) :
    (run T (acts ++ [act])).1.now = (run T acts).1.now ∨
      ∃ time, act = .pass time ∧ (run T (acts ++ [act])).1.now = (run T acts).1.now + time := by
  have moved : ∀ (j : Nat) (f : Bool → Session ε α → Session ε α × List (Event ε α)),
      (((run T acts).1.lane 0).moveAt 0 j f).1.now = (run T acts).1.now := by
    intro j f
    unfold Lane.moveAt Lane.move
    split
    · split <;> rfl
    · rfl
  have hlane : (run T (acts ++ [act])).1.now =
      (((run T acts).1.lane 0).step T 0 act).1.now :=
    congrArg Lane.now (lane_run_concat T acts act 0).1
  rw [hlane]
  cases act with
  | start interval retries =>
    left
    unfold Lane.step
    dsimp only
    split <;> rfl
  | proceed j | fetched j | matched j | look j | drop j => exact Or.inl (moved j _)
  | cancel => exact Or.inl rfl
  | pass time => exact Or.inr ⟨time, rfl, rfl⟩

theorem chain_imp {P Q : Prop} {timer : Timer} {past : List (Duration × Event ε α)}
    (h : past.IsChain (Spaced timer interval P)) (hQ : Q → P) :
    past.IsChain (Spaced timer interval Q) := by
  refine h.imp fun a b hab j value ha hb => ?_
  exact ⟨(hab j value ha hb).1, fun hq => (hab j value ha hb).2 (hQ hq)⟩

theorem chain_append {P Q : Prop} {timer : Timer} {past more : List (Duration × Event ε α)}
    (h : past.IsChain (Spaced timer interval P)) (hQ : Q → P)
    (hno : ∀ e ∈ more, ∀ j, e.2 ≠ .fetch j) :
    (past ++ more).IsChain (Spaced timer interval Q) := by
  have hvacuous : ∀ a, ∀ b ∈ more, Spaced timer interval Q a b :=
    fun a b hb j _ _ hf => absurd hf (hno b hb j)
  refine List.isChain_append.mpr
    ⟨chain_imp h hQ, ?_, fun a _ b hb => hvacuous a b (List.mem_of_mem_head? hb)⟩
  exact (List.pairwise_of_forall_mem_list fun a _ b hb => hvacuous a b hb).isChain

theorem stage?_of_session? {p : Poller ε α} (hs : p.session? i = some s) :
    p.stage? i = some s.stage := by
  rw [stage?, hs]
  rfl

namespace Timed

variable (h : Timed T i acts interval)

include h

/-- A wait that is not over goes on, and one that is over has been noticed. -/
theorem still
    (hstage : ∀ value due, ((run T (acts ++ [act])).1.stage? i = some (.waiting value due) ∨
        (run T (acts ++ [act])).1.stage? i = some (.cleared value due)) →
      ((run T acts).1.stage? i = some (.waiting value due) ∨
        (run T acts).1.stage? i = some (.cleared value due)))
    (htold : told i (run T (acts ++ [act])).2 = told i (run T acts).2) :
    Timed T i (acts ++ [act]) interval where
  chain := by
    rw [htold]
    exact chain_imp h.chain Prompt.init
  waiting value due hw := by
    have hw' := hstage value due hw
    obtain ⟨time, hlast, hdue, hnow⟩ := h.waiting value due hw'
    refine ⟨time, htold ▸ hlast, hdue, fun hprompt => ?_⟩
    rcases now_concat T acts act with hsame | ⟨pass, rfl, hmore⟩
    · exact hsame ▸ hnow hprompt.init
    · rw [hmore]
      exact hprompt acts pass [] (by simp) due (due?_of_waiting hw')

/-- The session does not wait any more, and it makes no fetch. -/
theorem leave {events : List (Event ε α)} {stage : Stage ε α}
    (hs : (run T (acts ++ [act])).1.session? i = some { s with stage })
    (htold : told i (run T (acts ++ [act])).2 =
      told i (run T acts).2 ++ events.map ((run T acts).1.now, ·))
    (hno : ∀ e ∈ events, ∀ j, e ≠ .fetch j)
    (hstage : ∀ value due, stage ≠ .waiting value due ∧ stage ≠ .cleared value due) :
    Timed T i (acts ++ [act]) interval where
  chain := by
    rw [htold]
    refine chain_append h.chain Prompt.init fun e he j => ?_
    obtain ⟨event, hmem, rfl⟩ := List.mem_map.mp he
    exact hno event hmem j
  waiting value due hw := by
    rw [stage?_of_session? hs, Option.some.injEq, Option.some.injEq] at hw
    exact hw.elim (fun hw => absurd hw (hstage value due).1) fun hw => absurd hw (hstage value due).2

theorem wait {value : α} (hi : s.interval = interval)
    (hs : (run T (acts ++ [Act.matched i])).1.session? i =
      some { s with stage := .waiting value (T.timer.due (run T acts).1.now s.interval) })
    (htold : told i (run T (acts ++ [Act.matched i])).2 =
      told i (run T acts).2 ++ [((run T acts).1.now, .evaluated i value)]) :
    Timed T i (acts ++ [Act.matched i]) interval := by
  constructor
  case chain =>
    rw [htold]
    exact chain_append h.chain Prompt.init (by simp)
  case waiting =>
    intro value' due hw
    rw [stage?_of_session? hs] at hw
    rcases hw with hw | hw <;> cases hw
    refine ⟨(run T acts).1.now, ?_, congrArg _ hi, fun _ => ?_⟩
    · rw [htold, List.getLast?_concat]
    · rcases now_concat T acts (.matched i) with hsame | ⟨_, hact, -⟩
      · rw [hsame]
        exact T.timer.le_due _ _
      · cases hact

/-- The session makes its next fetch, and its wait was over if it waited. -/
theorem fetch
    (hwait : ∀ time value, (told i (run T acts).2).getLast? = some (time, .evaluated i value) →
      ∃ due, (run T acts).1.stage? i = some (.cleared value due) ∧ due ≤ (run T acts).1.now)
    (hs : (run T (acts ++ [Act.proceed i])).1.session? i = some (s.fetch i).1)
    (htold : told i (run T (acts ++ [Act.proceed i])).2 =
      told i (run T acts).2 ++ [((run T acts).1.now, .fetch i)]) :
    Timed T i (acts ++ [Act.proceed i]) interval := by
  constructor
  case chain =>
    rw [htold]
    refine List.isChain_append.mpr ⟨?_, List.isChain_singleton _, ?_⟩
    · exact chain_imp h.chain Prompt.init
    · intro first hfirst next hnext j value hev hf
      cases hnext
      obtain rfl : i = j := Event.fetch.inj hf
      obtain ⟨due, hstage, hdue⟩ :=
        hwait first.1 value (by rw [← hev]; exact hfirst)
      obtain ⟨time, hlast, rfl, hnow⟩ := h.waiting value due (Or.inr hstage)
      obtain rfl : first = (time, .evaluated i value) := Option.some.inj (hfirst.symm.trans hlast)
      exact ⟨hdue, fun hprompt => Nat.le_antisymm (hnow hprompt.init) hdue⟩
  case waiting =>
    intro value due hw
    rw [stage?_of_session? hs] at hw
    rcases hw with hw | hw <;> cases hw

end Timed

/-- Every act keeps what is known of the waits of a session that is on its course. -/
theorem Timed.step (h : Timed T i acts interval) (hc : Course T i budget results acts interval s)
    (act : Act ε α) : Timed T i (acts ++ [act]) interval := by
  have hstage := hc.stage_eq
  cases hlive : s.isLive with
  | false =>
    obtain ⟨hsame, htold⟩ := over_concat hc.session hlive act
    refine h.still (fun value due hw => ?_) htold
    rw [stage?_of_session? hsame] at hw
    exact hstage ▸ hw
  | true =>
  obtain ⟨raised, after, hacted, -, hs, htold⟩ := acted_concat hc.session hlive act
  cases hacted with
  | still =>
    refine h.still (fun value due hw => ?_) (htold.trans (List.append_nil _))
    rw [stage?_of_session? hs] at hw
    exact hstage ▸ hw
  | early value due hw =>
    refine h.still (fun v d hnew => Or.inr ?_) (htold.trans (List.append_nil _))
    rw [stage?_of_session? hs] at hnew
    rcases hnew with hnew | hnew <;> cases hnew
    exact hw ▸ hstage
  | clears value due hw =>
    refine h.still (fun v d hnew => Or.inl ?_) (htold.trans (List.append_nil _))
    rw [stage?_of_session? hs] at hnew
    rcases hnew with hnew | hnew <;> cases hnew
    exact hw ▸ hstage
  | opened ho =>
    refine h.fetch (fun time value hlast => ?_) hs htold
    -- nothing but its start has been told of a session that has made no fetch
    have hp := hc.present
    rw [ho] at hp
    cases hp with
    | between _ _ _ hno => rcases hno with hno | hno <;> cases hno
    | opening _ ht =>
      have hmem : Event.evaluated i value ∈ seen (told i (run T acts).2) :=
        List.mem_map.mpr ⟨_, List.mem_of_getLast? hlast, rfl⟩
      rw [ht] at hmem
      simp at hmem
  | resumed value due hw hdue =>
    refine h.fetch (fun time v hlast => ⟨due, ?_, hdue⟩) hs htold
    rw [hw] at hstage
    obtain ⟨_, hlast', -⟩ := h.waiting value due (Or.inr hstage)
    obtain ⟨-, rfl⟩ : _ ∧ v = value := by simpa using hlast.symm.trans hlast'
    exact hstage
  | waits value => exact h.wait hc.interval hs htold
  | failed | noticed | halted => exact h.leave hs htold (by simp [Session.finish]) (by simp)
  | asks | concluded | dropped => exact h.leave hs htold (by simp) (by simp)

theorem Timed.start (T : Terms α) (pre : List (Act ε α)) (interval : Duration) (retries : Nat) :
    Timed T (run T pre).1.sessions.length (pre ++ [Act.start interval retries]) interval := by
  generalize hi : (run T pre).1.sessions.length = i
  have hnone : (run T pre).1.session? i = none := session?_eq_none_iff.mpr (Nat.le_of_eq hi)
  obtain ⟨hlane, htold⟩ := lane_run_concat T pre (.start interval retries) i
  have hstep : ((run T pre).1.lane i).step T i (.start interval retries) = _ :=
    Lane.step_start_self hi interval retries
  rw [hstep, (unbegun hnone).untold] at htold
  have hs : (run T (pre ++ [Act.start interval retries])).1.session? i =
      some (.start interval retries) := by
    show ((run T (pre ++ [Act.start interval retries])).1.lane i).session = _
    rw [hlane, hstep]
  refine ⟨?_, fun value due hw => ?_⟩
  · rw [htold]
    exact List.isChain_singleton _
  · rw [stage?_of_session? hs] at hw
    rcases hw with hw | hw <;> cases hw

/-- **A session is on its course in every run**, and waits as long as it is to wait. -/
theorem course_run (T : Terms α) (pre : List (Act ε α)) (interval : Duration) (retries : Nat)
    (results : Nat → Except ε α) (post : List (Act ε α))
    (hr : ∀ k result, Gives T (run T pre).1.sessions.length
      (pre ++ Act.start interval retries :: post) k result → result = results k) :
    (∃ s, Course T (run T pre).1.sessions.length (max 1 retries) results
      (pre ++ Act.start interval retries :: post) interval s) ∧
    Timed T (run T pre).1.sessions.length (pre ++ Act.start interval retries :: post)
      interval := by
  induction post using List.reverseRecOn with
  | nil => exact ⟨⟨_, .start T pre interval retries results⟩, .start T pre interval retries⟩
  | append_singleton post act ih =>
    have hsplit : pre ++ Act.start interval retries :: (post ++ [act]) =
        (pre ++ Act.start interval retries :: post) ++ [act] := by simp
    rw [hsplit] at hr ⊢
    obtain ⟨⟨s, hs⟩, htimed⟩ := ih fun k result hg => hr k result (occurs_concat.mpr (Or.inl hg))
    exact ⟨hs.step (Nat.lt_of_lt_of_le Nat.one_pos (Nat.le_max_left 1 retries)) hr, htimed.step hs act⟩

/-! ### The result -/

/-- What a session that is settled does next. -/
theorem stage?_settled (hs : (run T acts).1.session? i = some s) :
    (s.stage = .fetching →
      (∀ e, (run T (acts ++ [Act.fetched i (.error e)])).1.stage? i = some (.ended (.error e))) ∧
      ∀ value,
        (CancelledIn T i acts → (run T (acts ++ [Act.fetched i (.ok value)])).1.stage? i =
          some (.ended (.ok (.cancelled value)))) ∧
        (¬CancelledIn T i acts → (run T (acts ++ [Act.fetched i (.ok value)])).1.stage? i =
          some (.matching value))) ∧
    ∀ value due, s.stage = .waiting value due →
      (CancelledIn T i acts → (run T (acts ++ [Act.look i])).1.stage? i =
        some (.ended (.ok (.cancelled value)))) ∧
      (¬CancelledIn T i acts → (run T (acts ++ [Act.look i])).1.stage? i = some (.cleared value due)) := by
  have next : ∀ (act : Act ε α), s.isLive → ∃ raised after,
      Session.Acted T (run T acts).1.now i raised s act after ∧ (raised = true ↔ CancelledIn T i acts) ∧
        (run T (acts ++ [act])).1.stage? i = some after.1.stage := by
    intro act hlive
    obtain ⟨raised, after, hacted, hraised, hsession, -⟩ := acted_concat hs hlive act
    exact ⟨raised, after, hacted, hraised, stage?_of_session? hsession⟩
  refine ⟨fun hf => ⟨fun e => ?_, fun value => ?_⟩, fun value due hw => ?_⟩
  · obtain ⟨raised, after, hacted, -, hstage⟩ := next (.fetched i (.error e)) (by rw [Session.isLive, hf]; rfl)
    rw [hstage]
    cases hacted with
    | still hno => simp [hf, Stage.takes] at hno
    | failed => rfl
  · obtain ⟨raised, after, hacted, hraised, hstage⟩ :=
      next (.fetched i (.ok value)) (by rw [Session.isLive, hf]; rfl)
    rw [hstage, ← hraised]
    cases hacted with
    | still hno => simp [hf, Stage.takes] at hno
    | noticed _ _ hr => exact ⟨fun _ => rfl, fun hno => absurd hr hno⟩
    | asks _ _ hr => exact ⟨fun hyes => absurd (hr.symm.trans hyes) Bool.false_ne_true, fun _ => rfl⟩
  · obtain ⟨raised, after, hacted, hraised, hstage⟩ := next (.look i) (by rw [Session.isLive, hw]; rfl)
    rw [hstage, ← hraised]
    cases hacted with
    | still hno => simp [hw, Stage.takes] at hno
    | halted v d hw' hr =>
      rw [hw] at hw'
      cases hw'
      exact ⟨fun _ => rfl, fun hno => absurd hr hno⟩
    | clears v d hw' hr =>
      rw [hw] at hw'
      cases hw'
      exact ⟨fun hyes => absurd (hr.symm.trans hyes) Bool.false_ne_true, fun _ => rfl⟩

/-- What is known of a session between round `k` and the next one: the round did not stop it, and when its
wait ends. -/
def Between (T : Terms α) (i : Nat) (acts : List (Act ε α)) (interval : Duration) (budget : Nat)
    (R : Rounds ε α) (k : Nat) (value : α) (due : Duration) : Prop :=
  Gives T i acts k (R.result k) ∧ R.result k = .ok value ∧ ¬R.Stops T.accepts budget k ∧
  seen (told i (run T acts).2) = .started i :: rounds i R.result k ∧
  ∃ time, (told i (run T acts).2).getLast? = some (time, .evaluated i value) ∧
    due = T.timer.due time interval

/-- What the rounds of a session say of it, and of what is told of it, when it is in round `k` and in one
of its stages, and where it comes to with its next move. The matcher is asked about a value once, and not
if a cancel was made before. -/
def Specified (T : Terms α) (i : Nat) (acts : List (Act ε α)) (interval : Duration) (budget : Nat)
    (R : Rounds ε α) (k : Nat) : Stage ε α → Prop
  | .opening =>
    k = 0 ∧ seen (told i (run T acts).2) = [.started i] ∧
    (run T (acts ++ [Act.proceed i])).1.stage? i = some .fetching
  | .fetching =>
    seen (told i (run T acts).2) = .started i :: rounds i R.result (k - 1) ++ [.fetch i] ∧
    (∀ e, (run T (acts ++ [Act.fetched i (.error e)])).1.stage? i = some (.ended (.error e))) ∧
    ∀ value,
      (CancelledIn T i acts → (run T (acts ++ [Act.fetched i (.ok value)])).1.stage? i =
        some (.ended (.ok (.cancelled value)))) ∧
      (¬CancelledIn T i acts → (run T (acts ++ [Act.fetched i (.ok value)])).1.stage? i =
        some (.matching value))
  | .matching value =>
    Gives T i acts k (R.result k) ∧ R.result k = .ok value ∧ ¬R.cancelled k ∧
    seen (told i (run T acts).2) = .started i :: rounds i R.result (k - 1) ++ [.fetch i] ∧
    (run T (acts ++ [Act.matched i])).1.stage? i =
      some (if T.accepts value then .ended (.ok (.final value))
        else if k = budget then .ended (.ok (.timeout value))
        else .waiting value (T.timer.due (run T acts).1.now interval))
  | .waiting value due =>
    Between T i acts interval budget R k value due ∧
    (CancelledIn T i acts → (run T (acts ++ [Act.look i])).1.stage? i =
      some (.ended (.ok (.cancelled value)))) ∧
    (¬CancelledIn T i acts → (run T (acts ++ [Act.look i])).1.stage? i = some (.cleared value due))
  | .cleared value due =>
    Between T i acts interval budget R k value due ∧
    (run T (acts ++ [Act.proceed i])).1.stage? i =
      some (if due ≤ (run T acts).1.now then .fetching else .waiting value due)
  | .ended result =>
    Gives T i acts k (R.result k) ∧ R.Stops T.accepts budget k ∧
    R.Concludes T.accepts budget k result ∧
    ((R.cancelled k ∧ seen (told i (run T acts).2) =
        .started i :: rounds i R.result (k - 1) ++ [.fetch i, .ended i result]) ∨
      (¬R.cancelled k ∧ seen (told i (run T acts).2) =
        .started i :: rounds i R.result k ++ [.ended i result]))
  | .dropped =>
    seen (told i (run T acts).2) =
        .started i :: rounds i R.result (k - 1) ++ [.fetch i, .dropped i] ∨
      seen (told i (run T acts).2) = .started i :: rounds i R.result k ++ [.dropped i]

theorem Course.between (h : Course T i budget results acts interval s) (ht : Timed T i acts interval)
    {value : α} {due : Duration} (hs : s.stage = .waiting value due ∨ s.stage = .cleared value due) :
    Between T i acts interval budget (roundsOf T i acts results) s.attempts value due := by
  have hp := h.present
  have hstage := h.stage_eq
  have hwaits : (run T acts).1.stage? i = some (.waiting value due) ∨
      (run T acts).1.stage? i = some (.cleared value due) :=
    hs.imp (fun hs => hstage.trans (congrArg some hs)) fun hs => hstage.trans (congrArg some hs)
  obtain ⟨time, hlast, hdue, -⟩ := ht.waiting value due hwaits
  generalize s.stage = stage at hp hs
  cases hp with
  | between _ v d hbetween hk hr hg hc hst ha hb htold =>
    obtain rfl : value = v := by
      rcases hs with rfl | rfl <;> rcases hbetween with hb | hb <;> cases hb <;> rfl
    exact ⟨hg, hr, Rounds.not_stops hr hc ha hb hst, htold, time, hlast, hdue⟩
  | opening | fetching | matching | ended | dropped => rcases hs with hs | hs <;> cases hs

theorem Course.specified (h : Course T i budget results acts interval s)
    (ht : Timed T i acts interval) :
    Specified T i acts interval budget (roundsOf T i acts results) s.attempts s.stage := by
  have hp := h.present
  obtain ⟨hopening, hcleared, hmatching⟩ := stage?_unsettled h.session
  obtain ⟨hfetching, hwaiting⟩ := stage?_settled h.session
  cases hs : s.stage with
  | opening =>
    rw [hs] at hp
    cases hp with
    | between _ _ _ hno => rcases hno with hno | hno <;> cases hno
    | opening hk htold => exact ⟨hk, htold, hopening hs⟩
  | fetching =>
    rw [hs] at hp
    cases hp with
    | between _ _ _ hno => rcases hno with hno | hno <;> cases hno
    | fetching _ _ _ htold => exact ⟨htold, hfetching hs⟩
  | matching value =>
    rw [hs] at hp
    cases hp with
    | between _ _ _ hno => rcases hno with hno | hno <;> cases hno
    | matching _ _ hr hg hc _ htold =>
      refine ⟨hg, hr, hc, htold, (hmatching value hs).trans (congrArg some ?_)⟩
      have hwithin := h.within
      have hlast : s.budget ≤ s.attempts ↔ s.attempts = budget := by
        rw [h.allowed]
        omega
      unfold Session.verdict
      rw [h.interval]
      by_cases ha : T.accepts value
      · simp [ha]
      · by_cases hk : s.attempts = budget
        · simp [ha, hk, h.allowed]
        · simp [ha, hlast, hk]
  | waiting value due => exact ⟨h.between ht (Or.inl hs), hwaiting value due hs⟩
  | cleared value due => exact ⟨h.between ht (Or.inr hs), hcleared value due hs⟩
  | ended result =>
    rw [hs] at hp
    cases hp with
    | between _ _ _ hno => rcases hno with hno | hno <;> cases hno
    | ended _ _ hg hconcludes htold => exact ⟨hg, hconcludes.stops, hconcludes, htold⟩
  | dropped =>
    rw [hs] at hp
    cases hp with
    | between _ _ _ hno => rcases hno with hno | hno <;> cases hno
    | dropped htold => exact htold

/-- **A session follows its rounds.** For all results of its fetches, all matchers, intervals and budgets,
and wherever cancels are made, among other sessions or alone: a session ends in the first round that stops
it, after as many fetches as there were rounds, and with what that round comes to. Until then it goes on
from round to round. A fetch comes when the timer says that the interval is over since the matcher answered
about the value before it, and no later if nobody lets more time pass. With a timer that keeps the interval
this is to the instant. Fetches never outnumber the budget, which is at least one. -/
theorem session_follows_rounds (T : Terms α) (i : Nat) (pre post acts : List (Act ε α))
    (interval : Duration) (retries : Nat) (results : Nat → Except ε α)
    (hi : i = (run T pre).1.sessions.length)
    (hacts : acts = pre ++ Act.start interval retries :: post)
    (hr : ∀ k result, Gives T i acts k result → result = results k) :
    ∃ s, (run T acts).1.session? i = some s ∧
      (s.attempts = fetchesOf T i acts ∧
        (s.attempts = 0 → s.stage = .opening ∨ s.stage = .dropped) ∧
        s.attempts ≤ max 1 retries ∧ (retries < 2 ^ 32 → s.attempts < 2 ^ 32)) ∧
      (∀ m, 0 < m → m < s.attempts → Gives T i acts m (results m) ∧
        ¬(roundsOf T i acts results).Stops T.accepts (max 1 retries) m) ∧
      Specified T i acts interval (max 1 retries) (roundsOf T i acts results) s.attempts s.stage ∧
      (told i (run T acts).2).IsChain (Spaced T.timer interval (Prompt T i acts)) ∧
      (T.timer.Keeps interval → Prompt T i acts → (told i (run T acts).2).IsChain fun first next =>
        ∀ value, first.2 = .evaluated i value → next.2 = .fetch i → next.1 = first.1 + interval) := by
  subst hi hacts
  obtain ⟨⟨s, hs⟩, ht⟩ := course_run T pre interval retries results post hr
  have hwithin := hs.within
  refine ⟨s, hs.session, ⟨hs.count, fun hnone => ?_, hwithin, fun hlt => ?_⟩, hs.past, hs.specified ht,
    ht.chain, fun hkeeps hprompt => ht.chain.imp fun first next hspaced value hfirst hnext => ?_⟩
  · have hpos := hs.present.pos
    refine Classical.byContradiction fun hno => ?_
    rw [not_or] at hno
    exact absurd (hpos hno.1 hno.2) (by omega)
  · omega
  · rw [(hspaced _ value hfirst hnext).2 hprompt, hkeeps]

/-- Values of 9 are accepted, and the timer keeps time. -/
def nines : Terms Nat := { accepts := (· == 9), timer := .exact }

/-- A session that waits 5 between up to four fetches. A cancel is made just when the wait after the second
one is over. -/
def contested : List (Act Unit Nat) :=
  [.start 5 4, .proceed 0, .fetched 0 (.ok 1), .matched 0, .pass 5, .look 0, .proceed 0, .fetched 0 (.ok 2),
    .matched 0, .pass 5, .cancel, .look 0]

/-- The cancel wins over the third fetch, and the session was on time. -/
theorem contested_cancelled :
    (∀ k result, Gives nines 0 contested k result → result = .ok k) ∧
    nines.timer.Keeps 5 ∧ Prompt nines 0 contested ∧
    ∃ s, (run nines contested).1.session? 0 = some s ∧ s.attempts = 2 ∧
      (roundsOf nines 0 contested fun k => .ok k).Concludes (· == 9) 4 2 (.ok (.cancelled 2)) ∧
      (told 0 (run nines contested).2).IsChain fun first next =>
        ∀ value, first.2 = .evaluated 0 value → next.2 = .fetch 0 → next.1 = first.1 + 5 := by
  have hr : ∀ k result, Gives nines 0 contested k result → result = .ok k := by
    rintro k result ⟨before, act, after, h, rfl, hstage, rfl⟩
    unfold contested at h
    rcases before with _ | ⟨_, _ | ⟨_, _ | ⟨_, _ | ⟨_, _ | ⟨_, _ | ⟨_, _ | ⟨_, _ | ⟨_, _ | ⟨_, _ | ⟨_, _ |
      ⟨_, _ | ⟨_, _⟩⟩⟩⟩⟩⟩⟩⟩⟩⟩⟩⟩ <;> simp at h
    · obtain ⟨rfl, rfl, rfl, -⟩ := h
      decide
    · obtain ⟨rfl, rfl, rfl, rfl, rfl, rfl, rfl, rfl, -⟩ := h
      decide
  have hkeeps : nines.timer.Keeps 5 := fun _ => rfl
  have hprompt : Prompt nines 0 contested := by
    intro before time after h due hdue
    unfold contested at h
    rcases before with _ | ⟨_, _ | ⟨_, _ | ⟨_, _ | ⟨_, _ | ⟨_, _ | ⟨_, _ | ⟨_, _ | ⟨_, _ | ⟨_, _ | ⟨_, _ |
      ⟨_, _ | ⟨_, _⟩⟩⟩⟩⟩⟩⟩⟩⟩⟩⟩⟩ <;> simp at h
    · obtain ⟨rfl, rfl, rfl, rfl, rfl, -⟩ := h
      cases hdue
      decide
    · obtain ⟨rfl, rfl, rfl, rfl, rfl, rfl, rfl, rfl, rfl, rfl, -⟩ := h
      cases hdue
      decide
  have hsession : (run nines contested).1.session? 0 =
      some { interval := 5, budget := 4, attempts := 2, stage := .ended (.ok (.cancelled 2)) } := by
    decide
  obtain ⟨s, hs, -, -, hspecified, -, htimes⟩ := session_follows_rounds nines 0 []
    [.proceed 0, .fetched 0 (.ok 1), .matched 0, .pass 5, .look 0, .proceed 0, .fetched 0 (.ok 2),
      .matched 0, .pass 5, .cancel, .look 0] contested 5 4 (fun k => .ok k) rfl rfl hr
  obtain rfl := Option.some.inj (hsession.symm.trans hs)
  exact ⟨hr, hkeeps, hprompt, _, hs, rfl, hspecified.2.2.1, htimes hkeeps hprompt⟩

/-- No value is accepted, and the timer is that of a run. -/
def unmet : Terms Nat := { accepts := fun _ => false, timer := Run.timer }

/-- A session whose interval is a millisecond longer than thirty years. -/
def overlong : List (Act Unit Nat) :=
  [.start (.ofMillis 946080000001) 2, .proceed 0, .fetched 0 (.ok 1), .matched 0,
    .pass (.ofMillis 946080000000), .look 0, .proceed 0]

/-- Its second fetch comes a millisecond before the interval is over. -/
theorem overlong_cut_short :
    Prompt unmet 0 overlong ∧
    told 0 (run unmet overlong).2 =
      [(0, .started 0), (0, .fetch 0), (0, .evaluated 0 1),
        (Duration.ofMillis 946080000000, .fetch 0)] ∧
    ¬(told 0 (run unmet overlong).2).IsChain fun first next =>
      ∀ value, first.2 = .evaluated 0 value → next.2 = .fetch 0 →
        next.1 = first.1 + Duration.ofMillis 946080000001 := by
  have htold : told 0 (run unmet overlong).2 =
      [(0, .started 0), (0, .fetch 0), (0, .evaluated 0 1),
        (Duration.ofMillis 946080000000, .fetch 0)] := by
    decide
  refine ⟨?_, htold, ?_⟩
  · intro before time after h due hdue
    unfold overlong at h
    rcases before with _ | ⟨_, _ | ⟨_, _ | ⟨_, _ | ⟨_, _ | ⟨_, _ | ⟨_, _ | ⟨_, _⟩⟩⟩⟩⟩⟩⟩ <;> simp at h
    obtain ⟨rfl, rfl, rfl, rfl, rfl, -⟩ := h
    cases hdue
    decide
  · rw [htold]
    intro h
    have hlast := (List.isChain_cons_cons.mp (List.isChain_cons_cons.mp (List.isChain_cons_cons.mp h).2).2).1
    exact absurd (hlast 1 rfl rfl) (by decide)

end Poller

end IntentLoop.Poll
