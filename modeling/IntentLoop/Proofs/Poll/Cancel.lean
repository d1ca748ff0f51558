import Mathlib.Data.List.Induction
import IntentLoop.Proofs.Poll.Tally
/-!
# What a cancel reaches

A cancel reaches the sessions that are live at that moment, and changes nothing for any other. What is left
to a session that was cancelled in its life depends on whether it has still to look at its signal before
anything else. While it fetches or waits it has (`Stage.isSettled`): it does nothing more but end, with the
result of the fetch that is in flight or with the value it had when it waits (`Stage.closing`). Where it has
just looked, or has not got so far, there is one thing that it does first: it makes one more fetch
(`Stage.allowance`), or it goes by what its matcher answers (`Stage.questions`).

* `Poller.acted_concat`: what one more act is to a session, which knows of cancels just if one was made in
  its life (`Poller.CancelledIn`).
* `Poller.settled_append`, `Poller.bounded_append`: how a cancelled session goes on.
* `Poller.cancelledIn_of_result`: without a cancel in its life, a session does not end cancelled.
* `Poller.cancel_reaches_live_sessions` puts them together.
-/

namespace IntentLoop.Poll

open History (seen)

variable {ε α : Type} {T : Terms α}

/-! ### One act in a lane -/

namespace Lane

variable {l : Lane ε α} {i : Nat} {s : Session ε α}

theorem isLive_of_session (hs : l.session = some s) : l.isLive = s.isLive := by
  rw [isLive, hs]
  rfl

theorem move_of_session (hs : l.session = some s)
    (f : Bool → Session ε α → Session ε α × List (Event ε α)) :
    l.move f = ({ l with session := some (f l.cancelled s).1
                         cancelled := (f l.cancelled s).1.isLive && l.cancelled },
      (f l.cancelled s).2) := by
  rw [move, hs]

/-- What an act does to a session that is live. -/
theorem step_acted (T : Terms α) (hs : l.session = some s) (hi : i < l.started) (hlive : s.isLive)
    (act : Act ε α) :
    ∃ after, Session.Acted T l.now i l.cancelled s act after ∧
      (l.step T i act).1.session = some after.1 ∧ (l.step T i act).2 = after.2 ∧
      (l.step T i act).1.cancelled = (after.1.isLive && (l.cancelled || act.isCancel)) := by
  have aside : ∀ {next : Lane ε α} {act : Act ε α}, s.stage.takes i act = false →
      next.session = some s → next.cancelled = (l.cancelled || act.isCancel) →
      ∃ after, Session.Acted T l.now i l.cancelled s act after ∧ next.session = some after.1 ∧
        [] = after.2 ∧ next.cancelled = (after.1.isLive && (l.cancelled || act.isCancel)) :=
    fun h hsame hc => ⟨_, .still h, hsame, rfl, by rw [hlive, Bool.true_and, hc]⟩
  have moved : ∀ (j : Nat) (f : Bool → Session ε α → Session ε α × List (Event ε α)) {act : Act ε α},
      Session.IsMove T l.now j act f → act.isCancel = false →
      (j ≠ i → s.stage.takes i act = false) →
      ∃ after, Session.Acted T l.now i l.cancelled s act after ∧
        (l.moveAt i j f).1.session = some after.1 ∧ (l.moveAt i j f).2 = after.2 ∧
        (l.moveAt i j f).1.cancelled = (after.1.isLive && (l.cancelled || act.isCancel)) := by
    intro j f act hf hact hother
    by_cases hj : j = i
    · subst hj
      rw [moveAt_self, move_of_session hs, hact, Bool.or_false]
      exact ⟨_, hf l.cancelled s, rfl, rfl, rfl⟩
    · rw [moveAt_other hj]
      exact aside (hother hj) hs (by rw [hact, Bool.or_false])
  cases act with
  | start interval retries =>
    rw [step_start_other (Nat.ne_of_gt hi)]
    exact aside (by cases s.stage <;> rfl) hs (Bool.or_false _).symm
  | proceed j =>
    exact moved j _ (Session.isMove_proceed T l.now j) rfl
      fun hj => by cases s.stage <;> simp [Stage.takes, hj]
  | fetched j result =>
    exact moved j _ (Session.isMove_fetched T l.now j result) rfl
      fun hj => by cases s.stage <;> simp [Stage.takes, hj]
  | matched j =>
    exact moved j _ (Session.isMove_matched T l.now j) rfl
      fun hj => by cases s.stage <;> simp [Stage.takes, hj]
  | look j =>
    exact moved j _ (Session.isMove_look T l.now j) rfl
      fun hj => by cases s.stage <;> simp [Stage.takes, hj]
  | cancel =>
    refine aside (by cases s.stage <;> rfl) hs ?_
    exact ((isLive_of_session hs).trans hlive).trans (Bool.or_true _).symm
  | drop j =>
    exact moved j _ (Session.isMove_drop T l.now j) rfl
      fun hj => by cases s.stage <;> simp [Stage.takes, hj]
  | pass time => exact aside (by cases s.stage <;> rfl) hs (Bool.or_false _).symm

theorem step_over (T : Terms α) (hs : l.session = some s) (hi : i < l.started)
    (hover : s.isLive = false) (act : Act ε α) :
    (l.step T i act).2 = [] ∧ (l.step T i act).1.session = some s := by
  have moved : ∀ (j : Nat) (f : Bool → Session ε α → Session ε α × List (Event ε α)) {act : Act ε α},
      Session.IsMove T l.now j act f →
      (l.moveAt i j f).2 = [] ∧ (l.moveAt i j f).1.session = some s := by
    intro j f act hf
    unfold moveAt
    split
    · rw [move_of_session hs, (hf l.cancelled s).finished hover]
      exact ⟨rfl, rfl⟩
    · exact ⟨rfl, hs⟩
  cases act with
  | start interval retries =>
    rw [step_start_other (Nat.ne_of_gt hi)]
    exact ⟨rfl, hs⟩
  | proceed j => exact moved j _ (Session.isMove_proceed T l.now j)
  | fetched j result => exact moved j _ (Session.isMove_fetched T l.now j result)
  | matched j => exact moved j _ (Session.isMove_matched T l.now j)
  | look j => exact moved j _ (Session.isMove_look T l.now j)
  | cancel => exact ⟨rfl, hs⟩
  | drop j => exact moved j _ (Session.isMove_drop T l.now j)
  | pass time => exact ⟨rfl, hs⟩

theorem moveAt_unborn (hs : l.session = none) (j : Nat)
    (f : Bool → Session ε α → Session ε α × List (Event ε α)) : l.moveAt i j f = (l, []) := by
  unfold moveAt move
  rw [hs]
  split <;> rfl

theorem step_unborn (hs : l.session = none) {act : Act ε α}
    (hstart : ∀ interval retries, act = .start interval retries → l.started ≠ i) :
    (l.step T i act).2 = [] := by
  cases act with
  | start interval retries => rw [step_start_other (hstart interval retries rfl)]
  | proceed j | fetched j | matched j | look j | drop j =>
    exact congrArg Prod.snd (moveAt_unborn hs j _)
  | cancel | pass => rfl

theorem session_born (hs : l.session = none) {act : Act ε α}
    (hnew : (l.step T i act).1.session = some s) :
    ∃ interval retries, act = .start interval retries ∧ s = .start interval retries := by
  cases act with
  | start interval retries =>
    by_cases hi : l.started = i
    · rw [step_start_self hi] at hnew
      exact ⟨interval, retries, rfl, (Option.some.inj hnew).symm⟩
    · rw [step_start_other hi, hs] at hnew
      cases hnew
  | proceed j | fetched j | matched j | look j | drop j =>
    have hno : l.session = some s := (congrArg (·.1.session) (moveAt_unborn hs j _)).symm.trans hnew
    rw [hs] at hno
    cases hno
  | cancel | pass =>
    have hno : l.session = some s := hnew
    rw [hs] at hno
    cases hno

theorem cancelled_unborn (T : Terms α) (hs : l.session = none) (hc : l.cancelled = false)
    (act : Act ε α) : (l.step T i act).1.cancelled = false := by
  cases act with
  | start interval retries =>
    unfold step
    dsimp only
    split <;> exact hc
  | proceed j | fetched j | matched j | look j | drop j =>
    exact (congrArg (·.1.cancelled) (moveAt_unborn hs j _)).trans hc
  | cancel =>
    show l.isLive = false
    rw [isLive, hs]
    rfl
  | pass time => exact hc

theorem started_le_step (T : Terms α) (i : Nat) (l : Lane ε α) (act : Act ε α) :
    l.started ≤ (l.step T i act).1.started := by
  have moved : ∀ (j : Nat) (f : Bool → Session ε α → Session ε α × List (Event ε α)),
      (l.moveAt i j f).1.started = l.started := by
    intro j f
    unfold moveAt move
    split
    · cases l.session <;> rfl
    · rfl
  cases act with
  | start interval retries =>
    by_cases hi : l.started = i
    · rw [step_start_self hi]
      exact Nat.le_succ _
    · rw [step_start_other hi]
      exact Nat.le_succ _
  | proceed j | fetched j | matched j | look j | drop j => exact Nat.le_of_eq (moved j _).symm
  | cancel | pass => exact Nat.le_refl _

end Lane

/-! ### One act of a run -/

/-- Somewhere in a list comes an element of which, and of those before it, `P` holds. -/
def Occurs {β : Type} (P : List β → β → Prop) (l : List β) : Prop :=
  ∃ before b after, l = before ++ b :: after ∧ P before b

theorem occurs_nil {β : Type} {P : List β → β → Prop} : ¬Occurs P [] := by
  rintro ⟨before, b, after, h, -⟩
  simp at h

theorem occurs_concat {β : Type} {P : List β → β → Prop} {l : List β} {b : β} :
    Occurs P (l ++ [b]) ↔ Occurs P l ∨ P l b := by
  constructor
  · intro ⟨before, c, after, h, hP⟩
    rcases append_cons_eq_append_cons h with ⟨rfl, rfl, -⟩ | ⟨mid, -, hnil⟩ | ⟨mid, hl, -⟩
    · exact Or.inr hP
    · exact absurd hnil (by simp)
    · exact Or.inl ⟨before, c, mid, hl, hP⟩
  · rintro (⟨before, c, after, rfl, hP⟩ | hP)
    · exact ⟨before, c, after ++ [b], by simp, hP⟩
    · exact ⟨l, b, [], rfl, hP⟩

namespace Poller

variable {p : Poller ε α} {i : Nat} {acts : List (Act ε α)} {s : Session ε α}

/-- A cancel was made in the life of session `i`. -/
def CancelledIn (T : Terms α) (i : Nat) (acts : List (Act ε α)) : Prop :=
  Occurs (fun before act => act = .cancel ∧ (run T before).1.isLive i) acts

theorem cancelledIn_cancel {pre : List (Act ε α)} (h : (run T pre).1.isLive i)
    (post : List (Act ε α)) : CancelledIn T i (pre ++ Act.cancel :: post) := ⟨pre, _, post, rfl, rfl, h⟩

theorem isLive_of_session? (hs : p.session? i = some s) : p.isLive i = s.isLive := by
  rw [isLive, hs]
  rfl

theorem lt_of_session? (hs : p.session? i = some s) : i < p.sessions.length := by
  obtain ⟨m, hm, -⟩ := Option.map_eq_some_iff.mp hs
  exact (List.getElem?_eq_some_iff.mp hm).1

theorem session?_eq_none_iff : p.session? i = none ↔ p.sessions.length ≤ i := by
  rw [session?, Option.map_eq_none_iff, List.getElem?_eq_none_iff]

theorem length_le_concat (T : Terms α) (acts : List (Act ε α)) (act : Act ε α) :
    (run T acts).1.sessions.length ≤ (run T (acts ++ [act])).1.sessions.length := by
  have hstarted := Lane.started_le_step T 0 ((run T acts).1.lane 0) act
  rw [← (lane_run_concat T acts act 0).1] at hstarted
  exact hstarted

theorem CancelledIn.started (h : CancelledIn T i acts) : i < (run T acts).1.sessions.length := by
  induction acts using List.reverseRecOn with
  | nil => exact absurd h occurs_nil
  | append_singleton acts act ih =>
    refine Nat.lt_of_lt_of_le ?_ (length_le_concat T acts act)
    rcases occurs_concat.mp h with hold | ⟨-, hlive⟩
    · exact ih hold
    · cases hs : (run T acts).1.session? i with
      | none =>
        rw [isLive, hs] at hlive
        cases hlive
      | some s => exact lt_of_session? hs

theorem over_concat (hs : (run T acts).1.session? i = some s) (hover : s.isLive = false)
    (act : Act ε α) :
    (run T (acts ++ [act])).1.session? i = some s ∧
      told i (run T (acts ++ [act])).2 = told i (run T acts).2 := by
  obtain ⟨hlane, htold⟩ := lane_run_concat T acts act i
  obtain ⟨hnone, hsame⟩ := Lane.step_over T (l := (run T acts).1.lane i) hs (lt_of_session? hs) hover act
  rw [htold, hnone]
  exact ⟨(congrArg Lane.session hlane).trans hsame, List.append_nil _⟩

theorem born_concat (hold : (run T acts).1.session? i = none) {act : Act ε α}
    (hs : (run T (acts ++ [act])).1.session? i = some s) :
    ∃ interval retries, act = .start interval retries ∧ s = .start interval retries := by
  have hlane := (lane_run_concat T acts act i).1
  exact Lane.session_born (l := (run T acts).1.lane i) hold
    ((congrArg Lane.session hlane).symm.trans hs)

/-- A session knows of a cancel just if one was made in its life. -/
theorem cancelled_iff (hs : (run T acts).1.session? i = some s) (hlive : s.isLive) :
    ((run T acts).1.lane i).cancelled = true ↔ CancelledIn T i acts := by
  induction acts using List.reverseRecOn generalizing s with
  | nil => cases hs
  | append_singleton acts act ih =>
    have hlane := (lane_run_concat T acts act i).1
    have hstep : (((run T acts).1.lane i).step T i act).1.session = some s := hlane ▸ hs
    rw [hlane, CancelledIn, occurs_concat]
    cases hold : (run T acts).1.session? i with
    | none =>
      have hdead : (run T acts).1.isLive i = false := by
        rw [isLive, hold]
        rfl
      have hflag : ((run T acts).1.lane i).cancelled = false := by
        show ((run T acts).1.isLive i && _) = false
        rw [hdead, Bool.false_and]
      rw [Lane.cancelled_unborn T (l := (run T acts).1.lane i) hold hflag, hdead]
      refine iff_of_false Bool.false_ne_true ?_
      rintro (hin | ⟨-, hno⟩)
      · exact absurd (CancelledIn.started hin) (Nat.not_lt.mpr (session?_eq_none_iff.mp hold))
      · cases hno
    | some old =>
      have hi := lt_of_session? hold
      cases hwas : old.isLive with
      | false =>
        obtain ⟨-, hsame⟩ := Lane.step_over T (l := (run T acts).1.lane i) hold hi hwas act
        obtain rfl := Option.some.inj (hsame.symm.trans hstep)
        rw [hlive] at hwas
        cases hwas
      | true =>
        obtain ⟨after, -, hsession, -, hcancelled⟩ :=
          Lane.step_acted T (l := (run T acts).1.lane i) hold hi hwas act
        obtain rfl := Option.some.inj (hsession.symm.trans hstep)
        rw [hcancelled, hlive, Bool.true_and, Bool.or_eq_true, ih hold hwas, isLive_of_session? hold, hwas]
        refine or_congr_right ?_
        cases act <;> simp [Act.isCancel]

/-- **What one more act is to a session that is live.** It knows of a cancel just if one was made in its
life. -/
theorem acted_concat (hs : (run T acts).1.session? i = some s) (hlive : s.isLive) (act : Act ε α) :
    ∃ raised after, Session.Acted T (run T acts).1.now i raised s act after ∧
      (raised = true ↔ CancelledIn T i acts) ∧
      (run T (acts ++ [act])).1.session? i = some after.1 ∧
      told i (run T (acts ++ [act])).2 =
        told i (run T acts).2 ++ after.2.map ((run T acts).1.now, ·) := by
  obtain ⟨hlane, htold⟩ := lane_run_concat T acts act i
  obtain ⟨after, hacted, hsession, hevents, -⟩ :=
    Lane.step_acted T (l := (run T acts).1.lane i) hs (lt_of_session? hs) hlive act
  refine ⟨_, after, hacted, cancelled_iff hs hlive, ?_, ?_⟩
  · exact (congrArg Lane.session hlane).trans hsession
  · rw [htold, hevents]

theorem over_append (hs : (run T acts).1.session? i = some s) (hover : s.isLive = false)
    (more : List (Act ε α)) :
    (run T (acts ++ more)).1.session? i = some s ∧
      told i (run T (acts ++ more)).2 = told i (run T acts).2 := by
  induction more generalizing acts with
  | nil =>
    rw [List.append_nil]
    exact ⟨hs, rfl⟩
  | cons act more ih =>
    obtain ⟨hsame, htold⟩ := over_concat hs hover act
    rw [List.append_cons acts act more, ← htold]
    exact ih hsame

end Poller

/-! ### A session after a cancel -/

namespace Stage

/-- Does a session in this stage look at its signal before it does anything else? -/
def isSettled : Stage ε α → Bool
  | fetching | waiting _ _ => true
  | _ => false

/-- The end of session `i`, which was cancelled and is settled, if the act brings it about. -/
def closing (i : Nat) (stage : Stage ε α) (act : Act ε α) : Option (Stage ε α) :=
  match stage, act with
  | fetching, .fetched j result => if j = i then some (ended (result.map .cancelled)) else none
  | waiting value _, .look j => if j = i then some (ended (.ok (.cancelled value))) else none
  | _, .drop j => if j = i then some dropped else none
  | _, _ => none

/-- What is told of session `i` when it comes to this stage. -/
def farewell (i : Nat) : Stage ε α → List (Event ε α)
  | ended result => [.ended i result]
  | dropped => [.dropped i]
  | _ => []

/-- The value that a session holds while its matcher is asked about it, and while it waits. -/
def value? : Stage ε α → Option α
  | matching value | waiting value _ | cleared value _ => some value
  | _ => none

/-- How many fetches a session makes, at most, that was cancelled in this stage. -/
def allowance : Stage ε α → Nat
  | opening | cleared _ _ => 1
  | _ => 0

/-- How often the matcher answers, at most, to a session that was cancelled in this stage. -/
def questions : Stage ε α → Nat
  | matching _ => 1
  | _ => 0

theorem closing_isLive {i : Nat} {stage last : Stage ε α} {act : Act ε α}
    (h : stage.closing i act = some last) : last.isLive = false := by
  unfold closing at h
  split at h
  · obtain ⟨-, h⟩ := Option.ite_none_right_eq_some.mp h
    cases h
    rfl
  · obtain ⟨-, h⟩ := Option.ite_none_right_eq_some.mp h
    cases h
    rfl
  · obtain ⟨-, h⟩ := Option.ite_none_right_eq_some.mp h
    cases h
    rfl
  · cases h

theorem isLive_of_isSettled {stage : Stage ε α} (h : stage.isSettled) : stage.isLive := by
  cases stage <;> first | rfl | cases h

theorem farewell_of_isLive {stage : Stage ε α} (h : stage.isLive) (i : Nat) : stage.farewell i = [] := by
  cases stage <;> first | rfl | cases h

theorem closing_of_not_takes {stage : Stage ε α} {i : Nat} {act : Act ε α} (hset : stage.isSettled)
    (h : stage.takes i act = false) : stage.closing i act = none := by
  cases stage <;> cases hset <;> cases act <;> simp_all [closing, takes, isLive]

end Stage

def Event.isEvaluation : Event ε α → Bool
  | .evaluated _ _ => true
  | _ => false

/-- How often a matcher has answered. -/
def evaluationsIn (past : List (Event ε α)) : Nat := past.countP (·.isEvaluation)

@[simp] theorem evaluationsIn_append (past later : List (Event ε α)) :
    evaluationsIn (past ++ later) = evaluationsIn past + evaluationsIn later := List.countP_append

namespace Session.Acted

variable {now : Duration} {i : Nat} {s : Session ε α} {act : Act ε α}
  {after : Session ε α × List (Event ε α)}

theorem closes (h : Acted T now i true s act after) (hset : s.stage.isSettled) :
    after = match s.stage.closing i act with
      | some stage => ({ s with stage }, stage.farewell i)
      | none => (s, []) := by
  cases h with
  | still hno => rw [Stage.closing_of_not_takes hset hno]
  | failed e hs | noticed value hs =>
    rw [hs]
    simp [Stage.closing, finish, Stage.farewell, Except.map]
  | halted value due hs =>
    rw [hs]
    simp [Stage.closing, finish, Stage.farewell]
  | dropped hlive =>
    cases hs : s.stage <;> simp [hs, Stage.isSettled] at hset <;>
      simp [Stage.closing, Stage.farewell]
  | opened hs | resumed _ _ hs | early _ _ hs | concluded _ _ hs | waits _ hs =>
    rw [hs] at hset
    cases hset
  | asks _ _ hr | clears _ _ _ hr => cases hr

/-- What a session does that was cancelled is taken from what was left to it. -/
theorem bounded (h : Acted T now i true s act after) :
    fetchesIn after.2 + after.1.stage.allowance ≤ s.stage.allowance ∧
      evaluationsIn after.2 + after.1.stage.questions ≤ s.stage.questions := by
  cases h with
  | still => simp [fetchesIn, evaluationsIn]
  | opened hs | resumed _ _ hs | early _ _ hs | concluded _ _ hs | waits _ hs =>
    rw [hs]
    simp [fetch, fetchesIn, evaluationsIn, Stage.allowance, Stage.questions, Event.isFetch,
      Event.isEvaluation]
  | failed | noticed | halted | dropped =>
    simp [finish, fetchesIn, evaluationsIn, Stage.allowance, Stage.questions, Event.isFetch,
      Event.isEvaluation]
  | asks _ _ hr | clears _ _ _ hr => cases hr

end Session.Acted

namespace Poller

variable {i : Nat} {acts : List (Act ε α)} {s : Session ε α}

theorem CancelledIn.append (h : CancelledIn T i acts) (more : List (Act ε α)) :
    CancelledIn T i (acts ++ more) := by
  obtain ⟨before, act, after, rfl, hP⟩ := h
  exact ⟨before, act, after ++ more, by simp, hP⟩

/-- **How a settled session goes on that was cancelled**: the first act that can end it does, and until
then nothing is told of it. -/
theorem settled_append (hin : CancelledIn T i acts) (hs : (run T acts).1.session? i = some s)
    (hset : s.stage.isSettled) (more : List (Act ε α)) :
    (run T (acts ++ more)).1.session? i =
        some { s with stage := (more.findSome? (s.stage.closing i)).getD s.stage } ∧
      ∃ later, told i (run T (acts ++ more)).2 = told i (run T acts).2 ++ later ∧
        seen later = ((more.findSome? (s.stage.closing i)).getD s.stage).farewell i := by
  have hlive := Stage.isLive_of_isSettled hset
  induction more generalizing acts with
  | nil =>
    rw [List.append_nil]
    exact ⟨hs, [], (List.append_nil _).symm, (Stage.farewell_of_isLive hlive i).symm⟩
  | cons act more ih =>
    obtain ⟨raised, after, hacted, hraised, hsession, htold⟩ := acted_concat hs hlive act
    obtain rfl := hraised.mpr hin
    have hcloses := hacted.closes hset
    rw [List.append_cons acts act more, List.findSome?_cons]
    cases hact : s.stage.closing i act with
    | some stage =>
      rw [hact] at hcloses
      subst hcloses
      obtain ⟨hstay, hsilent⟩ := over_append hsession (Stage.closing_isLive hact) more
      refine ⟨hstay, _, hsilent.trans htold, ?_⟩
      rw [History.seen_map_stamp]
      rfl
    | none =>
      rw [hact] at hcloses
      subst hcloses
      rw [List.map_nil, List.append_nil] at htold
      rw [← htold]
      exact ih (hin.append [act]) hsession

/-- **What a cancelled session does at most**: it makes one fetch if it was about to, and hears of its
matcher if it had asked it. -/
theorem bounded_append (hin : CancelledIn T i acts) (hs : (run T acts).1.session? i = some s)
    (hlive : s.isLive) (more : List (Act ε α)) :
    ∃ later, told i (run T (acts ++ more)).2 = told i (run T acts).2 ++ later ∧
      fetchesIn (seen later) ≤ s.stage.allowance ∧ evaluationsIn (seen later) ≤ s.stage.questions := by
  induction more generalizing acts s with
  | nil => exact ⟨[], by simp, Nat.zero_le _, Nat.zero_le _⟩
  | cons act more ih =>
    obtain ⟨raised, after, hacted, hraised, hsession, htold⟩ := acted_concat hs hlive act
    obtain rfl := hraised.mpr hin
    obtain ⟨hfetches, hquestions⟩ := hacted.bounded
    rw [List.append_cons acts act more]
    cases hafter : after.1.isLive with
    | false =>
      refine ⟨_, ((over_append hsession hafter more).2).trans htold, ?_⟩
      rw [History.seen_map_stamp]
      omega
    | true =>
      obtain ⟨later, hlater, hf, hq⟩ := ih (hin.append [act]) hsession hafter
      rw [htold] at hlater
      refine ⟨_, hlater.trans (List.append_assoc ..), ?_⟩
      rw [History.seen_append, History.seen_map_stamp, fetchesIn_append, evaluationsIn_append]
      omega

/-- **Without a cancel in its life, a session does not end cancelled.** -/
theorem cancelledIn_of_result (hs : (run T acts).1.session? i = some s) {value : α}
    (hend : s.stage = .ended (.ok (.cancelled value))) : CancelledIn T i acts := by
  induction acts using List.reverseRecOn generalizing s with
  | nil => cases hs
  | append_singleton acts act ih =>
    cases hold : (run T acts).1.session? i with
    | none =>
      obtain ⟨interval, retries, -, rfl⟩ := born_concat hold hs
      cases hend
    | some old =>
    cases hlive : old.isLive with
    | false =>
      have hsame := (over_concat hold hlive act).1
      obtain rfl := Option.some.inj (hsame.symm.trans hs)
      exact (ih hold hend).append [act]
    | true =>
      obtain ⟨raised, after, hacted, hraised, hsession, -⟩ := acted_concat hold hlive act
      obtain rfl := Option.some.inj (hsession.symm.trans hs)
      cases hacted with
      | still => exact (ih hold hend).append [act]
      | noticed _ _ hr | halted _ _ _ hr => exact (hraised.mp hr).append _
      | concluded v o hv' hv =>
        -- the matcher and the budget do not cancel
        unfold Session.verdict at hv
        split at hv
        · cases hv
          cases hend
        · split at hv <;> cases hv
          cases hend
      | opened | resumed | early | failed | asks | waits | clears | dropped => cases hend

/-- The value that a session holds was given by its last fetch. -/
theorem value_fetched (hs : (run T acts).1.session? i = some s) {value : α}
    (hv : s.stage.value? = some value) :
    ∃ before between, acts = before ++ Act.fetched i (.ok value) :: between ∧
      (run T before).1.stage? i = some .fetching ∧
      fetchesIn (seen (told i (run T acts).2)) = fetchesIn (seen (told i (run T before).2)) := by
  induction acts using List.reverseRecOn generalizing s with
  | nil => cases hs
  | append_singleton acts act ih =>
    cases hold : (run T acts).1.session? i with
    | none =>
      obtain ⟨interval, retries, -, rfl⟩ := born_concat hold hs
      cases hv
    | some old =>
    have still : ∀ events : List (Event ε α), old.stage.value? = some value → fetchesIn events = 0 →
        told i (run T (acts ++ [act])).2 =
          told i (run T acts).2 ++ events.map ((run T acts).1.now, ·) →
        ∃ before between, acts ++ [act] = before ++ Act.fetched i (.ok value) :: between ∧
          (run T before).1.stage? i = some .fetching ∧
          fetchesIn (seen (told i (run T (acts ++ [act])).2)) =
            fetchesIn (seen (told i (run T before).2)) := by
      intro events hsame hnone htold
      obtain ⟨before, between, rfl, hfetching, hcount⟩ := ih hold hsame
      refine ⟨before, between ++ [act], by simp, hfetching, ?_⟩
      rw [htold, History.seen_append, History.seen_map_stamp, fetchesIn_append, hnone, hcount]
      rfl
    cases hlive : old.isLive with
    | false =>
      obtain ⟨hsame, htold⟩ := over_concat hold hlive act
      obtain rfl := Option.some.inj (hsame.symm.trans hs)
      exact still [] hv rfl (htold.trans (List.append_nil _).symm)
    | true =>
      obtain ⟨raised, after, hacted, -, hsession, htold⟩ := acted_concat hold hlive act
      obtain rfl := Option.some.inj (hsession.symm.trans hs)
      cases hacted with
      | still => exact still _ hv rfl htold
      | early v due h | clears v due h | waits v h => exact still _ (by rw [h]; exact hv) rfl htold
      | asks v h =>
        obtain rfl : v = value := Option.some.inj hv
        refine ⟨acts, [], rfl, ?_, ?_⟩
        · rw [stage?, hold, Option.map_some, h]
        · rw [htold, History.seen_append, History.seen_map_stamp, fetchesIn_append]
          rfl
      | opened | resumed | failed | noticed | concluded | halted | dropped => cases hv

/-- Where a session is not live, a cancel does not show in its lane. -/
theorem lane_cancel_of_not_live (T : Terms α) (p : Poller ε α) (h : p.isLive i = false) :
    (p.lane i).step T i .cancel = (p.lane i, []) := by
  have hflag : (p.lane i).cancelled = false := by
    show (p.isLive i && p.isCancelled i) = false
    rw [h, Bool.false_and]
  show ({ p.lane i with cancelled := p.isLive i }, []) = _
  rw [h, ← hflag]

theorem told_cancel_of_not_live (T : Terms α) (pre post : List (Act ε α))
    (h : (run T pre).1.isLive i = false) :
    (run T (pre ++ Act.cancel :: post)).1.stage? i = (run T (pre ++ post)).1.stage? i ∧
      told i (run T (pre ++ Act.cancel :: post)).2 = told i (run T (pre ++ post)).2 := by
  have hnothing := lane_cancel_of_not_live T _ h
  rw [(lane_run T pre i).1] at hnothing
  have hsame : Lane.new.runFrom T i (pre ++ Act.cancel :: post) =
      Lane.new.runFrom T i (pre ++ post) := by
    rw [Lane.runFrom_append, Lane.runFrom_append, Lane.runFrom_cons, hnothing]
    rfl
  have hlane : (run T (pre ++ Act.cancel :: post)).1.lane i = (run T (pre ++ post)).1.lane i := by
    rw [(lane_run T _ i).1, (lane_run T _ i).1, hsame]
  refine ⟨congrArg (fun l => l.session.map (·.stage)) hlane, ?_⟩
  rw [(lane_run T _ i).2, (lane_run T _ i).2, hsame]

/-- What a session that is not settled does next. -/
theorem stage?_unsettled (hs : (run T acts).1.session? i = some s) :
    (s.stage = .opening → (run T (acts ++ [Act.proceed i])).1.stage? i = some .fetching) ∧
    (∀ value due, s.stage = .cleared value due →
      (run T (acts ++ [Act.proceed i])).1.stage? i =
        some (if due ≤ (run T acts).1.now then .fetching else .waiting value due)) ∧
    ∀ value, s.stage = .matching value →
      (run T (acts ++ [Act.matched i])).1.stage? i =
        some (match s.verdict T.accepts value with
          | some o => .ended (.ok o)
          | none => .waiting value (T.timer.due (run T acts).1.now s.interval)) := by
  refine ⟨fun h => ?_, fun value due h => ?_, fun value h => ?_⟩
  · obtain ⟨raised, after, hacted, -, hsession, -⟩ :=
      acted_concat hs (by rw [Session.isLive, h]; rfl) (.proceed i)
    rw [stage?, hsession]
    cases hacted with
    | still hno => simp [h, Stage.takes] at hno
    | opened => rfl
    | resumed v d h' | early v d h' =>
      rw [h] at h'
      cases h'
  · obtain ⟨raised, after, hacted, -, hsession, -⟩ :=
      acted_concat hs (by rw [Session.isLive, h]; rfl) (.proceed i)
    rw [stage?, hsession]
    cases hacted with
    | still hno => simp [h, Stage.takes] at hno
    | opened h' =>
      rw [h] at h'
      cases h'
    | resumed v d h' hdue =>
      rw [h] at h'
      cases h'
      rw [if_pos hdue]
      rfl
    | early v d h' hdue =>
      rw [h] at h'
      cases h'
      rw [if_neg hdue]
      rfl
  · obtain ⟨raised, after, hacted, -, hsession, -⟩ :=
      acted_concat hs (by rw [Session.isLive, h]; rfl) (.matched i)
    rw [stage?, hsession]
    cases hacted with
    | still hno => simp [h, Stage.takes] at hno
    | concluded v o h' hv =>
      rw [h] at h'
      cases h'
      rw [hv]
      rfl
    | waits v h' hv =>
      rw [h] at h'
      cases h'
      rw [hv]
      rfl

/-- How a cancelled session goes on. -/
theorem cancelled_append (hin : CancelledIn T i acts) (hs : (run T acts).1.session? i = some s)
    (hlive : s.isLive) (more : List (Act ε α)) :
    ∃ later, told i (run T (acts ++ more)).2 = told i (run T acts).2 ++ later ∧
      fetchesIn (seen later) ≤ s.stage.allowance ∧
      evaluationsIn (seen later) ≤ s.stage.questions ∧
      (s.stage.isSettled →
        (run T (acts ++ more)).1.session? i =
            some { s with stage := (more.findSome? (s.stage.closing i)).getD s.stage } ∧
          seen later = ((more.findSome? (s.stage.closing i)).getD s.stage).farewell i) := by
  obtain ⟨later, htold, hfetches, hquestions⟩ := bounded_append hin hs hlive more
  refine ⟨later, htold, hfetches, hquestions, fun hset => ?_⟩
  obtain ⟨hsession, same, hsame, hseen⟩ := settled_append hin hs hset more
  obtain rfl := List.append_cancel_left (hsame.symm.trans htold)
  exact ⟨hsession, hseen⟩

/-- **A cancel reaches the sessions that are live, and no others.**

Live sessions are counted right in every run, so that the end of one never takes one from zero; and
each of them listens to the registered signal or to one that was raised.

A cancel is made in the life of every session that is live then, and neither moves it nor tells anything
of it. From then on a session that fetches or waits makes no further fetch, and its matcher is asked
nothing more. It ends with the error of the fetch that is in flight, or cancelled with its value; or, if it
waits, cancelled with the value that its last fetch gave, and it may do so at once; unless its caller goes
away first. One that was about to fetch, its signal having been looked at, makes that fetch and no other.
One whose matcher was being asked ends by the answer if that ends it, and waits if it does not.

A session that is over when the cancel is made, or that starts later, is told the same and comes to the
same as without the cancel. And where a session ends cancelled, a cancel was made in its life. -/
theorem cancel_reaches_live_sessions (T : Terms α) (acts : List (Act ε α)) :
    ((run T acts).1.live = (run T acts).1.sessions.countP (·.session.isLive) ∧
      ∀ m ∈ (run T acts).1.sessions, m.session.isLive →
        0 < (run T acts).1.live ∧
        (m.signal = (run T acts).1.registered ∨ (run T acts).1.raised m.signal)) ∧
    (∀ i s, (run T acts).1.session? i = some s → s.isLive →
      CancelledIn T i (acts ++ [Act.cancel]) ∧
      (run T (acts ++ [Act.cancel])).1.session? i = some s ∧
      told i (run T (acts ++ [Act.cancel])).2 = told i (run T acts).2) ∧
    (∀ i s, CancelledIn T i acts → (run T acts).1.session? i = some s → s.isLive →
      (∀ more, ∃ later, told i (run T (acts ++ more)).2 = told i (run T acts).2 ++ later ∧
        fetchesIn (seen later) ≤ s.stage.allowance ∧
        evaluationsIn (seen later) ≤ s.stage.questions ∧
        (s.stage.isSettled →
          (run T (acts ++ more)).1.session? i =
              some { s with stage := (more.findSome? (s.stage.closing i)).getD s.stage } ∧
            seen later = ((more.findSome? (s.stage.closing i)).getD s.stage).farewell i)) ∧
      (∀ value, s.stage.value? = some value →
        ∃ before between, acts = before ++ Act.fetched i (.ok value) :: between ∧
          (run T before).1.stage? i = some .fetching ∧
          fetchesIn (seen (told i (run T acts).2)) = fetchesIn (seen (told i (run T before).2))) ∧
      (s.stage = .opening → (run T (acts ++ [Act.proceed i])).1.stage? i = some .fetching) ∧
      (∀ value due, s.stage = .cleared value due →
        (run T (acts ++ [Act.proceed i])).1.stage? i =
          some (if due ≤ (run T acts).1.now then .fetching else .waiting value due)) ∧
      ∀ value, s.stage = .matching value →
        (run T (acts ++ [Act.matched i])).1.stage? i =
          some (match s.verdict T.accepts value with
            | some o => .ended (.ok o)
            | none => .waiting value (T.timer.due (run T acts).1.now s.interval))) ∧
    (∀ i post, (run T acts).1.isLive i = false →
      (run T (acts ++ Act.cancel :: post)).1.stage? i = (run T (acts ++ post)).1.stage? i ∧
      told i (run T (acts ++ Act.cancel :: post)).2 = told i (run T (acts ++ post)).2) ∧
    ∀ i value, (run T acts).1.result? i = some (.ok (.cancelled value)) → CancelledIn T i acts := by
  have htidy := tidy_run T acts
  refine ⟨⟨htidy.live, fun m hm hlive => ⟨htidy.live_pos hm hlive, htidy.held m hm hlive⟩⟩, ?_, ?_,
    fun i post => told_cancel_of_not_live T acts post, ?_⟩
  · intro i s hs hlive
    obtain ⟨raised, after, hacted, -, hsession, htold⟩ := acted_concat hs hlive .cancel
    refine ⟨cancelledIn_cancel ((isLive_of_session? hs).trans hlive) [], ?_⟩
    cases hacted
    exact ⟨hsession, htold.trans (List.append_nil _)⟩
  · intro i s hin hs hlive
    exact ⟨cancelled_append hin hs hlive, fun value => value_fetched hs, stage?_unsettled hs⟩
  · intro i value hresult
    unfold result? at hresult
    split at hresult
    · rename_i r hr
      obtain rfl := Option.some.inj hresult
      obtain ⟨s, hs, hend⟩ := Option.map_eq_some_iff.mp hr
      exact cancelledIn_of_result hs hend
    · cases hresult

/-- Values of 3 are accepted, and the timer keeps time. -/
def threes : Terms Nat := { accepts := (· = 3), timer := .exact }

/-- Session 0 waits and session 1 fetches. -/
def twoSessions : List (Act Unit Nat) :=
  [.start 5 9, .proceed 0, .fetched 0 (.ok 1), .matched 0, .start 5 9, .proceed 1]

/-- Session 2 starts while the fetch of session 1 is still in flight. -/
def thirdSession : List (Act Unit Nat) :=
  [.start 5 9, .proceed 2, .look 0, .fetched 1 (.ok 3), .fetched 2 (.ok 3), .matched 2]

/-- A cancel between them ends the two sessions, and the third one ends as it would have without it. -/
theorem overlapping_sessions_cancelled :
    [0, 1, 2].map (run threes (twoSessions ++ [Act.cancel] ++ thirdSession)).1.stage? =
      [some (.ended (.ok (.cancelled 1))), some (.ended (.ok (.cancelled 3))),
        some (.ended (.ok (.final 3)))] := by
  obtain ⟨-, hreached, -, hother, -⟩ := cancel_reaches_live_sessions threes twoSessions
  obtain ⟨-, -, hgoes, -⟩ := cancel_reaches_live_sessions threes (twoSessions ++ [Act.cancel])
  have hs0 : (run threes twoSessions).1.session? 0 = some ⟨5, 9, 1, .waiting 1 5⟩ := by decide
  have hs1 : (run threes twoSessions).1.session? 1 = some ⟨5, 9, 1, .fetching⟩ := by decide
  obtain ⟨hin0, hlater0, -⟩ := hreached 0 _ hs0 rfl
  obtain ⟨hin1, hlater1, -⟩ := hreached 1 _ hs1 rfl
  obtain ⟨_, -, -, -, h0⟩ := (hgoes 0 _ hin0 hlater0 rfl).1 thirdSession
  obtain ⟨_, -, -, -, h1⟩ := (hgoes 1 _ hin1 hlater1 rfl).1 thirdSession
  have h2 := (hother 2 thirdSession (by decide)).1
  rw [List.append_cons] at h2
  rw [List.map_cons, List.map_cons, List.map_singleton, stage?, (h0 rfl).1, stage?, (h1 rfl).1, h2]
  decide

/-- A cancel that comes while the matcher is asked is overtaken by its answer, be it that the matcher makes
it itself; and one that comes after the look at the signal, when the wait is over, by one more fetch. -/
theorem cancel_overtaken :
    (run (ε := Unit) threes [.start 5 9, .proceed 0, .fetched 0 (.ok 3)]).1.isLive 0 = true ∧
    (run (ε := Unit) threes
      [.start 5 9, .proceed 0, .fetched 0 (.ok 3), .cancel, .matched 0]).1.result? 0 =
        some (.ok (.final 3)) ∧
    (run (ε := Unit) threes
      [.start 5 9, .proceed 0, .fetched 0 (.ok 1), .matched 0, .pass 5, .look 0]).1.isLive 0 = true ∧
    told 0 (run (ε := Unit) threes
      [.start 5 9, .proceed 0, .fetched 0 (.ok 1), .matched 0, .pass 5, .look 0, .cancel, .proceed 0]).2 =
      told 0 (run (ε := Unit) threes
        [.start 5 9, .proceed 0, .fetched 0 (.ok 1), .matched 0, .pass 5, .look 0]).2 ++
          [(5, .fetch 0)] := by
  decide

end Poller

end IntentLoop.Poll
