import IntentLoop.Proofs.Poll.Cancel
/-!
# A session, round by round

The specification of a session is a sequence of rounds. In each of them a fetch gives a result, a cancel
may have been made by the time the result is looked at, and one may have been made when the session looks
at its signal in the wait (`Rounds`). The session ends in the first round that stops it (`Rounds.Stops`), and
how it ends depends on that round alone (`Rounds.Concludes`): a failed fetch wins over a cancel, a cancel
over a match, a match over the budget, and all of these over a cancel that is noticed in the wait.

* `Gives`, `CancelledBy`, `StoppedAfter`: the rounds of a session, as they are found in a run.
* `Course`: where a session stands in its rounds. It starts before the first one (`Course.start`), and
  every act takes it on (`Course.step`).
-/

namespace IntentLoop.Poll

open History (seen)

variable {ε α : Type}

/-! ### The specification -/

/-- What comes of the rounds of a session, numbered from 1. -/
structure Rounds (ε α : Type) where
  /-- What the fetch of the round gives. -/
  result : Nat → Except ε α
  /-- Has a cancel been made when the result is looked at? -/
  cancelled : Nat → Prop
  /-- Has a cancel been made when the session looks at its signal in the wait after the round? -/
  stopped : Nat → Prop

namespace Rounds

/-- Does a session with this budget end in round `k`? -/
inductive Stops (accepts : α → Bool) (budget : Nat) (R : Rounds ε α) (k : Nat) : Prop
  | failed (e : ε) (h : R.result k = .error e)
  | cancelled (h : R.cancelled k)
  | matched (value : α) (h : R.result k = .ok value) (ha : accepts value = true)
  | exhausted (h : k = budget)
  | stopped (h : R.stopped k)

/-- With what a session ends in round `k`. Each way to end is barred by those before it. -/
inductive Concludes (accepts : α → Bool) (budget : Nat) (R : Rounds ε α) (k : Nat) :
    Except ε (Outcome α) → Prop
  | failed (e : ε) (h : R.result k = .error e) : Concludes accepts budget R k (.error e)
  | cancelled (value : α) (h : R.result k = .ok value) (hc : R.cancelled k) :
      Concludes accepts budget R k (.ok (.cancelled value))
  | matched (value : α) (h : R.result k = .ok value) (hc : ¬R.cancelled k)
      (ha : accepts value = true) : Concludes accepts budget R k (.ok (.final value))
  | exhausted (value : α) (h : R.result k = .ok value) (hc : ¬R.cancelled k)
      (ha : accepts value = false) (hk : k = budget) :
      Concludes accepts budget R k (.ok (.timeout value))
  | stopped (value : α) (h : R.result k = .ok value) (hc : ¬R.cancelled k)
      (ha : accepts value = false) (hk : k ≠ budget) (hs : R.stopped k) :
      Concludes accepts budget R k (.ok (.cancelled value))

variable {accepts : α → Bool} {budget : Nat} {R : Rounds ε α} {k : Nat}

theorem Stops.congr {R' : Rounds ε α} (h : R.Stops accepts budget k)
    (hr : R'.result k = R.result k) (hc : R.cancelled k → R'.cancelled k)
    (hs : R.stopped k → R'.stopped k) : R'.Stops accepts budget k := by
  cases h with
  | failed e h => exact .failed e (hr.trans h)
  | cancelled h => exact .cancelled (hc h)
  | matched value h ha => exact .matched value (hr.trans h) ha
  | exhausted h => exact .exhausted h
  | stopped h => exact .stopped (hs h)

theorem Concludes.stops {result : Except ε (Outcome α)} (h : R.Concludes accepts budget k result) :
    R.Stops accepts budget k := by
  cases h with
  | failed e h => exact .failed e h
  | cancelled value h hc => exact .cancelled hc
  | matched value h hc ha => exact .matched value h ha
  | exhausted value h hc ha hk => exact .exhausted hk
  | stopped value h hc ha hk hs => exact .stopped hs

theorem not_stops {value : α} (h : R.result k = .ok value) (hc : ¬R.cancelled k)
    (ha : accepts value = false) (hk : k < budget) (hs : ¬R.stopped k) :
    ¬R.Stops accepts budget k := by
  intro hstops
  cases hstops with
  | failed e he =>
    rw [h] at he
    cases he
  | cancelled hc' => exact hc hc'
  | matched value' h' ha' =>
    rw [h] at h'
    obtain rfl := Except.ok.inj h'
    rw [ha] at ha'
    cases ha'
  | exhausted hk' => omega
  | stopped hs' => exact hs hs'

/-- The verdict on a value is what the round comes to. -/
theorem concludes_of_verdict {s : Session ε α} {value : α} {o : Outcome α}
    (hv : s.verdict accepts value = some o) (hr : R.result s.attempts = .ok value)
    (hc : ¬R.cancelled s.attempts) (hb : s.budget = budget) (hw : s.attempts ≤ budget) :
    R.Concludes accepts budget s.attempts (.ok o) := by
  unfold Session.verdict at hv
  split at hv
  · rename_i ha
    cases hv
    exact .matched value hr hc ha
  · rename_i ha
    split at hv
    · rename_i hk
      cases hv
      exact .exhausted value hr hc (Bool.not_eq_true _ ▸ ha) (by omega)
    · cases hv

theorem waits_of_verdict {s : Session ε α} {value : α} (hv : s.verdict accepts value = none) :
    accepts value = false ∧ s.attempts < s.budget := by
  unfold Session.verdict at hv
  split at hv
  · cases hv
  · rename_i ha
    split at hv
    · cases hv
    · exact ⟨Bool.not_eq_true _ ▸ ha, by omega⟩

end Rounds

/-- What is told of session `i` in a round that is not stopped before its result is looked at. -/
def round (i : Nat) : Except ε α → List (Event ε α)
  | .ok value => [.fetch i, .evaluated i value]
  | .error _ => [.fetch i]

/-- What is told of the first `n` rounds. -/
def rounds (i : Nat) (results : Nat → Except ε α) (n : Nat) : List (Event ε α) :=
  (List.range n).flatMap fun m => round i (results (m + 1))

theorem rounds_succ (i : Nat) (results : Nat → Except ε α) (n : Nat) :
    rounds i results (n + 1) = rounds i results n ++ round i (results (n + 1)) := by
  unfold rounds
  rw [List.range_succ, List.flatMap_append, List.flatMap_singleton]

/-! ### The rounds of a run -/

namespace Poller

variable {T : Terms α} {i : Nat} {acts : List (Act ε α)} {act : Act ε α} {k : Nat}

/-- How many fetches session `i` has made. -/
def fetchesOf (T : Terms α) (i : Nat) (acts : List (Act ε α)) : Nat :=
  fetchesIn (seen (told i (run T acts).2))

/-- The `k`-th fetch of session `i` gives a result. -/
def Gives (T : Terms α) (i : Nat) (acts : List (Act ε α)) (k : Nat) (result : Except ε α) : Prop :=
  Occurs (fun before act => act = .fetched i result ∧
    (run T before).1.stage? i = some .fetching ∧ fetchesOf T i before = k) acts

/-- When the result of its `k`-th fetch is looked at, a cancel has been made in the life of session
`i`. -/
def CancelledBy (T : Terms α) (i : Nat) (acts : List (Act ε α)) (k : Nat) : Prop :=
  Occurs (fun before act => (∃ result, act = .fetched i result) ∧
    (run T before).1.stage? i = some .fetching ∧ fetchesOf T i before = k ∧
    CancelledIn T i before) acts

/-- When session `i` looks at its signal in the wait after its `k`-th fetch, a cancel has been made in its
life. -/
def StoppedAfter (T : Terms α) (i : Nat) (acts : List (Act ε α)) (k : Nat) : Prop :=
  Occurs (fun before act => act = .look i ∧
    (∃ value due, (run T before).1.stage? i = some (.waiting value due)) ∧
    fetchesOf T i before = k ∧ CancelledIn T i before) acts

/-- The rounds of session `i` whose fetches give these results. -/
def roundsOf (T : Terms α) (i : Nat) (acts : List (Act ε α)) (results : Nat → Except ε α) :
    Rounds ε α :=
  ⟨results, CancelledBy T i acts, StoppedAfter T i acts⟩

theorem concat_other (h : k ≠ fetchesOf T i acts) (act : Act ε α) :
    (∀ result, Gives T i (acts ++ [act]) k result ↔ Gives T i acts k result) ∧
    (CancelledBy T i (acts ++ [act]) k ↔ CancelledBy T i acts k) ∧
    (StoppedAfter T i (acts ++ [act]) k ↔ StoppedAfter T i acts k) := by
  refine ⟨fun result => ?_, ?_, ?_⟩
  · exact occurs_concat.trans (or_iff_left fun hnew => h hnew.2.2.symm)
  · exact occurs_concat.trans (or_iff_left fun hnew => h hnew.2.2.1.symm)
  · exact occurs_concat.trans (or_iff_left fun hnew => h hnew.2.2.1.symm)

/-- Does the act teach nothing of the rounds of session `i`? It neither brings the result of a fetch, nor
does the session notice a cancel by it in its wait. -/
def Quiet (T : Terms α) (i : Nat) (acts : List (Act ε α)) (act : Act ε α) : Prop :=
  (∀ result, act = .fetched i result → (run T acts).1.stage? i ≠ some .fetching) ∧
    (act = .look i → (∃ value due, (run T acts).1.stage? i = some (.waiting value due)) →
      ¬CancelledIn T i acts)

theorem Quiet.same (h : Quiet T i acts act) :
    Gives T i (acts ++ [act]) = Gives T i acts ∧
    CancelledBy T i (acts ++ [act]) = CancelledBy T i acts ∧
    StoppedAfter T i (acts ++ [act]) = StoppedAfter T i acts := by
  refine ⟨funext fun k => funext fun result => propext ?_, funext fun k => propext ?_,
    funext fun k => propext ?_⟩
  · exact occurs_concat.trans (or_iff_left fun hnew => h.1 result hnew.1 hnew.2.1)
  · refine occurs_concat.trans (or_iff_left ?_)
    rintro ⟨⟨result, hact⟩, hstage, -⟩
    exact h.1 result hact hstage
  · exact occurs_concat.trans (or_iff_left fun hnew => h.2 hnew.1 hnew.2.1 hnew.2.2.2)

theorem quiet_proceed : Quiet T i acts (.proceed i) := ⟨nofun, nofun⟩

theorem quiet_matched : Quiet T i acts (.matched i) := ⟨nofun, nofun⟩

theorem quiet_look (h : ¬CancelledIn T i acts) : Quiet T i acts (.look i) := ⟨nofun, fun _ _ => h⟩

theorem roundsOf_congr {more : List (Act ε α)} (results : Nat → Except ε α)
    (hc : CancelledBy T i more = CancelledBy T i acts)
    (hs : StoppedAfter T i more = StoppedAfter T i acts) :
    roundsOf T i more results = roundsOf T i acts results := by
  unfold roundsOf
  rw [hc, hs]

/-! ### The course of a session -/

section Course

variable (T : Terms α) (i : Nat) (budget : Nat) (results : Nat → Except ε α) (acts : List (Act ε α))

/-- Where a session stands in round `k`, in each of its stages, and what was told of it. -/
inductive Present (k : Nat) : Stage ε α → Prop
  | opening (hk : k = 0) (htold : seen (told i (run T acts).2) = [.started i]) : Present k .opening
  | fetching (hk : 0 < k) (hc : ¬CancelledBy T i acts k) (hs : ¬StoppedAfter T i acts k)
      (htold : seen (told i (run T acts).2) =
        .started i :: rounds i results (k - 1) ++ [.fetch i]) : Present k .fetching
  | matching (value : α) (hk : 0 < k) (hr : results k = .ok value)
      (hg : Gives T i acts k (results k)) (hc : ¬CancelledBy T i acts k)
      (hs : ¬StoppedAfter T i acts k)
      (htold : seen (told i (run T acts).2) =
        .started i :: rounds i results (k - 1) ++ [.fetch i]) : Present k (.matching value)
  | between (stage : Stage ε α) (value : α) (due : Duration)
      (hstage : stage = .waiting value due ∨ stage = .cleared value due) (hk : 0 < k)
      (hr : results k = .ok value) (hg : Gives T i acts k (results k))
      (hc : ¬CancelledBy T i acts k) (hs : ¬StoppedAfter T i acts k) (ha : T.accepts value = false)
      (hb : k < budget)
      (htold : seen (told i (run T acts).2) = .started i :: rounds i results k) : Present k stage
  | ended (result : Except ε (Outcome α)) (hk : 0 < k) (hg : Gives T i acts k (results k))
      (hconcludes : (roundsOf T i acts results).Concludes T.accepts budget k result)
      (htold : (CancelledBy T i acts k ∧ seen (told i (run T acts).2) =
          .started i :: rounds i results (k - 1) ++ [.fetch i, .ended i result]) ∨
        (¬CancelledBy T i acts k ∧ seen (told i (run T acts).2) =
          .started i :: rounds i results k ++ [.ended i result])) :
      Present k (.ended result)
  | dropped (htold : seen (told i (run T acts).2) =
        .started i :: rounds i results (k - 1) ++ [.fetch i, .dropped i] ∨
      seen (told i (run T acts).2) = .started i :: rounds i results k ++ [.dropped i]) :
      Present k .dropped

/-- A session is in its last round so far; the rounds before it have not ended it, and no later one has
begun. -/
structure Course (interval : Duration) (s : Session ε α) : Prop where
  session : (run T acts).1.session? i = some s
  interval : s.interval = interval
  allowed : s.budget = budget
  count : s.attempts = fetchesOf T i acts
  within : s.attempts ≤ budget
  past : ∀ m, 0 < m → m < s.attempts → Gives T i acts m (results m) ∧
    ¬(roundsOf T i acts results).Stops T.accepts budget m
  future : ∀ m, s.attempts < m → ¬CancelledBy T i acts m ∧ ¬StoppedAfter T i acts m
  present : Present T i budget results acts s.attempts s.stage

end Course

variable {budget : Nat} {results : Nat → Except ε α} {interval : Duration} {s : Session ε α}

namespace Present

variable {stage : Stage ε α}

theorem pos (h : Present T i budget results acts k stage) (ho : stage ≠ .opening)
    (hd : stage ≠ .dropped) : 0 < k := by
  cases h with
  | opening => exact absurd rfl ho
  | dropped => exact absurd rfl hd
  | fetching hk | matching _ hk | between _ _ _ _ hk | ended _ hk => exact hk

theorem quiet (h : Present T i budget results acts k stage) (hq : Quiet T i acts act)
    (htold : told i (run T (acts ++ [act])).2 = told i (run T acts).2) :
    Present T i budget results (acts ++ [act]) k stage := by
  obtain ⟨hgives, hcancelled, hstopped⟩ := hq.same
  cases h with
  | opening hk ht => exact .opening hk (htold ▸ ht)
  | fetching hk hc hs ht => exact .fetching hk (hcancelled ▸ hc) (hstopped ▸ hs) (htold ▸ ht)
  | matching value hk hr hg hc hs ht =>
    exact .matching value hk hr (hgives ▸ hg) (hcancelled ▸ hc) (hstopped ▸ hs) (htold ▸ ht)
  | between stage value due hstage hk hr hg hc hs ha hb ht =>
    exact .between stage value due hstage hk hr (hgives ▸ hg) (hcancelled ▸ hc) (hstopped ▸ hs) ha hb
      (htold ▸ ht)
  | ended result hk hg hconcludes ht =>
    refine .ended result hk (hgives ▸ hg) ?_ (by rw [htold, hcancelled]; exact ht)
    rw [roundsOf_congr results hcancelled hstopped]
    exact hconcludes
  | dropped ht => exact .dropped (htold ▸ ht)

end Present

/-- What is told of the rounds when the last one gave this result and its end is not told yet. -/
theorem rounds_pred (i : Nat) (results : Nat → Except ε α) (hk : 0 < k) :
    rounds i results k = rounds i results (k - 1) ++ round i (results k) := by
  obtain ⟨n, rfl⟩ : ∃ n, k = n + 1 := ⟨k - 1, by omega⟩
  exact rounds_succ i results n

namespace Course

variable (h : Course T i budget results acts interval s)

include h

theorem stage_eq : (run T acts).1.stage? i = some s.stage := by
  rw [stage?, h.session]
  rfl

theorem past_concat (act : Act ε α) {m : Nat} (hm : 0 < m) (hlt : m < s.attempts) :
    Gives T i (acts ++ [act]) m (results m) ∧
      ¬(roundsOf T i (acts ++ [act]) results).Stops T.accepts budget m := by
  obtain ⟨hg, hc, hs⟩ := concat_other (h.count ▸ Nat.ne_of_lt hlt) act
  obtain ⟨hgives, hstops⟩ := h.past m hm hlt
  exact ⟨(hg _).mpr hgives, fun hnew => hstops (hnew.congr rfl hc.mp hs.mp)⟩

theorem future_concat (act : Act ε α) {m : Nat} (hlt : s.attempts < m) :
    ¬CancelledBy T i (acts ++ [act]) m ∧ ¬StoppedAfter T i (acts ++ [act]) m := by
  obtain ⟨-, hc, hs⟩ := concat_other (h.count ▸ Nat.ne_of_gt hlt) act
  rw [hc, hs]
  exact h.future m hlt

theorem fetchesOf_concat {events : List (Event ε α)} {now : Duration}
    (htold : told i (run T (acts ++ [act])).2 = told i (run T acts).2 ++ events.map (now, ·)) :
    fetchesOf T i (acts ++ [act]) = s.attempts + fetchesIn events := by
  unfold fetchesOf
  rw [htold, History.seen_append, History.seen_map_stamp, fetchesIn_append, h.count]
  rfl

/-- The session stays in its round. -/
theorem stay {stage : Stage ε α} {events : List (Event ε α)} {now : Duration}
    (hs : (run T (acts ++ [act])).1.session? i = some { s with stage })
    (htold : told i (run T (acts ++ [act])).2 = told i (run T acts).2 ++ events.map (now, ·))
    (he : fetchesIn events = 0) (hp : Present T i budget results (acts ++ [act]) s.attempts stage) :
    Course T i budget results (acts ++ [act]) interval { s with stage } where
  session := hs
  interval := h.interval
  allowed := h.allowed
  count := by
    rw [h.fetchesOf_concat htold, he]
    rfl
  within := h.within
  past m hm hlt := h.past_concat act hm hlt
  future m hlt := h.future_concat act hlt
  present := hp

theorem quiet (hs : (run T (acts ++ [act])).1.session? i = some s)
    (htold : told i (run T (acts ++ [act])).2 = told i (run T acts).2) (hq : Quiet T i acts act) :
    Course T i budget results (acts ++ [act]) interval s := by
  have hnone : told i (run T (acts ++ [act])).2 =
      told i (run T acts).2 ++ ([] : List (Event ε α)).map ((0 : Duration), ·) :=
    htold.trans (List.append_nil _).symm
  exact h.stay hs hnone rfl (h.present.quiet hq htold)

/-- The session waits as before, and looks at its signal or at the time next. -/
theorem rest {stage other : Stage ε α} {value : α} {due : Duration} {now : Duration}
    (hold : s.stage = other)
    (hstages : other = .waiting value due ∧ stage = .cleared value due ∨
      other = .cleared value due ∧ stage = .waiting value due)
    (hs : (run T (acts ++ [act])).1.session? i = some { s with stage })
    (htold : told i (run T (acts ++ [act])).2 =
      told i (run T acts).2 ++ ([] : List (Event ε α)).map (now, ·)) (hq : Quiet T i acts act) :
    Course T i budget results (acts ++ [act]) interval { s with stage } := by
  refine h.stay hs htold rfl ?_
  have hp := h.present.quiet hq (htold.trans (List.append_nil _))
  rw [hold] at hp
  rcases hstages with ⟨rfl, rfl⟩ | ⟨rfl, rfl⟩
  · cases hp with
    | between _ v d hstage hk hr hg hc hs ha hb ht =>
      obtain ⟨rfl, rfl⟩ : value = v ∧ due = d := by simpa using hstage
      exact .between _ value due (Or.inr rfl) hk hr hg hc hs ha hb ht
  · cases hp with
    | between _ v d hstage hk hr hg hc hs ha hb ht =>
      obtain ⟨rfl, rfl⟩ : value = v ∧ due = d := by simpa using hstage
      exact .between _ value due (Or.inl rfl) hk hr hg hc hs ha hb ht

/-- What is learnt of the round when its fetch is over. -/
theorem learnt (hf : s.stage = .fetching) (result : Except ε α) :
    Gives T i (acts ++ [Act.fetched i result]) s.attempts result ∧
      (CancelledBy T i (acts ++ [Act.fetched i result]) s.attempts ↔ CancelledIn T i acts) ∧
      ¬StoppedAfter T i (acts ++ [Act.fetched i result]) s.attempts ∧ 0 < s.attempts ∧
      seen (told i (run T acts).2) =
        .started i :: rounds i results (s.attempts - 1) ++ [.fetch i] := by
  have hp := h.present
  rw [hf] at hp
  have hstage := h.stage_eq
  rw [hf] at hstage
  cases hp with
  | between _ _ _ hno => rcases hno with hno | hno <;> cases hno
  | fetching hk hc hs htold =>
  refine ⟨occurs_concat.mpr (Or.inr ⟨rfl, hstage, h.count.symm⟩), ?_, ?_, hk, htold⟩
  · constructor
    · intro hby
      exact (occurs_concat.mp hby).elim (fun hold => absurd hold hc) (·.2.2.2)
    · intro hin
      exact occurs_concat.mpr (Or.inr ⟨⟨result, rfl⟩, hstage, h.count.symm, hin⟩)
  · intro hstop
    rcases occurs_concat.mp hstop with hold | ⟨hact, -⟩
    · exact hs hold
    · cases hact

theorem fail {e : ε} (hf : s.stage = .fetching)
    (hr : ∀ k result, Gives T i (acts ++ [Act.fetched i (.error e)]) k result → result = results k)
    (hs : (run T (acts ++ [Act.fetched i (.error e)])).1.session? i =
      some { s with stage := .ended (.error e) }) {now : Duration}
    (htold : told i (run T (acts ++ [Act.fetched i (.error e)])).2 =
      told i (run T acts).2 ++ [Event.ended i (.error e)].map (now, ·)) :
    Course T i budget results (acts ++ [Act.fetched i (.error e)]) interval
      { s with stage := .ended (.error e) } := by
  obtain ⟨hg, -, -, hk, hbefore⟩ := h.learnt hf (.error e)
  have hresult := hr _ _ hg
  refine h.stay hs htold rfl (.ended (.error e) hk (hresult ▸ hg) (.failed e hresult.symm) ?_)
  rw [htold, History.seen_append, History.seen_map_stamp, hbefore]
  refine (em _).imp (fun hc => ⟨hc, ?_⟩) (fun hc => ⟨hc, ?_⟩)
  · simp
  · rw [rounds_pred i results hk, ← hresult]
    simp [round]

theorem notice {value : α} (hf : s.stage = .fetching) (hin : CancelledIn T i acts)
    (hr : ∀ k result, Gives T i (acts ++ [Act.fetched i (.ok value)]) k result → result = results k)
    (hs : (run T (acts ++ [Act.fetched i (.ok value)])).1.session? i =
      some { s with stage := .ended (.ok (.cancelled value)) }) {now : Duration}
    (htold : told i (run T (acts ++ [Act.fetched i (.ok value)])).2 =
      told i (run T acts).2 ++ [Event.ended i (.ok (.cancelled value))].map (now, ·)) :
    Course T i budget results (acts ++ [Act.fetched i (.ok value)]) interval
      { s with stage := .ended (.ok (.cancelled value)) } := by
  obtain ⟨hg, hcancelled, -, hk, hbefore⟩ := h.learnt hf (.ok value)
  have hresult := hr _ _ hg
  have hby := hcancelled.mpr hin
  refine h.stay hs htold rfl
    (.ended _ hk (hresult ▸ hg) (.cancelled value hresult.symm hby) (Or.inl ⟨hby, ?_⟩))
  rw [htold, History.seen_append, History.seen_map_stamp, hbefore]
  simp

theorem ask {value : α} (hf : s.stage = .fetching) (hin : ¬CancelledIn T i acts)
    (hr : ∀ k result, Gives T i (acts ++ [Act.fetched i (.ok value)]) k result → result = results k)
    (hs : (run T (acts ++ [Act.fetched i (.ok value)])).1.session? i =
      some { s with stage := .matching value }) {now : Duration}
    (htold : told i (run T (acts ++ [Act.fetched i (.ok value)])).2 =
      told i (run T acts).2 ++ ([] : List (Event ε α)).map (now, ·)) :
    Course T i budget results (acts ++ [Act.fetched i (.ok value)]) interval
      { s with stage := .matching value } := by
  obtain ⟨hg, hcancelled, hstopped, hk, hbefore⟩ := h.learnt hf (.ok value)
  have hresult := hr _ _ hg
  refine h.stay hs htold rfl (.matching value hk hresult.symm (hresult ▸ hg)
    (fun hby => hin (hcancelled.mp hby)) hstopped ?_)
  rw [htold]
  exact (congrArg seen (List.append_nil _)).trans hbefore

theorem conclude {value : α} {o : Outcome α} (hm : s.stage = .matching value)
    (hv : s.verdict T.accepts value = some o)
    (hs : (run T (acts ++ [Act.matched i])).1.session? i = some { s with stage := .ended (.ok o) })
    {now : Duration}
    (htold : told i (run T (acts ++ [Act.matched i])).2 =
      told i (run T acts).2 ++ [.evaluated i value, .ended i (.ok o)].map (now, ·)) :
    Course T i budget results (acts ++ [Act.matched i]) interval { s with stage := .ended (.ok o) } := by
  have hquiet : Quiet T i acts (.matched i) := quiet_matched
  obtain ⟨hgives, hcancelled, hstopped⟩ := hquiet.same
  have hp := h.present
  rw [hm] at hp
  cases hp with
  | between _ _ _ hno => rcases hno with hno | hno <;> cases hno
  | matching _ hk hr hg hc hst ht =>
  refine h.stay hs htold rfl (.ended (.ok o) hk (hgives ▸ hg) ?_ (Or.inr ⟨hcancelled ▸ hc, ?_⟩))
  · rw [roundsOf_congr results hcancelled hstopped]
    exact Rounds.concludes_of_verdict hv hr hc h.allowed h.within
  · rw [htold, History.seen_append, History.seen_map_stamp, ht, rounds_pred i results hk, hr]
    simp [round]

theorem wait {value : α} {due : Duration} (hm : s.stage = .matching value)
    (hv : s.verdict T.accepts value = none)
    (hs : (run T (acts ++ [Act.matched i])).1.session? i = some { s with stage := .waiting value due })
    {now : Duration}
    (htold : told i (run T (acts ++ [Act.matched i])).2 =
      told i (run T acts).2 ++ [Event.evaluated i value].map (now, ·)) :
    Course T i budget results (acts ++ [Act.matched i]) interval
      { s with stage := .waiting value due } := by
  have hquiet : Quiet T i acts (.matched i) := quiet_matched
  obtain ⟨hgives, hcancelled, hstopped⟩ := hquiet.same
  obtain ⟨ha, hlt⟩ := Rounds.waits_of_verdict hv
  have hp := h.present
  rw [hm] at hp
  cases hp with
  | between _ _ _ hno => rcases hno with hno | hno <;> cases hno
  | matching _ hk hr hg hc hst ht =>
  refine h.stay hs htold rfl (.between _ value due (Or.inl rfl) hk hr (hgives ▸ hg) (hcancelled ▸ hc)
    (hstopped ▸ hst) ha (h.allowed ▸ hlt) ?_)
  rw [htold, History.seen_append, History.seen_map_stamp, ht, rounds_pred i results hk, hr]
  simp [round]

theorem halt {value : α} {due : Duration} (hw : s.stage = .waiting value due)
    (hin : CancelledIn T i acts)
    (hs : (run T (acts ++ [Act.look i])).1.session? i =
      some { s with stage := .ended (.ok (.cancelled value)) }) {now : Duration}
    (htold : told i (run T (acts ++ [Act.look i])).2 =
      told i (run T acts).2 ++ [Event.ended i (.ok (.cancelled value))].map (now, ·)) :
    Course T i budget results (acts ++ [Act.look i]) interval
      { s with stage := .ended (.ok (.cancelled value)) } := by
  have hp := h.present
  have hstage := h.stage_eq
  rw [hw] at hp hstage
  cases hp with
  | between _ v d hwaiting hk hr hg hc hst ha hb ht =>
  obtain ⟨rfl, rfl⟩ : value = v ∧ due = d := by simpa using hwaiting
  have hby : ¬CancelledBy T i (acts ++ [Act.look i]) s.attempts := by
    intro hnew
    rcases occurs_concat.mp hnew with hold | ⟨⟨_, hact⟩, -⟩
    · exact hc hold
    · cases hact
  have hnow : StoppedAfter T i (acts ++ [Act.look i]) s.attempts :=
    occurs_concat.mpr (Or.inr ⟨rfl, ⟨value, due, hstage⟩, h.count.symm, hin⟩)
  refine h.stay hs htold rfl (.ended _ hk (occurs_concat.mpr (Or.inl hg))
    (.stopped value hr hby ha (Nat.ne_of_lt hb) hnow) (Or.inr ⟨hby, ?_⟩))
  rw [htold, History.seen_append, History.seen_map_stamp, ht]

/-- The next round begins with its fetch. -/
theorem advance (hb : s.stage = .opening ∨ ∃ value due, s.stage = .cleared value due)
    (hs : (run T (acts ++ [Act.proceed i])).1.session? i = some (s.fetch i).1) {now : Duration}
    (htold : told i (run T (acts ++ [Act.proceed i])).2 =
      told i (run T acts).2 ++ (s.fetch i).2.map (now, ·)) (hpos : 0 < budget) :
    Course T i budget results (acts ++ [Act.proceed i]) interval (s.fetch i).1 := by
  have hquiet : Quiet T i acts (.proceed i) := quiet_proceed
  obtain ⟨hgives, hcancelled, hstopped⟩ := hquiet.same
  -- the round before, if there was one, was not stopped
  obtain ⟨hlt, hlast, ht⟩ : s.attempts < budget ∧
      (0 < s.attempts → Gives T i acts s.attempts (results s.attempts) ∧
        ¬(roundsOf T i acts results).Stops T.accepts budget s.attempts) ∧
      seen (told i (run T acts).2) = .started i :: rounds i results s.attempts := by
    have hp := h.present
    rcases hb with hb | ⟨value, due, hb⟩
    · rw [hb] at hp
      cases hp with
      | between _ _ _ hno => rcases hno with hno | hno <;> cases hno
      | opening hk htold =>
        refine ⟨by omega, fun hpos => absurd hpos (by omega), ?_⟩
        rw [htold, hk]
        rfl
    · rw [hb] at hp
      cases hp with
      | between _ v d hstage hk hr hg hc hst ha hb ht =>
        exact ⟨hb, fun _ => ⟨hg, Rounds.not_stops hr hc ha hb hst⟩, ht⟩
  constructor
  case session => exact hs
  case interval => exact h.interval
  case allowed => exact h.allowed
  case count =>
    rw [h.fetchesOf_concat htold]
    rfl
  case within => exact hlt
  case past =>
    intro m hm hlt
    rcases Nat.lt_succ_iff_lt_or_eq.mp hlt with hlt | rfl
    · exact h.past_concat (.proceed i) hm hlt
    · obtain ⟨hg, hstops⟩ := hlast hm
      refine ⟨hgives ▸ hg, ?_⟩
      rw [roundsOf_congr results hcancelled hstopped]
      exact hstops
  case future =>
    intro m hlt
    exact h.future_concat (.proceed i) (Nat.lt_of_succ_lt hlt)
  case present =>
    obtain ⟨hby', hstop'⟩ := h.future_concat (.proceed i) (Nat.lt_succ_self s.attempts)
    refine .fetching (Nat.succ_pos _) hby' hstop' ?_
    rw [htold, History.seen_append, History.seen_map_stamp, ht]
    rfl

theorem drop (hlive : s.isLive)
    (hs : (run T (acts ++ [Act.drop i])).1.session? i = some { s with stage := .dropped })
    {now : Duration}
    (htold : told i (run T (acts ++ [Act.drop i])).2 =
      told i (run T acts).2 ++ [Event.dropped i].map (now, ·)) :
    Course T i budget results (acts ++ [Act.drop i]) interval { s with stage := .dropped } := by
  refine h.stay hs htold rfl (.dropped ?_)
  rw [htold, History.seen_append, History.seen_map_stamp]
  have hp := h.present
  unfold Session.isLive at hlive
  generalize s.stage = stage at hp hlive
  cases hp with
  | opening hk ht =>
    rw [ht, hk]
    exact Or.inr rfl
  | fetching _ _ _ ht | matching _ _ _ _ _ _ ht => exact Or.inl (by rw [ht]; simp)
  | between _ _ _ _ _ _ _ _ _ _ _ ht => exact Or.inr (by rw [ht])
  | ended | dropped => cases hlive

/-- **An act takes a session on in its course**, provided that the fetches give these results. -/
theorem step (hpos : 0 < budget)
    (hr : ∀ k result, Gives T i (acts ++ [act]) k result → result = results k) :
    ∃ s', Course T i budget results (acts ++ [act]) interval s' := by
  have hstage := h.stage_eq
  cases hlive : s.isLive with
  | false =>
    obtain ⟨hsame, htold⟩ := over_concat h.session hlive act
    refine ⟨s, h.quiet hsame htold ⟨fun _ _ hf => ?_, fun _ ⟨_, _, hw⟩ => ?_⟩⟩
    · rw [Session.isLive, Option.some.inj (hstage.symm.trans hf)] at hlive
      cases hlive
    · rw [Session.isLive, Option.some.inj (hstage.symm.trans hw)] at hlive
      cases hlive
  | true =>
  obtain ⟨raised, after, hacted, hraised, hs, htold⟩ := acted_concat h.session hlive act
  have hunraised : raised = false → ¬CancelledIn T i acts := by
    intro hno hin
    rw [hraised.mpr hin] at hno
    cases hno
  cases hacted with
  | still hno =>
    refine ⟨s, h.quiet hs (htold.trans (List.append_nil _)) ⟨?_, ?_⟩⟩
    · rintro result rfl hf
      rw [Option.some.inj (hstage.symm.trans hf)] at hno
      simp [Stage.takes] at hno
    · rintro rfl ⟨_, _, hw⟩
      rw [Option.some.inj (hstage.symm.trans hw)] at hno
      simp [Stage.takes] at hno
  | opened ho => exact ⟨_, h.advance (Or.inl ho) hs htold hpos⟩
  | resumed value due hc => exact ⟨_, h.advance (Or.inr ⟨value, due, hc⟩) hs htold hpos⟩
  | early value due hc =>
    exact ⟨_, h.rest hc (Or.inr ⟨rfl, rfl⟩) hs htold quiet_proceed⟩
  | failed e hf => exact ⟨_, h.fail hf hr hs htold⟩
  | noticed value hf hc => exact ⟨_, h.notice hf (hraised.mp hc) hr hs htold⟩
  | asks value hf hc => exact ⟨_, h.ask hf (hunraised hc) hr hs htold⟩
  | concluded value o hm hv => exact ⟨_, h.conclude hm hv hs htold⟩
  | waits value hm hv => exact ⟨_, h.wait hm hv hs htold⟩
  | halted value due hw hc => exact ⟨_, h.halt hw (hraised.mp hc) hs htold⟩
  | clears value due hw hc =>
    exact ⟨_, h.rest hw (Or.inl ⟨rfl, rfl⟩) hs htold (quiet_look (hunraised hc))⟩
  | dropped => exact ⟨_, h.drop hlive hs htold⟩

end Course

/-- Before a session starts, nothing is known of its rounds. -/
structure Unbegun (T : Terms α) (i : Nat) (acts : List (Act ε α)) : Prop where
  untold : told i (run T acts).2 = []
  unlooked : ∀ k, ¬CancelledBy T i acts k
  unstopped : ∀ k, ¬StoppedAfter T i acts k

theorem Unbegun.concat (h : Unbegun T i acts) (hnone : (run T acts).1.session? i = none)
    (act : Act ε α) :
    (∀ k, ¬CancelledBy T i (acts ++ [act]) k) ∧ ∀ k, ¬StoppedAfter T i (acts ++ [act]) k := by
  have hstage : (run T acts).1.stage? i = none := by
    rw [stage?, hnone]
    rfl
  have hquiet : Quiet T i acts act := ⟨by simp [hstage], by simp [hstage]⟩
  obtain ⟨-, hcancelled, hstopped⟩ := hquiet.same
  rw [hcancelled, hstopped]
  exact ⟨h.unlooked, h.unstopped⟩

theorem unbegun (hnone : (run T acts).1.session? i = none) : Unbegun T i acts := by
  induction acts using List.reverseRecOn with
  | nil => exact ⟨rfl, fun _ => occurs_nil, fun _ => occurs_nil⟩
  | append_singleton acts act ih =>
    obtain ⟨hlane, htold⟩ := lane_run_concat T acts act i
    have hbefore : (run T acts).1.session? i = none :=
      session?_eq_none_iff.mpr
        (Nat.le_trans (length_le_concat T acts act) (session?_eq_none_iff.mp hnone))
    obtain ⟨hc, hs⟩ := (ih hbefore).concat hbefore act
    refine ⟨?_, hc, hs⟩
    rw [htold, (ih hbefore).untold, Lane.step_unborn (l := (run T acts).1.lane i) hbefore]
    · rfl
    rintro interval retries rfl hstarted
    have hborn : (run T (acts ++ [Act.start interval retries])).1.session? i =
        some (.start interval retries) := by
      show ((run T (acts ++ [Act.start interval retries])).1.lane i).session = _
      rw [hlane, Lane.step_start_self hstarted]
    rw [hnone] at hborn
    cases hborn

theorem Course.start (T : Terms α) (pre : List (Act ε α)) (interval : Duration) (retries : Nat)
    (results : Nat → Except ε α) :
    Course T (run T pre).1.sessions.length (max 1 retries) results
      (pre ++ [Act.start interval retries]) interval (.start interval retries) := by
  generalize hi : (run T pre).1.sessions.length = i
  have hnone : (run T pre).1.session? i = none := session?_eq_none_iff.mpr (Nat.le_of_eq hi)
  have hunbegun : Unbegun T i pre := unbegun hnone
  obtain ⟨hc, hs⟩ := hunbegun.concat hnone (.start interval retries)
  obtain ⟨hlane, htold⟩ := lane_run_concat T pre (.start interval retries) i
  have hstep : ((run T pre).1.lane i).step T i (.start interval retries) = _ :=
    Lane.step_start_self hi interval retries
  rw [hstep, hunbegun.untold] at htold
  constructor
  case session =>
    show ((run T (pre ++ [Act.start interval retries])).1.lane i).session = _
    rw [hlane, hstep]
  case interval => rfl
  case allowed => rfl
  case count =>
    rw [fetchesOf, htold]
    rfl
  case within => exact Nat.zero_le _
  case past =>
    intro m hm hlt
    exact absurd hlt (Nat.not_lt_zero m)
  case future => exact fun m _ => ⟨hc m, hs m⟩
  case present =>
    refine .opening rfl ?_
    rw [htold]
    rfl

end Poller

end IntentLoop.Poll
