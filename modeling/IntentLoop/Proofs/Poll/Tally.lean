import IntentLoop.Proofs.Poll.Lanes
/-!
# Sessions and fetches counted

Every session keeps within its budget of fetches, and one that has a fetch still to make may make it
(`Session.Within`). What is told of the sessions tells how many there are, and how many fetches they
have made together (`Tally`): a move of a session adds to the count just what the session itself counts
(`Session.Counted`). No session fails but by a fetch that fails (`Poller.step_unfailed`).
-/

namespace IntentLoop.Poll

variable {ε α : Type} {T : Terms α}

namespace Event

def isStart : Event ε α → Bool
  | .started _ => true
  | _ => false

def isFetch : Event ε α → Bool
  | .fetch _ => true
  | _ => false

end Event

/-- How many sessions were started. -/
def startsIn (past : List (Event ε α)) : Nat := past.countP (·.isStart)

/-- How many fetches were made. -/
def fetchesIn (past : List (Event ε α)) : Nat := past.countP (·.isFetch)

@[simp] theorem startsIn_append (past later : List (Event ε α)) :
    startsIn (past ++ later) = startsIn past + startsIn later := List.countP_append

@[simp] theorem fetchesIn_append (past later : List (Event ε α)) :
    fetchesIn (past ++ later) = fetchesIn past + fetchesIn later := List.countP_append

/-- Has a session in this stage made up its mind to make another fetch, if nothing stops it? -/
def Stage.isBetween : Stage ε α → Bool
  | opening | waiting _ _ | cleared _ _ => true
  | fetching | matching _ | ended _ | dropped => false

namespace Session

/-- A session keeps within its budget, and waits only for a fetch that it may make. -/
structure Within (s : Session ε α) : Prop where
  attempts : s.attempts ≤ s.budget
  between : s.stage.isBetween → s.attempts < s.budget

theorem Within.start (interval : Duration) (retries : Nat) :
    Within (start interval retries : Session ε α) where
  attempts := Nat.zero_le _
  between _ := Nat.lt_of_lt_of_le Nat.one_pos (Nat.le_max_left 1 retries)

theorem Within.toStage {s : Session ε α} (h : s.Within) {stage : Stage ε α}
    (hb : stage.isBetween → s.attempts < s.budget) : Within { s with stage } where
  attempts := h.attempts
  between := hb

/-- What a move of a session makes of it: the fetch that it makes is counted, its budget stays as it
was, and no session starts with it. -/
structure Counted (s : Session ε α) (after : Session ε α × List (Event ε α)) : Prop where
  budget : after.1.budget = s.budget
  starts : startsIn after.2 = 0
  fetches : after.1.attempts = s.attempts + fetchesIn after.2
  within : s.Within → after.1.Within

variable {s : Session ε α}

theorem lt_of_verdict {accepts : α → Bool} {value : α} (h : s.verdict accepts value = none) :
    s.attempts < s.budget := by
  unfold verdict at h
  split at h
  · cases h
  · split at h
    · cases h
    · omega

theorem Acted.counted {now : Duration} {i : Nat} {raised : Bool} {act : Act ε α}
    {after : Session ε α × List (Event ε α)} (h : Acted T now i raised s act after) :
    Counted s after := by
  -- a fetch is made by a session that had one to make
  have fetched : s.stage.isBetween → Counted s (s.fetch i) := fun hb =>
    ⟨rfl, rfl, rfl, fun h => ⟨h.between hb, nofun⟩⟩
  cases h with
  | still => exact ⟨rfl, rfl, rfl, id⟩
  | opened hs => exact fetched (by rw [hs]; rfl)
  | resumed value due hs => exact fetched (by rw [hs]; rfl)
  | early value due hs | clears value due hs =>
    exact ⟨rfl, rfl, rfl, fun h => h.toStage fun _ => h.between (by rw [hs]; rfl)⟩
  | waits value hs hv => exact ⟨rfl, rfl, rfl, fun h => h.toStage fun _ => lt_of_verdict hv⟩
  | failed | noticed | asks | concluded | halted | dropped =>
    exact ⟨rfl, rfl, rfl, fun h => h.toStage nofun⟩

theorem Acted.unfailed {now : Duration} {i : Nat} {raised : Bool} {act : Act ε α}
    {after : Session ε α × List (Event ε α)} (h : Acted T now i raised s act after)
    (hact : ∀ e, act ≠ .fetched i (.error e)) (j : Nat) (e : ε) : .ended j (.error e) ∉ after.2 := by
  cases h with
  | failed e' => exact absurd rfl (hact e')
  | still | opened | resumed | early | noticed | asks | concluded | waits | halted | clears | dropped =>
    simp [fetch, finish]

end Session

namespace Poller

variable {p : Poller ε α} {past : List (Event ε α)}

theorem eq_dropped {i : Nat} {event : Event ε α}
    (h : event ∈ (p.onSession i fun _ => Session.drop i).2) : event = .dropped i := by
  simp only [onSession, Session.drop] at h
  split at h
  · split at h
    · exact List.mem_singleton.mp h
    · cases h
  · cases h

/-- What was told of the sessions of a poller counts them and their fetches. -/
structure Tally (p : Poller ε α) (past : List (Event ε α)) : Prop where
  starts : startsIn past = p.sessions.length
  fetches : fetchesIn past = (p.sessions.map (·.session.attempts)).sum
  within : ∀ m ∈ p.sessions, m.session.Within

namespace Tally

theorem new : Tally (new : Poller ε α) [] where
  starts := rfl
  fetches := rfl
  within := nofun

theorem start (h : Tally p past) (interval : Duration) (retries : Nat) :
    Tally (p.start interval retries) (past ++ [.started p.sessions.length]) where
  starts := by
    rw [startsIn_append, h.starts, sessions_start, List.length_append]
    rfl
  fetches := by
    rw [fetchesIn_append, h.fetches, sessions_start, List.map_append, List.sum_append]
    rfl
  within m hm := by
    rw [sessions_start] at hm
    rcases List.mem_append.mp hm with hm | hm
    · exact h.within m hm
    · rw [List.mem_singleton.mp hm]
      exact .start interval retries

theorem onSession (h : Tally p past) {i : Nat} {now : Duration} {act : Act ε α}
    {move : Bool → Session ε α → Session ε α × List (Event ε α)}
    (hmove : Session.IsMove T now i act move) :
    Tally (p.onSession i move).1 (past ++ (p.onSession i move).2) := by
  unfold Poller.onSession
  cases hm : p.sessions[i]? with
  | none =>
    rw [List.append_nil]
    exact h
  | some m =>
    dsimp only
    obtain ⟨hlt, hget⟩ := List.getElem?_eq_some_iff.mp hm
    have hcounted := (hmove (p.raised m.signal) m.session).counted
    refine ⟨?_, ?_, ?_⟩
    · rw [startsIn_append, hcounted.starts, h.starts]
      exact (List.length_set ..).symm
    · have hsum := sum_map_set_add (·.session.attempts) hm
        ({ m with session := (move (p.raised m.signal) m.session).1 } : Member ε α)
      have hfetches := hcounted.fetches
      rw [fetchesIn_append, h.fetches]
      dsimp only at hsum ⊢
      omega
    · intro n hn
      rcases List.mem_or_eq_of_mem_set hn with hn | rfl
      · exact h.within n hn
      · exact hcounted.within (h.within m (hget ▸ List.getElem_mem hlt))

/-- **Every act keeps it.** -/
theorem step (T : Terms α) (h : Tally p past) (act : Act ε α) :
    Tally (p.step T act).1 (past ++ (p.step T act).2) := by
  have silent : ∀ {q : Poller ε α} {events : List (Event ε α)}, q.sessions = p.sessions →
      startsIn events = 0 → fetchesIn events = 0 → Tally q (past ++ events) := by
    intro q events hq hstarts hfetches
    refine ⟨?_, ?_, hq ▸ h.within⟩
    · rw [startsIn_append, h.starts, hstarts, hq, Nat.add_zero]
    · rw [fetchesIn_append, h.fetches, hfetches, hq, Nat.add_zero]
  cases act with
  | start interval retries => exact h.start interval retries
  | proceed i => exact h.onSession (Session.isMove_proceed T p.now i)
  | fetched i result => exact h.onSession (Session.isMove_fetched T p.now i result)
  | matched i => exact h.onSession (Session.isMove_matched T p.now i)
  | look i => exact h.onSession (Session.isMove_look T p.now i)
  | drop i => exact h.onSession (Session.isMove_drop T p.now i)
  | cancel => exact silent rfl rfl rfl
  | pass time => exact silent rfl rfl rfl

end Tally

/-- No session fails but by a fetch that fails. -/
theorem step_unfailed {act : Act ε α} (hact : ∀ i e, act ≠ .fetched i (.error e)) (j : Nat) (e : ε) :
    .ended j (.error e) ∉ (p.step T act).2 := by
  have moves : ∀ {i : Nat} {move : Bool → Session ε α → Session ε α × List (Event ε α)},
      Session.IsMove T p.now i act move → .ended j (.error e) ∉ (p.onSession i move).2 := by
    intro i move hmove
    unfold onSession
    split
    · exact (hmove _ _).unfailed (hact i) j e
    · exact List.not_mem_nil
  cases act with
  | proceed i => exact moves (Session.isMove_proceed T p.now i)
  | fetched i result => exact moves (Session.isMove_fetched T p.now i result)
  | matched i => exact moves (Session.isMove_matched T p.now i)
  | look i => exact moves (Session.isMove_look T p.now i)
  | drop i => exact moves (Session.isMove_drop T p.now i)
  | start | cancel | pass => simp [step]

end Poller

end IntentLoop.Poll
