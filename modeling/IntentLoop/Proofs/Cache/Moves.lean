import IntentLoop.Cache.TimedCache
import IntentLoop.Proofs.History
/-!
# What a cache can do

An act on a cache is at most two of the moves listed here, one after the other at the same instant.
`Move` says of each move when it can be made, what it changes and what is seen of it, so that
whatever is to hold of a run is proved move by move:

* `step_moves`: an act consists of moves.
* `runFrom_induct`: what holds at first and is kept by every move holds after every run.
* `runFrom_append`: a run goes on from where a shorter one stopped.

The fetches of a cache are looked at as a list by ticket, through the stage of each (`stageOf`) and
the fetch that each has to let settle first (`overtakenBy`).
-/

namespace IntentLoop.Cache

variable {ε α : Type}

/-! ### Fetches by ticket -/

/-- The stage of a fetch. -/
def stageOf (fs : List (Flight ε α)) (ticket : Nat) : Option (FlightStage ε α) :=
  (fs[ticket]?).map (·.stage)

/-- The fetch that the fetch with this ticket overtook, if there is such a fetch and it overtook
one. -/
def overtakenBy (fs : List (Flight ε α)) (ticket : Nat) : Option (Option Nat) :=
  (fs[ticket]?).map (·.overtaken)

def Settled (fs : List (Flight ε α)) (ticket : Nat) : Prop :=
  ∃ result, stageOf fs ticket = some (.settled result)

theorem stageOf_of_getElem? {fs : List (Flight ε α)} {t : Nat} {f : Flight ε α}
    (h : fs[t]? = some f) : stageOf fs t = some f.stage := by
  rw [stageOf, h, Option.map_some]

theorem lt_length_of_stageOf {fs : List (Flight ε α)} {t : Nat} {stage : FlightStage ε α}
    (h : stageOf fs t = some stage) : t < fs.length := by
  rw [stageOf, Option.map_eq_some_iff] at h
  obtain ⟨f, hf, -⟩ := h
  exact (List.getElem?_eq_some_iff.mp hf).1

theorem stageOf_append_singleton (fs : List (Flight ε α)) (f : Flight ε α) (t : Nat) :
    stageOf (fs ++ [f]) t = if t = fs.length then some f.stage else stageOf fs t := by
  rw [stageOf, getElem?_append_singleton]
  split <;> rfl

theorem overtakenBy_append_singleton (fs : List (Flight ε α)) (f : Flight ε α) (t : Nat) :
    overtakenBy (fs ++ [f]) t = if t = fs.length then some f.overtaken else overtakenBy fs t := by
  rw [overtakenBy, getElem?_append_singleton]
  split <;> rfl

namespace TimedCache

@[simp] theorem setStage_length (t : Nat) (stage : FlightStage ε α) (c : TimedCache ε α) :
    (c.setStage t stage).flights.length = c.flights.length := by
  rw [setStage, List.length_modify]

theorem stageOf_setStage {t : Nat} {c : TimedCache ε α} (ht : t < c.flights.length)
    (stage : FlightStage ε α) (s : Nat) :
    stageOf (c.setStage t stage).flights s = if s = t then some stage else stageOf c.flights s := by
  unfold stageOf setStage
  rw [List.getElem?_modify]
  by_cases hs : s = t
  · rw [if_pos hs, hs, List.getElem?_eq_getElem ht]
    simp
  · rw [if_neg hs]
    simp [Ne.symm hs]

@[simp] theorem overtakenBy_setStage (t : Nat) (c : TimedCache ε α) (stage : FlightStage ε α)
    (s : Nat) : overtakenBy (c.setStage t stage).flights s = overtakenBy c.flights s := by
  unfold overtakenBy setStage
  rw [List.getElem?_modify]
  by_cases hs : t = s
  · simp [hs, Function.comp_def]
  · simp [hs]

theorem result?_eq_some_iff (c : TimedCache ε α) (t : Nat) (r : Except ε α) :
    c.result? t = some r ↔ stageOf c.flights t = some (.settled r) := by
  unfold result? stageOf
  cases hf : c.flights[t]? with
  | none => simp
  | some f =>
    obtain ⟨o, stage⟩ := f
    cases stage <;> simp

/-! ### Moves -/

/-- A move of a cache: the cache after it, and what is seen of it. -/
inductive Move (c : TimedCache ε α) : TimedCache ε α → List (Event ε α) → Prop
  | served (value : α) (hv : c.peek = some value) :
      Move c { c with callers := c.callers ++ [.returned (.ok value)] }
        [.began c.callers.length, .served c.callers.length value,
          .returned c.callers.length (.ok value)]
  | joined (ticket : Nat) (hv : c.peek = none)
      (hp : c.slot.inFlight = some { ticket, stale := false }) :
      Move c { c with callers := c.callers ++ [.waiting ticket] }
        [.began c.callers.length, .joined c.callers.length ticket]
  | opened (hv : c.peek = none) (hp : ∀ p, c.slot.inFlight = some p → p.stale = true) :
      Move c
        { c with
          slot := { c.slot with
            inFlight := some { ticket := c.slot.issued, stale := false }
            issued := c.slot.issued + 1 }
          callers := c.callers ++ [.waiting c.slot.issued]
          flights := c.flights ++
            [{ overtaken := c.slot.inFlight.map (·.ticket), stage := .held }] }
        [.began c.callers.length,
          .opened c.callers.length c.slot.issued (c.slot.inFlight.map (·.ticket))]
  | called (ticket : Nat) (hs : stageOf c.flights ticket = some .held) (hd : c.isDriven ticket) :
      Move c (c.setStage ticket .running) [.called ticket]
  | answered (ticket : Nat) (result : Except ε α) (hs : stageOf c.flights ticket = some .running)
      (hd : c.isDriven ticket) :
      Move c (c.setStage ticket (.settled result)) [.settled ticket result]
  | finished (caller ticket : Nat) (result : Except ε α)
      (hc : c.callers[caller]? = some (.waiting ticket))
      (hs : stageOf c.flights ticket = some (.settled result)) :
      Move c
        { c with
          slot := c.slot.conclude ticket result c.now
          callers := c.callers.set caller (.returned result) }
        [.returned caller result]
  | dropped (caller ticket : Nat) (hc : c.callers[caller]? = some (.waiting ticket)) :
      Move c { c with callers := c.callers.set caller .dropped } [.dropped caller]
  | invalidated : Move c c.invalidate [.invalidated]
  | passed (time : Duration) : Move c { c with now := c.now + time } []

/-- Moves that are made at one instant, one after the other. -/
inductive Moves (c : TimedCache ε α) : TimedCache ε α → List (Event ε α) → Prop
  | none : Moves c c []
  | more {mid c' : TimedCache ε α} {past events : List (Event ε α)} (first : Moves c mid past)
      (same : mid.now = c.now) (last : Move mid c' events) : Moves c c' (past ++ events)

theorem Moves.single {c c' : TimedCache ε α} {events : List (Event ε α)} (m : Move c c' events) :
    Moves c c' events := .more .none rfl m

theorem get_move (c : TimedCache ε α) : Move c c.get.1 c.get.2 := by
  unfold get Slot.serve
  cases hv : c.slot.peek c.ttl c.now with
  | some value => exact .served value hv
  | none =>
    cases hp : c.slot.inFlight with
    | none =>
      have hm := Move.opened hv (fun p h => by rw [hp] at h; cases h)
      rwa [hp] at hm
    | some p =>
      obtain ⟨ticket, stale⟩ := p
      cases stale with
      | false => exact .joined ticket hv hp
      | true =>
        have hm := Move.opened hv (fun p h => by rw [hp] at h; cases h; rfl)
        rwa [hp] at hm

theorem call_moves (t : Nat) (c : TimedCache ε α) : Moves c (c.call t).1 (c.call t).2 := by
  unfold call
  split
  · rename_i hf
    split
    · rename_i hd
      exact .single (.called t (stageOf_of_getElem? hf) hd)
    · exact .none
  · exact .none

theorem answer_moves (t : Nat) (r : Except ε α) (c : TimedCache ε α) :
    c.answer t r = (c, []) ∨
      c.answer t r = (c.setStage t (.settled r), [.settled t r]) ∧
        Move c (c.setStage t (.settled r)) [.settled t r] := by
  unfold answer
  split
  · rename_i hf
    split
    · rename_i hd
      exact Or.inr ⟨rfl, .answered t r (stageOf_of_getElem? hf) hd⟩
    · exact Or.inl rfl
  · exact Or.inl rfl

theorem finish_moves (k : Nat) (c : TimedCache ε α) :
    c.finish k = (c, []) ∨ Move c (c.finish k).1 (c.finish k).2 := by
  unfold finish
  split
  · rename_i t hc
    split
    · rename_i r hr
      exact Or.inr (.finished k t r hc ((result?_eq_some_iff c t r).mp hr))
    · exact Or.inl rfl
  · exact Or.inl rfl

theorem settle_moves (t : Nat) (r : Except ε α) (c : TimedCache ε α) :
    Moves c (c.settle t r).1 (c.settle t r).2 := by
  unfold settle
  rcases answer_moves t r c with ha | ⟨ha, hm⟩
  · rw [ha]
    exact .none
  · rw [ha]
    dsimp only
    split
    · rename_i k _
      rcases finish_moves k (c.setStage t (.settled r)) with hk | hk
      · rw [hk, List.append_nil]
        exact .single hm
      · exact .more (.single hm) rfl hk
    · exact .single hm

theorem drop_moves (k : Nat) (c : TimedCache ε α) : Moves c (c.drop k).1 (c.drop k).2 := by
  unfold drop
  split
  · rename_i t hc
    exact .single (.dropped k t hc)
  · exact .none

/-- **An act consists of moves.** -/
theorem step_moves (c : TimedCache ε α) (act : Act ε α) :
    Moves c (c.step act).1 (c.step act).2 := by
  cases act with
  | get => exact .single c.get_move
  | call t => exact c.call_moves t
  | answer t r =>
    rcases answer_moves t r c with ha | ⟨ha, hm⟩
    · rw [step, ha]
      exact .none
    · rw [step, ha]
      exact .single hm
  | settle t r => exact c.settle_moves t r
  | finish k =>
    rcases finish_moves k c with hk | hk
    · rw [step, hk]
      exact .none
    · exact .single hk
  | drop k => exact c.drop_moves k
  | invalidate => exact .single .invalidated
  | pass time => exact .single (.passed time)

/-! ### Runs -/

/-- What was seen, without the instants. -/
def seen (history : List (Duration × Event ε α)) : List (Event ε α) := history.map (·.2)

theorem seen_append (past later : List (Duration × Event ε α)) :
    seen (past ++ later) = seen past ++ seen later := List.map_append

theorem seen_stamped (time : Duration) (events : List (Event ε α)) :
    seen (events.map (time, ·)) = events := by
  simp [seen, Function.comp_def]

/-- An act, with the instant of all that is told of it. -/
def stamped (c : TimedCache ε α) (act : Act ε α) :
    TimedCache ε α × List (Duration × Event ε α) :=
  ((c.step act).1, (c.step act).2.map (c.now, ·))

theorem runFrom_append (c : TimedCache ε α) (acts more : List (Act ε α)) :
    c.runFrom (acts ++ more) =
      (((c.runFrom acts).1.runFrom more).1,
        (c.runFrom acts).2 ++ ((c.runFrom acts).1.runFrom more).2) :=
  History.after_append stamped c acts more

theorem runFrom_cons (c : TimedCache ε α) (act : Act ε α) (acts : List (Act ε α)) :
    c.runFrom (act :: acts) =
      (((c.step act).1.runFrom acts).1,
        (c.step act).2.map (c.now, ·) ++ ((c.step act).1.runFrom acts).2) :=
  History.after_cons stamped c act acts

/-- A run is what came before an act of it, the act, and what came after. -/
theorem run_split (ttl : Duration) (pre : List (Act ε α)) (act : Act ε α) (post : List (Act ε α)) :
    run ttl (pre ++ act :: post) =
      ((((run ttl pre).1.step act).1.runFrom post).1,
        (run ttl pre).2 ++ (((run ttl pre).1.step act).2.map ((run ttl pre).1.now, ·) ++
          (((run ttl pre).1.step act).1.runFrom post).2)) := by
  rw [run, runFrom_append, runFrom_cons]
  rfl

/-- **What holds at first and is kept by every move holds after every run.** -/
theorem runFrom_induct {P : TimedCache ε α → List (Duration × Event ε α) → Prop}
    {c : TimedCache ε α} (start : P c [])
    (move : ∀ {c past c' events}, P c past → Move c c' events →
      P c' (past ++ events.map (c.now, ·)))
    (acts : List (Act ε α)) : P (c.runFrom acts).1 (c.runFrom acts).2 := by
  -- the moves of one act all bear the instant at which the act began
  have moves : ∀ {c past c' events}, P c past → Moves c c' events →
      P c' (past ++ events.map (c.now, ·)) := by
    intro c past c' events hP hm
    induction hm with
    | none => rw [List.map_nil, List.append_nil]; exact hP
    | more _ same last ih =>
      rw [List.map_append, ← List.append_assoc, ← same]
      rw [← same] at ih
      exact move ih last
  exact History.after_induct stamped start
    fun act _ {c _} hP => moves hP (c.step_moves act)

theorem runFrom_induct_seen {P : TimedCache ε α → List (Event ε α) → Prop}
    {c : TimedCache ε α} (start : P c [])
    (move : ∀ {c past c' events}, P c past → Move c c' events → P c' (past ++ events))
    (acts : List (Act ε α)) : P (c.runFrom acts).1 (seen (c.runFrom acts).2) := by
  refine runFrom_induct (P := fun c history => P c (seen history)) start ?_ acts
  intro c past c' events hP hm
  rw [seen_append, seen_stamped]
  exact move hP hm

end TimedCache

end IntentLoop.Cache
