import IntentLoop.Auth.Access
import IntentLoop.Proofs.History
/-!
# What callers of an access can do

An act on an access is one of the moves listed here, or it does not fit the stage of its caller and
changes nothing. `Move` says of each move when it can be made, what it changes and what is seen of
it, so that whatever is to hold of a run is proved move by move:

* `step_move`: an act is a move, or nothing.
* `runFrom_induct_seen`: what holds at first and is kept by every move holds after every run.
* `run_split`: a run is what came before an act of it, the act, and what came after.

Callers are looked at through their stages (`stage?`). A caller that has got a token goes on as its
purpose says (`Purpose.stageWith`), and so does one that could not get any (`Purpose.failure`).
-/

namespace IntentLoop.Auth

variable {ε φ α : Type}

/-! ### What becomes of a caller -/

namespace Purpose

/-- The stage of a caller that has got a token. -/
def stageWith (purpose : Purpose) (t : Token) : Stage ε φ α :=
  match purpose with
  | token => .returned (.token (.ok t))
  | header _ => .returned (.header (.ok t.header))
  | request _ => .requesting t

/-- What a caller does with the token that it has got. -/
def given (purpose : Purpose) (caller : Nat) (t : Token) : List (Access.Event ε φ α) :=
  match purpose with
  | token => [.returned caller (.token (.ok t))]
  | header _ => [.returned caller (.header (.ok t.header))]
  | request _ => [.requested caller t]

/-- The result of a caller that could not get a token. -/
def failure (F : Family ε φ) (purpose : Purpose) (e : ε) : Result ε φ α :=
  match purpose with
  | token => .token (.error e)
  | header _ => .header (.error e)
  | request _ => .request (.error (F.lift e))

/-- What its executor makes of that. -/
def complaints (F : Family ε φ) (purpose : Purpose) (caller : Nat) (e : ε) :
    List (Access.Event ε φ α) :=
  match purpose with
  | token => []
  | header executor => Access.inspect F caller executor (F.fetchText e)
  | request executor => Access.inspect F caller executor (F.requestText (F.lift e))

end Purpose

/-- What an executor makes of the end of a request. -/
def verdictOn (F : Family ε φ) (caller executor : Nat) (result : Except φ α) :
    List (Access.Event ε φ α) :=
  match result with
  | .ok _ => []
  | .error e => Access.inspect F caller executor (F.requestText e)

namespace Stage

/-- Has the caller been given the turn, and not passed it on? -/
def holdsTurn : Stage ε φ α → Bool
  | granted | fetching _ => true
  | _ => false

/-- Has the caller neither begun a fetch nor got around it? -/
def isWaiting : Stage ε φ α → Bool
  | queued | granted => true
  | _ => false

end Stage

theorem Purpose.stageWith_holdsTurn (purpose : Purpose) (t : Token) :
    (purpose.stageWith t : Stage ε φ α).holdsTurn = false := by
  cases purpose <;> rfl

theorem Purpose.stageWith_isWaiting (purpose : Purpose) (t : Token) :
    (purpose.stageWith t : Stage ε φ α).isWaiting = false := by
  cases purpose <;> rfl

namespace Access

theorem obtain_eq (caller : Nat) (purpose : Purpose) (t : Token) (a : Access ε φ α) :
    a.obtain caller purpose t =
      (a.setStage caller (purpose.stageWith t), .obtained caller t :: purpose.given caller t) := by
  cases purpose <;> rfl

theorem fail_eq (F : Family ε φ) (caller : Nat) (purpose : Purpose) (e : ε) (a : Access ε φ α) :
    a.fail F caller purpose e =
      (a.setStage caller (.returned (purpose.failure F e)),
        purpose.complaints F caller e ++ [.returned caller (purpose.failure F e)]) := by
  cases purpose <;> rfl

/-! ### Stages by caller -/

theorem stage?_of_getElem? {a : Access ε φ α} {k : Nat} {c : Caller ε φ α}
    (h : a.callers[k]? = some c) : a.stage? k = some c.stage := by
  rw [stage?, h, Option.map_some]

theorem lt_length_of_stage? {a : Access ε φ α} {k : Nat} {stage : Stage ε φ α}
    (h : a.stage? k = some stage) : k < a.callers.length := by
  obtain ⟨c, hc, -⟩ := Option.map_eq_some_iff.mp h
  exact (List.getElem?_eq_some_iff.mp hc).1

theorem stage?_setStage {a : Access ε φ α} {k : Nat} (hk : k < a.callers.length)
    (stage : Stage ε φ α) (j : Nat) :
    (a.setStage k stage).stage? j = if j = k then some stage else a.stage? j := by
  unfold stage? setStage
  rw [List.getElem?_modify]
  by_cases hj : j = k
  · rw [if_pos hj, hj, List.getElem?_eq_getElem hk]
    simp
  · rw [if_neg hj]
    simp [Ne.symm hj]

/-- One more caller. -/
def join (purpose : Purpose) (stage : Stage ε φ α) (a : Access ε φ α) : Access ε φ α :=
  { a with callers := a.callers ++ [{ purpose, stage }] }

theorem stage?_join (purpose : Purpose) (stage : Stage ε φ α) (a : Access ε φ α) (j : Nat) :
    (a.join purpose stage).stage? j = if j = a.callers.length then some stage else a.stage? j := by
  rw [stage?, join, getElem?_append_singleton]
  split <;> rfl

theorem setStage_join (purpose : Purpose) (old stage : Stage ε φ α) (a : Access ε φ α) :
    (a.join purpose old).setStage a.callers.length stage = a.join purpose stage := by
  simp [setStage, join, List.modify_eq_take_drop]

theorem stage?_passTurn {a : Access ε φ α} (h : ∀ k ∈ a.line, k < a.callers.length) (j : Nat) :
    a.passTurn.stage? j = if a.line.head? = some j then some .granted else a.stage? j := by
  unfold passTurn
  cases hl : a.line with
  | nil => rfl
  | cons next rest =>
    have hlt : next < a.callers.length := h next (hl ▸ List.mem_cons_self)
    dsimp only
    rw [stage?_setStage (by exact hlt)]
    by_cases hj : j = next
    · simp [hj]
    · simp [hj, Ne.symm hj, stage?]

theorem seekTurn_join_of_none (purpose : Purpose) {a : Access ε φ α} (h : a.turn = none) :
    (a.join purpose .queued).seekTurn a.callers.length =
      { a.join purpose .granted with turn := some a.callers.length } := by
  simp [seekTurn, join, setStage, h, List.modify_eq_take_drop]

theorem seekTurn_join_of_some (purpose : Purpose) {holder : Nat} {a : Access ε φ α}
    (h : a.turn = some holder) :
    (a.join purpose .queued).seekTurn a.callers.length =
      { a.join purpose .queued with line := a.line ++ [a.callers.length] } := by
  simp [seekTurn, join, setStage, h, List.modify_eq_take_drop]

/-- The token of a fetch is stored in the epoch in which the fetch was made. -/
def store (epoch : Nat) (t : Token) (a : Access ε φ α) : Access ε φ α :=
  if a.epoch = epoch then { a with token := some t } else a

/-! ### Moves -/

/-- A move of an access: the state after it, and what is seen of it. -/
inductive Move (F : Family ε φ) (a : Access ε φ α) : Access ε φ α → List (Event ε φ α) → Prop
  /-- A caller comes and finds a usable token. -/
  | served (purpose : Purpose) (t : Token) (hu : a.usable = some t) :
      Move F a (a.join purpose (purpose.stageWith t))
        (.began a.callers.length purpose :: .obtained a.callers.length t ::
          purpose.given a.callers.length t)
  /-- A caller comes and is given the turn. -/
  | admitted (purpose : Purpose) (hu : a.usable = none) (ht : a.turn = none) :
      Move F a { a.join purpose .granted with turn := some a.callers.length }
        [.began a.callers.length purpose]
  /-- A caller comes and goes to the end of the line. -/
  | queued (purpose : Purpose) (holder : Nat) (hu : a.usable = none) (ht : a.turn = some holder) :
      Move F a { a.join purpose .queued with line := a.line ++ [a.callers.length] }
        [.began a.callers.length purpose]
  /-- A caller that was given the turn finds a usable token by now. -/
  | found (caller : Nat) (purpose : Purpose) (t : Token)
      (hc : a.callers[caller]? = some { purpose, stage := .granted }) (hu : a.usable = some t) :
      Move F a (a.passTurn.setStage caller (purpose.stageWith t))
        (.obtained caller t :: purpose.given caller t)
  /-- A caller that was given the turn begins a fetch. -/
  | fetch (caller : Nat) (purpose : Purpose)
      (hc : a.callers[caller]? = some { purpose, stage := .granted }) (hu : a.usable = none) :
      Move F a (a.setStage caller (.fetching a.epoch)) [.fetch caller]
  | fetched (caller epoch : Nat) (purpose : Purpose) (t : Token)
      (hc : a.callers[caller]? = some { purpose, stage := .fetching epoch }) :
      Move F a ((a.store epoch t).passTurn.setStage caller (purpose.stageWith t))
        (.fetched caller (.ok t) :: .obtained caller t :: purpose.given caller t)
  | failed (caller epoch : Nat) (purpose : Purpose) (e : ε)
      (hc : a.callers[caller]? = some { purpose, stage := .fetching epoch }) :
      Move F a (a.passTurn.setStage caller (.returned (purpose.failure F e)))
        (.fetched caller (.error e) ::
          (purpose.complaints F caller e ++ [.returned caller (purpose.failure F e)]))
  | answered (caller executor : Nat) (t : Token) (result : Except φ α)
      (hc : a.callers[caller]? = some { purpose := .request executor, stage := .requesting t }) :
      Move F a (a.setStage caller (.returned (.request result)))
        (verdictOn F caller executor result ++ [.returned caller (.request result)])
  /-- A caller leaves the line. -/
  | left (caller : Nat) (hs : a.stage? caller = some .queued) :
      Move F a { a.setStage caller .dropped with line := a.line.filter (· ≠ caller) }
        [.dropped caller]
  /-- A caller goes away and passes the turn on. -/
  | yielded (caller : Nat) (stage : Stage ε φ α) (hs : a.stage? caller = some stage)
      (hold : stage.holdsTurn) : Move F a (a.setStage caller .dropped).passTurn [.dropped caller]
  | abandoned (caller : Nat) (t : Token) (hs : a.stage? caller = some (.requesting t)) :
      Move F a (a.setStage caller .dropped) [.dropped caller]
  | invalidated : Move F a a.invalidate [.invalidated]
  | passed (time : Duration) : Move F a { a with wallClock := a.wallClock.add time } []

theorem begin_move (F : Family ε φ) (purpose : Purpose) (a : Access ε φ α) :
    Move F a (a.begin purpose).1 (a.begin purpose).2 := by
  have hjoin : ({ a with callers := a.callers ++ [{ purpose, stage := .queued }] } : Access ε φ α) =
      a.join purpose .queued := rfl
  unfold begin
  rw [hjoin]
  dsimp only
  cases hu : a.usable with
  | some t =>
    dsimp only
    rw [obtain_eq, setStage_join]
    exact .served purpose t hu
  | none =>
    dsimp only
    cases ht : a.turn with
    | none =>
      rw [seekTurn_join_of_none purpose ht]
      exact .admitted purpose hu ht
    | some holder =>
      rw [seekTurn_join_of_some purpose ht]
      exact .queued purpose holder hu ht

theorem resume_move (F : Family ε φ) (caller : Nat) (a : Access ε φ α) :
    a.resume caller = (a, []) ∨ Move F a (a.resume caller).1 (a.resume caller).2 := by
  unfold resume
  split
  · rename_i purpose hc
    cases hu : a.usable with
    | some t =>
      dsimp only
      rw [obtain_eq]
      exact Or.inr (.found caller purpose t hc hu)
    | none => exact Or.inr (.fetch caller purpose hc hu)
  · exact Or.inl rfl

theorem fetched_move (F : Family ε φ) (caller : Nat) (result : Except ε Token)
    (a : Access ε φ α) :
    a.fetched F caller result = (a, []) ∨
      Move F a (a.fetched F caller result).1 (a.fetched F caller result).2 := by
  unfold fetched
  split
  · rename_i purpose epoch hc
    cases result with
    | ok t =>
      dsimp only
      rw [obtain_eq]
      exact Or.inr (.fetched caller epoch purpose t hc)
    | error e =>
      dsimp only
      rw [fail_eq]
      exact Or.inr (.failed caller epoch purpose e hc)
  · exact Or.inl rfl

theorem answered_move (F : Family ε φ) (caller : Nat) (result : Except φ α) (a : Access ε φ α) :
    a.answered F caller result = (a, []) ∨
      Move F a (a.answered F caller result).1 (a.answered F caller result).2 := by
  unfold answered
  split
  · rename_i executor t hc
    have hm := Move.answered (F := F) caller executor t result hc
    cases result with
    | ok value => exact Or.inr hm
    | error e => exact Or.inr hm
  · exact Or.inl rfl

theorem drop_move (F : Family ε φ) (caller : Nat) (a : Access ε φ α) :
    a.drop caller = (a, []) ∨ Move F a (a.drop caller).1 (a.drop caller).2 := by
  unfold drop
  dsimp only
  split
  · rename_i hs
    exact Or.inr (.left caller hs)
  · rename_i hs
    exact Or.inr (.yielded caller _ hs rfl)
  · rename_i epoch hs
    exact Or.inr (.yielded caller _ hs rfl)
  · rename_i t hs
    exact Or.inr (.abandoned caller t hs)
  · exact Or.inl rfl

/-- **An act is a move, or nothing.** -/
theorem step_move (F : Family ε φ) (a : Access ε φ α) (act : Act ε φ α) :
    a.step F act = (a, []) ∨ Move F a (a.step F act).1 (a.step F act).2 := by
  cases act with
  | begin purpose => exact Or.inr (a.begin_move F purpose)
  | resume caller => exact a.resume_move F caller
  | fetched caller result => exact a.fetched_move F caller result
  | answered caller result => exact a.answered_move F caller result
  | drop caller => exact a.drop_move F caller
  | invalidate => exact Or.inr .invalidated
  | pass time => exact Or.inr (.passed time)

/-! ### Runs -/

open History (seen)

theorem runFrom_fst (F : Family ε φ) (a : Access ε φ α) (acts : List (Act ε φ α)) :
    (a.runFrom F acts).1 = (History.after (step F) a acts).1 :=
  History.after_stamped (step F) Access.wallClock a acts

theorem seen_runFrom (F : Family ε φ) (a : Access ε φ α) (acts : List (Act ε φ α)) :
    seen (a.runFrom F acts).2 = (History.after (step F) a acts).2 :=
  History.seen_after (step F) Access.wallClock a acts

/-- A run is what came before an act of it, the act, and what came after. -/
theorem seen_run_split (F : Family ε φ) (start : Timestamp) (pre : List (Act ε φ α))
    (act : Act ε φ α) (post : List (Act ε φ α)) :
    (run F start (pre ++ act :: post)).1 =
        (((run F start pre).1.step F act).1.runFrom F post).1 ∧
      seen (run F start (pre ++ act :: post)).2 =
        seen (run F start pre).2 ++ (((run F start pre).1.step F act).2 ++
          seen (((run F start pre).1.step F act).1.runFrom F post).2) := by
  simp only [run, runFrom_fst, seen_runFrom, History.after_append, History.after_cons, and_self]

/-- **What holds at first and is kept by every move holds after every run.** -/
theorem runFrom_induct_seen {F : Family ε φ} {P : Access ε φ α → List (Event ε φ α) → Prop}
    {a : Access ε φ α} (start : P a [])
    (move : ∀ {a past a' events}, P a past → Move F a a' events → P a' (past ++ events))
    (acts : List (Act ε φ α)) : P (a.runFrom F acts).1 (seen (a.runFrom F acts).2) := by
  rw [runFrom_fst, seen_runFrom]
  refine History.after_induct (step F) start ?_
  intro act _ a past hP
  rcases a.step_move F act with hnone | hmove
  · rw [hnone, List.append_nil]
    exact hP
  · exact move hP hmove

/-- The same, with the instants of what is seen. -/
theorem runFrom_induct {F : Family ε φ} {P : Access ε φ α → List (Timestamp × Event ε φ α) → Prop}
    {a : Access ε φ α} (start : P a [])
    (move : ∀ {a past a' events}, P a past → Move F a a' events →
      P a' (past ++ events.map (a.wallClock, ·)))
    (acts : List (Act ε φ α)) : P (a.runFrom F acts).1 (a.runFrom F acts).2 := by
  refine History.after_induct (History.stamped (step F) Access.wallClock) start ?_
  intro act _ a past hP
  simp only [History.stamped]
  rcases a.step_move F act with hnone | hmove
  · rw [hnone, List.map_nil, List.append_nil]
    exact hP
  · exact move hP hmove

theorem run_append (F : Family ε φ) (start : Timestamp) (pre post : List (Act ε φ α)) :
    run F start (pre ++ post) =
      (((run F start pre).1.runFrom F post).1,
        (run F start pre).2 ++ ((run F start pre).1.runFrom F post).2) :=
  History.after_append (History.stamped (step F) Access.wallClock) (new start) pre post

end Access

end IntentLoop.Auth
