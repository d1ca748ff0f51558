import IntentLoop.Proofs.Auth.Moves
/-!
# The turn to fetch

The turn and the line are kept beside the stages of the callers, and they agree with them
(`Orderly`): the caller who has the turn is the one that was given it or that fetches, those in line
are those that wait for it, none of them twice, and nobody waits for a turn that nobody has. A caller
that gives up the turn hands it to the first in line in the same move (`PassedOn`), so that no move
loses it.
-/

namespace IntentLoop.Auth.Access

variable {ε φ α : Type} {F : Family ε φ} {a b : Access ε φ α} {caller : Nat}

@[simp] theorem stage?_store (epoch : Nat) (t : Token) (a : Access ε φ α) (k : Nat) :
    (a.store epoch t).stage? k = a.stage? k := by
  unfold store
  split <;> rfl

/-- The turn and the line agree with the stages of the callers. -/
structure Orderly (a : Access ε φ α) : Prop where
  holder : ∀ k, a.turn = some k ↔ ∃ stage, a.stage? k = some stage ∧ stage.holdsTurn
  line : ∀ k, k ∈ a.line ↔ a.stage? k = some .queued
  nodup : a.line.Nodup
  idle : a.turn = none → a.line = []

/-- The turn goes from a caller, which goes on to another stage, to the first in line. -/
structure PassedOn (a b : Access ε φ α) (caller : Nat) (stage : Stage ε φ α) : Prop where
  turn : b.turn = a.line.head?
  line : b.line = a.line.tail
  stages : ∀ k, b.stage? k =
    if k = caller then some stage
    else if a.line.head? = some k then some .granted else a.stage? k

theorem passTurn_turn (a : Access ε φ α) : a.passTurn.turn = a.line.head? := by
  unfold passTurn
  cases a.line <;> rfl

theorem passTurn_line (a : Access ε φ α) : a.passTurn.line = a.line.tail := by
  unfold passTurn
  cases a.line <;> rfl

theorem passTurn_length (a : Access ε φ α) : a.passTurn.callers.length = a.callers.length := by
  unfold passTurn
  cases a.line with
  | nil => rfl
  | cons next rest => exact List.length_modify _ _ _

namespace Orderly

theorem new (start : Timestamp) : Orderly (new start : Access ε φ α) where
  holder := by simp [Access.new, stage?]
  line := by simp [Access.new, stage?]
  nodup := List.nodup_nil
  idle _ := rfl

/-- At most one caller has the turn. -/
theorem holder_unique (h : Orderly a) {k l : Nat} {s t : Stage ε φ α} (hk : a.stage? k = some s)
    (hs : s.holdsTurn) (hl : a.stage? l = some t) (ht : t.holdsTurn) : k = l := by
  have hkt : a.turn = some k := (h.holder k).mpr ⟨s, hk, hs⟩
  have hlt : a.turn = some l := (h.holder l).mpr ⟨t, hl, ht⟩
  exact Option.some.inj (hkt.symm.trans hlt)

theorem line_lt (h : Orderly a) : ∀ k ∈ a.line, k < a.callers.length :=
  fun k hk => lt_length_of_stage? ((h.line k).mp hk)

theorem passedOn (h : Orderly a) {old : Stage ε φ α} (hs : a.stage? caller = some old)
    (stage : Stage ε φ α) : PassedOn a (a.passTurn.setStage caller stage) caller stage where
  turn := a.passTurn_turn
  line := a.passTurn_line
  stages k := by
    rw [stage?_setStage (a.passTurn_length ▸ lt_length_of_stage? hs), stage?_passTurn h.line_lt]

theorem passedOn_after (h : Orderly a) {old : Stage ε φ α} (hs : a.stage? caller = some old)
    (hold : old.holdsTurn) (stage : Stage ε φ α) :
    PassedOn a (a.setStage caller stage).passTurn caller stage where
  turn := passTurn_turn _
  line := passTurn_line _
  stages k := by
    have hlt : caller < a.callers.length := lt_length_of_stage? hs
    have hline : ∀ k ∈ (a.setStage caller stage).line, k < (a.setStage caller stage).callers.length :=
      fun k hk => (List.length_modify _ _ _).symm ▸ h.line_lt k hk
    rw [stage?_passTurn hline, stage?_setStage hlt]
    by_cases hk : k = caller
    · -- who has the turn is not in line
      have hhead : a.line.head? ≠ some k := by
        intro hhead
        have hq := (h.line k).mp (List.mem_of_head? hhead)
        rw [hk, hs] at hq
        cases hq
        cases hold
      simp only [hk] at hhead
      simp [hk, setStage, hhead]
    · simp [hk, setStage]

theorem of_passedOn (h : Orderly a) {old stage : Stage ε φ α} (hs : a.stage? caller = some old)
    (hold : old.holdsTurn) (hp : PassedOn a b caller stage) (hturn : stage.holdsTurn = false)
    (hqueued : stage ≠ .queued) : Orderly b := by
  have hcaller : caller ∉ a.line := by
    intro hmem
    rw [h.line caller, hs] at hmem
    cases hmem
    cases hold
  -- nobody else holds the turn
  have hother : ∀ k s, k ≠ caller → a.stage? k = some s → ¬s.holdsTurn = true :=
    fun k s hk hks hhold => hk (h.holder_unique hks hhold hs hold)
  have hnodup := h.nodup
  cases hl : a.line with
  | nil =>
    refine ⟨?_, ?_, ?_, ?_⟩
    · intro k
      rw [hp.turn, hl, hp.stages k]
      by_cases hk : k = caller
      · simp [hk, hturn]
      · simpa [hk, hl] using fun s => hother k s hk
    · intro k
      rw [hp.line, hl, hp.stages k]
      by_cases hk : k = caller
      · simp [hk, hqueued]
      · simp [hk, hl, ← h.line k]
    · rw [hp.line, hl]
      exact List.nodup_nil
    · rw [hp.line, hl]
      exact fun _ => rfl
  | cons next rest =>
    rw [hl, List.nodup_cons] at hnodup
    rw [hl, List.mem_cons, not_or] at hcaller
    refine ⟨?_, ?_, ?_, ?_⟩
    · intro k
      rw [hp.turn, hl, hp.stages k]
      by_cases hk : k = caller
      · simp [hk, hturn, Ne.symm hcaller.1]
      · by_cases hnext : next = k
        · simp [hnext, hk, hl, Stage.holdsTurn]
        · simpa [hk, hl, hnext] using fun s => hother k s hk
    · intro k
      rw [hp.line, hl, hp.stages k]
      by_cases hk : k = caller
      · simp [hk, hqueued, hcaller.2]
      · by_cases hnext : next = k
        · simp [← hnext, hnodup.1, hl, hnext ▸ hk]
        · simp [hk, hl, hnext, ← h.line k, Ne.symm hnext]
    · rw [hp.line, hl]
      exact hnodup.2
    · rw [hp.turn, hl]
      intro hnone
      cases hnone

theorem setStage (h : Orderly a) {old stage : Stage ε φ α} (hs : a.stage? caller = some old)
    (hold : stage.holdsTurn = old.holdsTurn) (hold' : old ≠ .queued) (hqueued : stage ≠ .queued) :
    Orderly (a.setStage caller stage) where
  holder k := by
    change a.turn = some k ↔ _
    rw [stage?_setStage (lt_length_of_stage? hs)]
    by_cases hk : k = caller
    · simpa [hk, hold, hs] using h.holder caller
    · simpa [hk] using h.holder k
  line k := by
    change k ∈ a.line ↔ _
    rw [stage?_setStage (lt_length_of_stage? hs)]
    by_cases hk : k = caller
    · simpa [hk, hqueued, hold', hs] using h.line caller
    · simpa [hk] using h.line k
  nodup := h.nodup
  idle := h.idle

theorem stage?_length (a : Access ε φ α) : a.stage? a.callers.length = none := by
  rw [stage?, List.getElem?_eq_none (Nat.le_refl _), Option.map_none]

theorem not_mem_line (h : Orderly a) : a.callers.length ∉ a.line := by
  intro hmem
  have hq := (h.line _).mp hmem
  rw [stage?_length] at hq
  cases hq

theorem join (h : Orderly a) (purpose : Purpose) {stage : Stage ε φ α}
    (hturn : stage.holdsTurn = false) (hqueued : stage ≠ .queued) :
    Orderly (a.join purpose stage) where
  holder k := by
    change a.turn = some k ↔ _
    rw [stage?_join]
    by_cases hk : k = a.callers.length
    · have hno := h.holder a.callers.length
      rw [stage?_length] at hno
      simpa [hk, hturn] using hno
    · simpa [hk] using h.holder k
  line k := by
    change k ∈ a.line ↔ _
    rw [stage?_join]
    by_cases hk : k = a.callers.length
    · simpa [hk, hqueued] using h.not_mem_line
    · simpa [hk] using h.line k
  nodup := h.nodup
  idle := h.idle

theorem admitted (h : Orderly a) (purpose : Purpose) (ht : a.turn = none) :
    Orderly { a.join purpose .granted with turn := some a.callers.length } where
  holder k := by
    change some a.callers.length = some k ↔
      ∃ stage, (a.join purpose .granted).stage? k = some stage ∧ stage.holdsTurn
    rw [stage?_join]
    by_cases hk : k = a.callers.length
    · simp [hk, Stage.holdsTurn]
    · simpa [hk, ht, Ne.symm hk] using h.holder k
  line k := by
    change k ∈ a.line ↔ (a.join purpose .granted).stage? k = some .queued
    rw [stage?_join]
    by_cases hk : k = a.callers.length
    · simpa [hk] using h.not_mem_line
    · simpa [hk] using h.line k
  nodup := h.nodup
  idle hnone := by cases hnone

theorem queued (h : Orderly a) (purpose : Purpose) {holder : Nat} (ht : a.turn = some holder) :
    Orderly { a.join purpose .queued with line := a.line ++ [a.callers.length] } where
  holder k := by
    change a.turn = some k ↔
      ∃ stage, (a.join purpose .queued).stage? k = some stage ∧ stage.holdsTurn
    rw [stage?_join]
    by_cases hk : k = a.callers.length
    · have hno := h.holder a.callers.length
      rw [stage?_length] at hno
      simpa [hk, Stage.holdsTurn] using hno
    · simpa [hk] using h.holder k
  line k := by
    change k ∈ a.line ++ [a.callers.length] ↔ (a.join purpose .queued).stage? k = some .queued
    rw [stage?_join]
    by_cases hk : k = a.callers.length
    · simp [hk]
    · simpa [hk] using h.line k
  nodup := by
    refine List.nodup_append.mpr ⟨h.nodup, by simp, ?_⟩
    intro k hk l hl heq
    rw [List.mem_singleton.mp hl] at heq
    exact h.not_mem_line (heq ▸ hk)
  idle hnone := by
    rw [show a.turn = none from hnone] at ht
    cases ht

theorem left (h : Orderly a) (hs : a.stage? caller = some .queued) :
    Orderly { a.setStage caller .dropped with line := a.line.filter (· ≠ caller) } where
  holder k := by
    change a.turn = some k ↔
      ∃ stage, (a.setStage caller .dropped).stage? k = some stage ∧ stage.holdsTurn
    rw [stage?_setStage (lt_length_of_stage? hs)]
    by_cases hk : k = caller
    · simpa [hk, hs, Stage.holdsTurn] using h.holder caller
    · simpa [hk] using h.holder k
  line k := by
    change k ∈ a.line.filter (· ≠ caller) ↔ (a.setStage caller .dropped).stage? k = some .queued
    rw [stage?_setStage (lt_length_of_stage? hs), List.mem_filter]
    by_cases hk : k = caller
    · simp [hk]
    · simpa [hk] using h.line k
  nodup := h.nodup.filter _
  idle hnone := by
    rw [h.idle hnone]
    rfl

theorem store (h : Orderly a) (epoch : Nat) (t : Token) : Orderly (a.store epoch t) := by
  unfold Access.store
  split
  · exact ⟨h.holder, h.line, h.nodup, h.idle⟩
  · exact h

/-- **No move loses the turn, or gives it to two callers.** -/
theorem move {events : List (Event ε φ α)} (h : Orderly a) (m : Move F a b events) : Orderly b := by
  have rest : ∀ (purpose : Purpose) (t : Token),
      (purpose.stageWith t : Stage ε φ α) ≠ .queued := by
    intro purpose t
    cases purpose <;> simp [Purpose.stageWith]
  cases m with
  | served purpose t _ => exact h.join purpose (purpose.stageWith_holdsTurn t) (rest purpose t)
  | admitted purpose _ ht => exact h.admitted purpose ht
  | queued purpose holder _ ht => exact h.queued purpose ht
  | found k purpose t hc _ =>
    have hs := stage?_of_getElem? hc
    exact h.of_passedOn hs rfl (h.passedOn hs _) (purpose.stageWith_holdsTurn t) (rest purpose t)
  | fetch k purpose hc _ =>
    exact h.setStage (stage?_of_getElem? hc) rfl (by simp) (by simp)
  | fetched k epoch purpose t hc =>
    have hs : (a.store epoch t).stage? k = some (.fetching epoch) := by
      rw [stage?_store]
      exact stage?_of_getElem? hc
    have h := h.store epoch t
    exact h.of_passedOn hs rfl (h.passedOn hs _) (purpose.stageWith_holdsTurn t) (rest purpose t)
  | failed k epoch purpose e hc =>
    have hs := stage?_of_getElem? hc
    exact h.of_passedOn hs rfl (h.passedOn hs _) rfl (by simp)
  | answered k executor t result hc =>
    exact h.setStage (stage?_of_getElem? hc) rfl (by simp) (by simp)
  | left k hs => exact h.left hs
  | yielded k stage hs hold => exact h.of_passedOn hs hold (h.passedOn_after hs hold _) rfl (by simp)
  | abandoned k t hs => exact h.setStage hs rfl (by simp) (by simp)
  | invalidated => exact ⟨h.holder, h.line, h.nodup, h.idle⟩
  | passed time => exact ⟨h.holder, h.line, h.nodup, h.idle⟩

end Orderly

end IntentLoop.Auth.Access
