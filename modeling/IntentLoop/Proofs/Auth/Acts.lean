import IntentLoop.Proofs.Auth.Moves
/-!
# What acts come to

Who comes finds a usable token or not, who has the turn finds one by now or fetches, and what a fetch or
a request gives goes to the caller that waits for it. For each of these there is one equation, and one
for the act that fits no caller and changes nothing. What is told of an error, whoever meets it, is that
it speaks of blocking, if it does, and nothing else (`forall_complaints`, `forall_verdictOn`).
-/

namespace IntentLoop.Auth.Access

variable {ε φ α : Type} {F : Family ε φ} {a : Access ε φ α} {k executor epoch : Nat} {purpose : Purpose}
  {t : Token}

theorem begin_of_usable (purpose : Purpose) (hu : a.usable = some t) :
    a.begin purpose = (a.join purpose (purpose.stageWith t),
      .began a.callers.length purpose :: .obtained a.callers.length t ::
        purpose.given a.callers.length t) := by
  have hjoined : ({ a with callers := a.callers ++ [{ purpose, stage := .queued }] } : Access ε φ α) =
      a.join purpose .queued := rfl
  unfold begin
  rw [hu, hjoined]
  dsimp only
  rw [obtain_eq, setStage_join]

theorem begin_of_unusable (purpose : Purpose) (hu : a.usable = none) :
    a.begin purpose = ((a.join purpose .queued).seekTurn a.callers.length,
      [.began a.callers.length purpose]) := by
  unfold begin
  rw [hu]
  rfl

theorem resume_of_usable (hc : a.callers[k]? = some { purpose, stage := .granted })
    (hu : a.usable = some t) :
    a.resume k = (a.passTurn.setStage k (purpose.stageWith t), .obtained k t :: purpose.given k t) := by
  unfold resume
  rw [hc, hu]
  exact obtain_eq k purpose t a.passTurn

theorem resume_of_unusable (hc : a.callers[k]? = some { purpose, stage := .granted })
    (hu : a.usable = none) : a.resume k = (a.setStage k (.fetching a.epoch), [.fetch k]) := by
  unfold resume
  rw [hc, hu]

theorem resume_of_not_granted
    (hno : ∀ purpose, a.callers[k]? ≠ some { purpose, stage := .granted }) : a.resume k = (a, []) := by
  unfold resume
  split
  · exact absurd ‹_› (hno _)
  · rfl

theorem fetched_ok (F : Family ε φ) (hc : a.callers[k]? = some { purpose, stage := .fetching epoch })
    (t : Token) :
    a.fetched F k (.ok t) = ((a.store epoch t).passTurn.setStage k (purpose.stageWith t),
      .fetched k (.ok t) :: .obtained k t :: purpose.given k t) := by
  unfold fetched
  rw [hc]
  dsimp only
  rw [obtain_eq]
  rfl

theorem fetched_error (F : Family ε φ) (hc : a.callers[k]? = some { purpose, stage := .fetching epoch })
    (e : ε) :
    a.fetched F k (.error e) = (a.passTurn.setStage k (.returned (purpose.failure F e)),
      .fetched k (.error e) :: (purpose.complaints F k e ++ [.returned k (purpose.failure F e)])) := by
  unfold fetched
  rw [hc]
  dsimp only
  rw [fail_eq]

theorem fetched_of_not_fetching (F : Family ε φ)
    (hno : ∀ purpose epoch, a.callers[k]? ≠ some { purpose, stage := .fetching epoch })
    (result : Except ε Token) : a.fetched F k result = (a, []) := by
  unfold fetched
  split
  · exact absurd ‹_› (hno _ _)
  · rfl

theorem answered_of_requesting (F : Family ε φ)
    (hc : a.callers[k]? = some { purpose := .request executor, stage := .requesting t })
    (answer : Except φ α) :
    a.answered F k answer = (a.setStage k (.returned (.request answer)),
      verdictOn F k executor answer ++ [.returned k (.request answer)]) := by
  unfold answered
  rw [hc]
  cases answer <;> rfl

theorem answered_of_not_requesting (F : Family ε φ)
    (hno : ∀ executor t,
      a.callers[k]? ≠ some { purpose := .request executor, stage := .requesting t })
    (answer : Except φ α) : a.answered F k answer = (a, []) := by
  unfold answered
  split
  · exact absurd ‹_› (hno _ _)
  · rfl

/-! ### What is told of an error -/

section Errors

variable {p : Event ε φ α → Prop} (hblocked : ∀ text, p (.blocked k text))
  (hreported : ∀ r component text, p (.reported k r component text))

include hblocked hreported

theorem forall_inspect (F : Family ε φ) (executor : Nat) (text : String) :
    ∀ event ∈ inspect F k executor text, p event := by
  unfold inspect
  split
  · split
    · exact List.forall_mem_cons.mpr ⟨hblocked _, List.forall_mem_singleton.mpr (hreported _ _ _)⟩
    · exact List.forall_mem_singleton.mpr (hblocked _)
  · exact List.forall_mem_nil p

theorem forall_complaints (F : Family ε φ) (purpose : Purpose) (e : ε) :
    ∀ event ∈ purpose.complaints F k e, p event := by
  cases purpose with
  | token => exact List.forall_mem_nil p
  | header executor => exact forall_inspect hblocked hreported F executor _
  | request executor => exact forall_inspect hblocked hreported F executor _

theorem forall_verdictOn (F : Family ε φ) (executor : Nat) (answer : Except φ α) :
    ∀ event ∈ verdictOn F k executor answer, p event := by
  cases answer with
  | ok value => exact List.forall_mem_nil p
  | error e => exact forall_inspect hblocked hreported F executor _

end Errors

end IntentLoop.Auth.Access
