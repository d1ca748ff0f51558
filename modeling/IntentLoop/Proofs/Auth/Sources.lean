import IntentLoop.Proofs.Auth.Supply
/-!
# The sources of tokens

Nobody makes tokens up: the stored token came out of a fetch, and so did the token of every request
that is under way, whoever made the fetch (`Sourced`). Every move keeps that (`Sourced.move`), and so
does every act (`Sourced.step`).

The other half of the module is about one caller that goes through an executor to a request. As long as
it is under way (`Stage.isUnderWay`), an act of it leaves it under way, or ends it with the answer to
its request, or with an error (`Advance`).
-/

namespace IntentLoop.Auth

variable {ε φ α : Type}

/-- Has the caller not got its result yet, and not gone away? -/
def Stage.isUnderWay : Stage ε φ α → Bool
  | queued | granted | fetching _ | requesting _ => true
  | returned _ | dropped => false

namespace Access

variable {F : Family ε φ} {a b : Access ε φ α} {past events : List (Event ε φ α)}

/-! ### Callers and their stages -/

theorem getElem?_setStage (k : Nat) (stage : Stage ε φ α) (a : Access ε φ α) (j : Nat) :
    (a.setStage k stage).callers[j]? =
      (a.callers[j]?).map fun c => if j = k then { c with stage } else c := by
  unfold setStage
  rw [List.getElem?_modify]
  by_cases hj : j = k
  · simp [hj]
  · simp [hj, Ne.symm hj]

theorem of_stage?_setStage {k j : Nat} {new stage : Stage ε φ α}
    (h : (a.setStage k new).stage? j = some stage) :
    (j = k ∧ stage = new) ∨ a.stage? j = some stage := by
  obtain ⟨c', hc', rfl⟩ := Option.map_eq_some_iff.mp h
  rw [getElem?_setStage] at hc'
  obtain ⟨c, hc, rfl⟩ := Option.map_eq_some_iff.mp hc'
  split
  · exact Or.inl ⟨‹j = k›, rfl⟩
  · exact Or.inr (stage?_of_getElem? hc)

theorem of_stage?_passTurn {j : Nat} {stage : Stage ε φ α} (h : a.passTurn.stage? j = some stage) :
    stage = .granted ∨ a.stage? j = some stage := by
  unfold passTurn at h
  cases hl : a.line with
  | nil =>
    rw [hl] at h
    exact Or.inr h
  | cons next rest =>
    rw [hl] at h
    exact (of_stage?_setStage h).imp_left And.right

theorem of_stage?_join {purpose : Purpose} {new stage : Stage ε φ α} {j : Nat}
    (h : (a.join purpose new).stage? j = some stage) :
    (j = a.callers.length ∧ stage = new) ∨ a.stage? j = some stage := by
  rw [stage?_join] at h
  split at h
  · exact Or.inl ⟨‹_›, (Option.some.inj h).symm⟩
  · exact Or.inr h

/-! ### Where tokens come from -/

/-- Stored tokens and those of requests came out of fetches. -/
structure Sourced (a : Access ε φ α) (past : List (Event ε φ α)) : Prop where
  stored : ∀ t, a.token = some t → ∃ j, .fetched j (.ok t) ∈ past
  used : ∀ k t, a.stage? k = some (.requesting t) →
    ∃ j, [.fetched j (.ok t), .requested k t].Sublist past

namespace Sourced

theorem new (start : Timestamp) : Sourced (new start : Access ε φ α) [] where
  stored := nofun
  used := nofun

theorem aside (h : Sourced a past)
    (ht : ∀ t, b.token = some t → a.token = some t ∨ ∃ j, .fetched j (.ok t) ∈ events)
    (hs : ∀ k t, b.stage? k = some (.requesting t) → a.stage? k = some (.requesting t)) :
    Sourced b (past ++ events) where
  stored t hstored := by
    rcases ht t hstored with hbefore | ⟨j, hmem⟩
    · obtain ⟨j, hmem⟩ := h.stored t hbefore
      exact ⟨j, List.mem_append_left events hmem⟩
    · exact ⟨j, List.mem_append_right past hmem⟩
  used k t hused := by
    obtain ⟨j, hsub⟩ := h.used k t (hs k t hused)
    exact ⟨j, hsub.trans (List.sublist_append_left past events)⟩

/-- Somebody gets a token that came out of a fetch. -/
theorem given (h : Sourced a past) {k : Nat} {purpose : Purpose} {t : Token} (told : List (Event ε φ α))
    (hfetched : ∃ j, .fetched j (.ok t) ∈ past ++ told)
    (ht : ∀ t', b.token = some t' → a.token = some t' ∨ ∃ j, .fetched j (.ok t') ∈ told)
    (hs : ∀ i stage, b.stage? i = some stage →
      (i = k ∧ stage = purpose.stageWith t) ∨ stage = .granted ∨ a.stage? i = some stage) :
    Sourced b (past ++ (told ++ .obtained k t :: purpose.given k t)) where
  stored t' hstored := by
    rcases ht t' hstored with hbefore | ⟨j, hmem⟩
    · obtain ⟨j, hmem⟩ := h.stored t' hbefore
      exact ⟨j, List.mem_append_left _ hmem⟩
    · exact ⟨j, List.mem_append_right past (List.mem_append_left _ hmem)⟩
  used i t' hused := by
    rcases hs i _ hused with ⟨rfl, hstage⟩ | hstage | hbefore
    · -- the request that begins now
      obtain ⟨j, hmem⟩ := hfetched
      cases purpose <;> cases hstage
      refine ⟨j, ?_⟩
      rw [← List.append_assoc]
      exact (List.singleton_sublist.mpr hmem).append
        (List.Sublist.cons _ (List.Sublist.refl _))
    · cases hstage
    · obtain ⟨j, hsub⟩ := h.used i t' hbefore
      exact ⟨j, hsub.trans (List.sublist_append_left _ _)⟩

/-- **Every move keeps it.** -/
theorem move (h : Sourced a past) (m : Move F a b events) : Sourced b (past ++ events) := by
  cases m with
  | served purpose t hu =>
    refine h.given [.began _ purpose] ?_ (fun _ => Or.inl) fun i stage hi => ?_
    · obtain ⟨j, hmem⟩ := h.stored t (token_of_usable hu)
      exact ⟨j, List.mem_append_left _ hmem⟩
    · exact (of_stage?_join hi).imp_right Or.inr
  | admitted purpose hu ht =>
    exact h.aside (fun _ => Or.inl) fun k t hk => (of_stage?_join (a := a) hk).resolve_left (by simp)
  | queued purpose holder hu ht =>
    exact h.aside (fun _ => Or.inl) fun k t hk => (of_stage?_join (a := a) hk).resolve_left (by simp)
  | found caller purpose t hc hu =>
    refine h.given [] ?_ (fun t' ht' => Or.inl (passTurn_token a ▸ ht')) fun i stage hi => ?_
    · obtain ⟨j, hmem⟩ := h.stored t (token_of_usable hu)
      exact ⟨j, List.mem_append_left _ hmem⟩
    · exact (of_stage?_setStage hi).imp_right of_stage?_passTurn
  | fetch caller purpose hc hu =>
    exact h.aside (fun _ => Or.inl) fun k t hk => (of_stage?_setStage hk).resolve_left (by simp)
  | fetched caller epoch purpose t hc =>
    have hmem : .fetched caller (.ok t) ∈ past ++ [(.fetched caller (.ok t) : Event ε φ α)] :=
      List.mem_append_right past List.mem_cons_self
    refine h.given [.fetched caller (.ok t)] ⟨caller, hmem⟩ (fun t' ht' => ?_) fun i stage hi => ?_
    · have hstored := (passTurn_token (a.store epoch t)).symm.trans ht'
      rw [store_token] at hstored
      split at hstored
      · cases hstored
        exact Or.inr ⟨caller, List.mem_cons_self⟩
      · exact Or.inl hstored
    · refine (of_stage?_setStage hi).imp_right fun hi => (of_stage?_passTurn hi).imp_right ?_
      exact (stage?_store epoch t a i).symm.trans
  | failed caller epoch purpose e hc =>
    refine h.aside (fun t' ht' => Or.inl (passTurn_token a ▸ ht')) fun k t hk => ?_
    have hpassed := (of_stage?_setStage hk).resolve_left (by simp)
    exact (of_stage?_passTurn hpassed).resolve_left (by simp)
  | answered caller executor t result hc =>
    exact h.aside (fun _ => Or.inl) fun k t hk => (of_stage?_setStage hk).resolve_left (by simp)
  | left caller hs =>
    exact h.aside (fun _ => Or.inl) fun k t hk =>
      (of_stage?_setStage (a := a) hk).resolve_left (by simp)
  | yielded caller stage hs hold =>
    refine h.aside (fun t' ht' => Or.inl ?_) fun k t hk => ?_
    · exact (passTurn_token (a.setStage caller .dropped)).symm.trans ht'
    · have hset := (of_stage?_passTurn hk).resolve_left (by simp)
      exact (of_stage?_setStage hset).resolve_left (by simp)
  | abandoned caller t hs =>
    exact h.aside (fun _ => Or.inl) fun k t hk => (of_stage?_setStage hk).resolve_left (by simp)
  | invalidated => exact h.aside nofun fun _ _ => id
  | passed time => exact h.aside (fun _ => Or.inl) fun _ _ => id

theorem step (F : Family ε φ) (h : Sourced a past) (act : Act ε φ α) :
    Sourced (a.step F act).1 (past ++ (a.step F act).2) := by
  rcases a.step_move F act with hnone | hmove
  · rw [hnone, List.append_nil]
    exact h
  · exact h.move hmove

end Sourced

/-! ### One caller of a request -/

/-- What an act of a caller that goes through an executor to a request makes of it. -/
inductive Advance (executor k : Nat) (a : Access ε φ α) (after : Access ε φ α × List (Event ε φ α)) :
    Prop
  /-- It is still under way, and nothing failed. -/
  | waits (stage : Stage ε φ α)
      (hcaller : after.1.callers[k]? = some { purpose := .request executor, stage })
      (hstage : stage.isUnderWay = true)
      (hfetched : ∀ j e, .fetched j (.error e) ∉ after.2)
      (hreturned : ∀ j result, .returned j result ∉ after.2)
  /-- Its request is answered. -/
  | answered (t : Token) (value : α) (hbefore : a.stage? k = some (.requesting t))
      (hstage : after.1.stage? k = some (.returned (.request (.ok value))))
      (hevents : after.2 = [.returned k (.request (.ok value))])
  | failed (error : φ) (hstage : after.1.stage? k = some (.returned (.request (.error error))))

section Advance

variable {executor k : Nat}

theorem purpose_passTurn (k : Nat) (a : Access ε φ α) :
    (a.passTurn.callers[k]?).map (·.purpose) = (a.callers[k]?).map (·.purpose) := by
  unfold passTurn
  cases a.line with
  | nil => rfl
  | cons next rest =>
    dsimp only
    rw [getElem?_setStage, Option.map_map]
    refine congrArg (Option.map · _) (funext fun c => ?_)
    dsimp only [Function.comp_apply]
    split <;> rfl

theorem store_callers (epoch : Nat) (t : Token) (a : Access ε φ α) :
    (a.store epoch t).callers = a.callers := by
  unfold store
  split <;> rfl

theorem getElem?_passTurn_setStage {old new : Stage ε φ α} {purpose : Purpose}
    (hc : a.callers[k]? = some { purpose, stage := old }) :
    (a.passTurn.setStage k new).callers[k]? = some { purpose, stage := new } := by
  have hp := a.purpose_passTurn k
  rw [hc] at hp
  obtain ⟨c, hpassed, hpurpose⟩ := Option.map_eq_some_iff.mp hp
  rw [getElem?_setStage, hpassed, Option.map_some, if_pos rfl]
  exact congrArg (fun p => some ({ purpose := p, stage := new } : Caller ε φ α)) hpurpose

theorem getElem?_setStage_self {old new : Stage ε φ α} {purpose : Purpose}
    (hc : a.callers[k]? = some { purpose, stage := old }) :
    (a.setStage k new).callers[k]? = some { purpose, stage := new } := by
  rw [getElem?_setStage, hc, Option.map_some, if_pos rfl]

theorem Advance.nothing {stage : Stage ε φ α}
    (hc : a.callers[k]? = some { purpose := .request executor, stage }) (hs : stage.isUnderWay = true) :
    Advance executor k a (a, []) :=
  .waits stage hc hs (by simp) (by simp)

theorem resume_advance {stage : Stage ε φ α}
    (hc : a.callers[k]? = some { purpose := .request executor, stage }) (hs : stage.isUnderWay = true) :
    Advance executor k a (a.resume k) := by
  unfold resume
  rw [hc]
  cases stage with
  | granted =>
    dsimp only
    cases hu : a.usable with
    | some t =>
      dsimp only
      rw [obtain_eq]
      exact .waits (.requesting t) (getElem?_passTurn_setStage hc) rfl (by simp [Purpose.given])
        (by simp [Purpose.given])
    | none => exact .waits (.fetching a.epoch) (getElem?_setStage_self hc) rfl (by simp) (by simp)
  | queued | fetching | requesting | returned | dropped => exact .nothing hc hs

theorem fetched_advance (F : Family ε φ) {stage : Stage ε φ α}
    (hc : a.callers[k]? = some { purpose := .request executor, stage }) (hs : stage.isUnderWay = true)
    (result : Except ε Token) : Advance executor k a (a.fetched F k result) := by
  unfold fetched
  rw [hc]
  cases stage with
  | fetching epoch =>
    cases result with
    | ok t =>
      dsimp only
      rw [obtain_eq]
      have hstored := (congrArg (·[k]?) (store_callers epoch t a)).trans hc
      exact .waits (.requesting t) (getElem?_passTurn_setStage hstored) rfl (by simp [Purpose.given])
        (by simp [Purpose.given])
    | error e =>
      dsimp only
      rw [fail_eq]
      exact .failed (F.lift e) (stage?_of_getElem? (getElem?_passTurn_setStage hc))
  | queued | granted | requesting | returned | dropped => exact .nothing hc hs

theorem answered_advance (F : Family ε φ) {stage : Stage ε φ α}
    (hc : a.callers[k]? = some { purpose := .request executor, stage }) (hs : stage.isUnderWay = true)
    (result : Except φ α) : Advance executor k a (a.answered F k result) := by
  unfold answered
  rw [hc]
  cases stage with
  | requesting t =>
    have hstage : (a.setStage k (.returned (.request result))).stage? k =
        some (.returned (.request result)) := stage?_of_getElem? (getElem?_setStage_self hc)
    cases result with
    | ok value => exact .answered t value (stage?_of_getElem? hc) hstage rfl
    | error e => exact .failed e hstage
  | queued | granted | fetching | returned | dropped => exact .nothing hc hs

theorem eq_dropped {event : Event ε φ α} (h : event ∈ (a.drop k).2) : event = .dropped k := by
  simp only [drop] at h
  split at h
  · exact List.mem_singleton.mp h
  · exact List.mem_singleton.mp h
  · exact List.mem_singleton.mp h
  · exact List.mem_singleton.mp h
  · cases h

theorem begin_advance (executor : Nat) (a : Access ε φ α) :
    Advance executor a.callers.length a (a.begin (.request executor)) := by
  unfold begin
  dsimp only
  have hlast : ∀ stage : Stage ε φ α, (a.join (.request executor) stage).callers[a.callers.length]? =
      some { purpose := .request executor, stage } :=
    fun stage => List.getElem?_concat_length
  cases hu : a.usable with
  | some t =>
    dsimp only
    rw [obtain_eq, ← join, setStage_join]
    exact .waits (.requesting t) (hlast _) rfl (by simp [Purpose.given]) (by simp [Purpose.given])
  | none =>
    dsimp only
    rw [← join]
    cases ht : a.turn with
    | none =>
      rw [seekTurn_join_of_none _ ht]
      exact .waits .granted (hlast _) rfl (by simp) (by simp)
    | some holder =>
      rw [seekTurn_join_of_some _ ht]
      exact .waits .queued (hlast _) rfl (by simp) (by simp)

end Advance

end Access

end IntentLoop.Auth
