import IntentLoop.Proofs.Cache.SingleFlight
/-!
# Who moves what

Those who wait for different fetches of a cache all move the same one: the first that has not settled
(`Foremost`). Whichever fetch somebody waits for, the chain of fetches that have to settle before leads to
it (`Chained.rootOf_eq`), so that it does not matter for the progress of a fetch which of its waiters, or of
the waiters of a later one, is there to move it. What such a waiter needs can be done at once
(`Chained.need_of_waiting`).
-/

namespace IntentLoop.Cache

variable {ε α : Type}

/-- The first fetch that has not settled. -/
structure Foremost (fs : List (Flight ε α)) (ticket : Nat) : Prop where
  before : ∀ s < ticket, Settled fs s
  unsettled : ¬Settled fs ticket

theorem exists_foremost {fs : List (Flight ε α)} {t : Nat} (h : ¬Settled fs t) :
    ∃ m ≤ t, Foremost fs m := by
  induction t using Nat.strongRecOn with
  | ind t ih =>
    by_cases hall : ∀ s < t, Settled fs s
    · exact ⟨t, Nat.le_refl t, hall, h⟩
    · obtain ⟨s, hst, hs⟩ : ∃ s, s < t ∧ ¬Settled fs s := by simpa using hall
      obtain ⟨m, hms, hm⟩ := ih s hst hs
      exact ⟨m, Nat.le_of_lt (Nat.lt_of_le_of_lt hms hst), hm⟩

theorem Foremost.le {fs : List (Flight ε α)} {m t : Nat} (h : Foremost fs m) (ht : ¬Settled fs t) :
    m ≤ t :=
  Nat.le_of_not_lt fun hlt => ht (h.before t hlt)

theorem foremost_concat {fs : List (Flight ε α)} (h : ∀ s < fs.length, Settled fs s)
    (overtaken : Option Nat) : Foremost (fs ++ [{ overtaken, stage := .held }]) fs.length where
  before := by
    intro s hs
    obtain ⟨r, hr⟩ := h s hs
    exact ⟨r, by rw [stageOf_append_singleton, if_neg (Nat.ne_of_lt hs), hr]⟩
  unsettled := by
    rintro ⟨r, hr⟩
    rw [stageOf_append_singleton, if_pos rfl] at hr
    cases hr

theorem Foremost.stage {fs : List (Flight ε α)} {m : Nat} (h : Foremost fs m) (hlt : m < fs.length) :
    stageOf fs m = some .held ∨ stageOf fs m = some .running := by
  have hm : stageOf fs m = some fs[m].stage := stageOf_of_getElem? (List.getElem?_eq_getElem hlt)
  cases hs : fs[m].stage with
  | held => exact Or.inl (hs ▸ hm)
  | running => exact Or.inr (hs ▸ hm)
  | settled r => exact absurd ⟨r, hs ▸ hm⟩ h.unsettled

namespace Chained

variable {c : TimedCache ε α}

/-- Fetches settle in the order of their tickets. -/
theorem settled_of_le (h : Chained c.flights c.slot) {s t : Nat} (ht : Settled c.flights t) (hst : s ≤ t) :
    Settled c.flights s := by
  rcases Nat.lt_or_eq_of_le hst with hlt | rfl
  · obtain ⟨r, hr⟩ := ht
    exact h.begun t _ hr (by simp) s hlt
  · exact ht

theorem root_eq (h : Chained c.flights c.slot) {m : Nat} (hm : Foremost c.flights m) :
    ∀ fuel s, s ≤ fuel → m ≤ s → s < c.flights.length → c.root fuel s = m := by
  intro fuel
  induction fuel with
  | zero =>
    intro s hfuel hms _
    rw [TimedCache.root]
    omega
  | succ fuel ih =>
    intro s hfuel hms hs
    rw [TimedCache.root]
    split
    · rename_i e hf
      have hes : e + 1 = s := h.waits s e (by rw [overtakenBy, hf, Option.map_some])
      split
      · rename_i hr
        obtain ⟨r, hr⟩ := Option.isSome_iff_exists.mp hr
        have hme : ¬m ≤ e := fun hle =>
          hm.unsettled (h.settled_of_le ⟨r, (c.result?_eq_some_iff e r).mp hr⟩ hle)
        omega
      · rename_i hr
        have he : ¬Settled c.flights e := by
          rintro ⟨r, hs⟩
          exact hr (Option.isSome_iff_exists.mpr ⟨r, (c.result?_eq_some_iff e r).mpr hs⟩)
        exact ih e (by omega) (hm.le he) (by omega)
    · rename_i hno
      -- the fetch has begun, or does not wait for another one: all before it have settled
      rcases Nat.lt_or_eq_of_le hms with hlt | rfl
      · have hf : c.flights[s]? = some c.flights[s] := List.getElem?_eq_getElem hs
        have hstage := stageOf_of_getElem? hf
        have hovertaken : overtakenBy c.flights s = some c.flights[s].overtaken := by
          rw [overtakenBy, hf, Option.map_some]
        refine absurd ?_ hm.unsettled
        cases ho : c.flights[s].overtaken with
        | none => exact h.free s (ho ▸ hovertaken) m hlt
        | some e =>
          refine h.begun s _ hstage (fun hheld => hno e ?_) m hlt
          rw [hf, ← ho, ← hheld]
      · rfl

/-- **Whoever waits for a fetch that has not settled moves the first one that has not.** -/
theorem rootOf_eq (h : Chained c.flights c.slot) {m s : Nat} (hm : Foremost c.flights m) (hms : m ≤ s)
    (hs : s < c.flights.length) : c.rootOf s = m :=
  h.root_eq hm s s (Nat.le_refl s) hms hs

end Chained

namespace TimedCache

variable {c : TimedCache ε α} {k s m : Nat}

theorem rootOf_of_settled (h : Settled c.flights s) : c.rootOf s = s := by
  obtain ⟨r, hr⟩ := h
  obtain ⟨⟨overtaken, stage⟩, hf, hstage⟩ := Option.map_eq_some_iff.mp hr
  cases hstage
  cases s with
  | zero => rfl
  | succ s =>
    rw [rootOf, root, hf]
    cases overtaken <;> rfl

theorem isDriven_iff : c.isDriven m = true ↔ ∃ k s : Nat, c.callers[k]? = some (.waiting s) ∧ c.rootOf s = m := by
  rw [isDriven, List.any_eq_true]
  constructor
  · rintro ⟨caller, hmem, hroot⟩
    obtain ⟨k, hk⟩ := List.mem_iff_getElem?.mp hmem
    cases caller with
    | waiting s => exact ⟨k, s, hk, by simpa using hroot⟩
    | returned r => simp at hroot
    | dropped => simp at hroot
  · rintro ⟨k, s, hk, hroot⟩
    exact ⟨.waiting s, List.mem_of_getElem? hk, by simpa using hroot⟩

theorem call_of_isDriven (hs : stageOf c.flights m = some .held) (hd : c.isDriven m) :
    c.step (.call m) = (c.setStage m .running, [.called m]) := by
  obtain ⟨⟨overtaken, stage⟩, hf, hstage⟩ := Option.map_eq_some_iff.mp hs
  cases hstage
  show c.call m = _
  rw [call, hf]
  exact if_pos hd

theorem answer_of_isDriven (hs : stageOf c.flights m = some .running) (hd : c.isDriven m)
    (r : Except ε α) : c.step (.answer m r) = (c.setStage m (.settled r), [.settled m r]) := by
  obtain ⟨⟨overtaken, stage⟩, hf, hstage⟩ := Option.map_eq_some_iff.mp hs
  cases hstage
  show c.answer m r = _
  rw [answer, hf]
  exact if_pos hd

end TimedCache

/-- **What a waiter needs can be done.** Somebody who waits needs the refresh of the first fetch that has
not settled to be called, or to answer, and either can happen. -/
theorem Chained.need_of_waiting {c : TimedCache ε α} (h : Chained c.flights c.slot) {k s m : Nat}
    (hk : c.callers[k]? = some (.waiting s)) (hs : s < c.flights.length) (hm : Foremost c.flights m)
    (hms : m ≤ s) :
    (stageOf c.flights m = some .held ∧ c.need k = .call m ∧ (c.step (.call m)).2 = [.called m]) ∨
      (stageOf c.flights m = some .running ∧ c.need k = .answer m ∧
        ∀ r, (c.step (.answer m r)).2 = [.settled m r]) := by
  have hroot : c.rootOf s = m := h.rootOf_eq hm hms hs
  have hd : c.isDriven m := TimedCache.isDriven_iff.mpr ⟨k, s, hk, hroot⟩
  have need : ∀ {f : Flight ε α}, c.flights[m]? = some f → c.need k =
      match f with
      | { stage := .held, .. } => .call m
      | { stage := .running, .. } => .answer m
      | { stage := .settled _, .. } => .finish := by
    intro f hf
    rw [TimedCache.need, hk]
    dsimp only
    rw [hroot, hf]
    rcases f with ⟨o, _ | _ | _⟩ <;> rfl
  rcases hm.stage (Nat.lt_of_le_of_lt hms hs) with hstage | hstage
  · refine Or.inl ⟨hstage, ?_, by rw [TimedCache.call_of_isDriven hstage hd]⟩
    obtain ⟨⟨o, stage⟩, hf, heq⟩ := Option.map_eq_some_iff.mp hstage
    cases heq
    exact need hf
  · refine Or.inr ⟨hstage, ?_, fun r => by rw [TimedCache.answer_of_isDriven hstage hd r]⟩
    obtain ⟨⟨o, stage⟩, hf, heq⟩ := Option.map_eq_some_iff.mp hstage
    cases heq
    exact need hf

end IntentLoop.Cache
