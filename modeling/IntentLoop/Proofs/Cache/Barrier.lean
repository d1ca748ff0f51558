import IntentLoop.Proofs.Cache.SingleFlight
/-!
# Nothing crosses an invalidation

A value can get to a reader in three ways: from the entry, by joining the fetch that is under way,
and from an entry that a late waiter of some fetch has stored. An invalidation shuts all three to
the refreshes called before it. It forgets the entry; it marks the fetch under way as stale, so that
nobody joins it any more and its result is not stored; and a waiter stores a result only if the slot
still has the ticket of its own fetch.

`Screened n k` says this of a cache some time after an invalidation at which `n` tickets had been
given out and `k` callers had come: the entry, the fetch that can be joined and the fetches of later
callers all stem from later tickets. Every move keeps it (`Screened.move`), and what readers see of
it is that nothing they find was given by a refresh called before.
-/

namespace IntentLoop.Cache.TimedCache

variable {ε α : Type}

/-- Some refresh with a ticket from `n` on was called, and gave the result, since the
invalidation. -/
def AnsweredSince (n : Nat) (later : List (Event ε α)) (result : Except ε α) : Prop :=
  ∃ t, n ≤ t ∧ .called t ∈ later ∧ .settled t result ∈ later

theorem AnsweredSince.append {n : Nat} {later : List (Event ε α)} {result : Except ε α}
    (h : AnsweredSince n later result) (events : List (Event ε α)) :
    AnsweredSince n (later ++ events) result := by
  obtain ⟨t, ht, hc, hs⟩ := h
  exact ⟨t, ht, List.mem_append_left events hc, List.mem_append_left events hs⟩

/-- A cache after an invalidation that found `n` tickets and `k` callers, with what was seen
since. -/
structure Screened (n k : Nat) (c : TimedCache ε α) (later : List (Event ε α)) : Prop where
  issued : n ≤ c.slot.issued
  callers : k ≤ c.callers.length
  entry : ∀ e, c.slot.entry = some e → AnsweredSince n later (.ok e.value)
  pending : ∀ p, c.slot.inFlight = some p → p.stale = false → n ≤ p.ticket
  waiting : ∀ i t, k ≤ i → c.callers[i]? = some (.waiting t) → n ≤ t
  called : ∀ t stage, n ≤ t → stageOf c.flights t = some stage → stage ≠ .held → .called t ∈ later
  settled : ∀ t r, n ≤ t → stageOf c.flights t = some (.settled r) → .settled t r ∈ later
  began : ∀ i, .began i ∈ later → k ≤ i
  returned : ∀ i r, k ≤ i → .returned i r ∈ later → AnsweredSince n later r

namespace Screened

theorem invalidate {c : TimedCache ε α} (h : Chained c.flights c.slot) :
    Screened c.slot.issued c.callers.length c.invalidate [] where
  issued := Nat.le_refl _
  callers := Nat.le_refl _
  entry := by intro e he; cases he
  pending := by
    intro p hp hstale
    obtain ⟨q, -, rfl⟩ := Option.map_eq_some_iff.mp hp
    cases hstale
  waiting := by
    intro i t hi hw
    have hlt := (List.getElem?_eq_some_iff.mp hw).1
    exact absurd hlt (Nat.not_lt_of_le hi)
  called := by
    intro t stage ht hs
    have hlt : t < c.flights.length := lt_length_of_stageOf hs
    rw [← h.issued] at hlt
    exact absurd hlt (Nat.not_lt_of_le ht)
  settled := by
    intro t r ht hs
    have hlt : t < c.flights.length := lt_length_of_stageOf hs
    rw [← h.issued] at hlt
    exact absurd hlt (Nat.not_lt_of_le ht)
  began := by intro i hi; cases hi
  returned := by intro i r _ hr; cases hr

variable {n k : Nat} {c : TimedCache ε α} {later : List (Event ε α)}

theorem answeredSince_of_settled (h : Screened n k c later) {t : Nat} {r : Except ε α} (ht : n ≤ t)
    (hs : stageOf c.flights t = some (.settled r)) : AnsweredSince n later r :=
  ⟨t, ht, h.called t _ ht hs (by simp), h.settled t r ht hs⟩

theorem more (h : Screened n k c later) {events : List (Event ε α)}
    (hb : ∀ i, .began i ∈ events → k ≤ i)
    (hr : ∀ i r, k ≤ i → .returned i r ∈ events → AnsweredSince n later r) :
    Screened n k c (later ++ events) where
  issued := h.issued
  callers := h.callers
  entry := fun e he => (h.entry e he).append events
  pending := h.pending
  waiting := h.waiting
  called := fun t stage ht hs hne => List.mem_append_left events (h.called t stage ht hs hne)
  settled := fun t r ht hs => List.mem_append_left events (h.settled t r ht hs)
  began := by
    intro i hi
    rcases List.mem_append.mp hi with hi | hi
    · exact h.began i hi
    · exact hb i hi
  returned := by
    intro i r hi hmem
    rcases List.mem_append.mp hmem with hmem | hmem
    · exact (h.returned i r hi hmem).append events
    · exact (hr i r hi hmem).append events

theorem addCaller (h : Screened n k c later) {caller : Caller ε α}
    (hw : ∀ t, caller = .waiting t → n ≤ t) :
    Screened n k { c with callers := c.callers ++ [caller] } later :=
  { h with
    callers := by
      rw [List.length_append]
      exact Nat.le_trans h.callers (Nat.le_add_right _ _)
    waiting := by
      intro i t hi hc
      rw [getElem?_append_singleton] at hc
      split at hc
      · exact hw t (Option.some.inj hc)
      · exact h.waiting i t hi hc }

theorem setCaller (h : Screened n k c later) (i : Nat) {caller : Caller ε α}
    (hw : ∀ t, caller ≠ .waiting t) :
    Screened n k { c with callers := c.callers.set i caller } later :=
  { h with
    callers := by
      rw [List.length_set]
      exact h.callers
    waiting := by
      intro j t hj hc
      rw [List.getElem?_set] at hc
      split at hc
      · split at hc
        · exact absurd (Option.some.inj hc) (hw t)
        · cases hc
      · exact h.waiting j t hj hc }

theorem opened (h : Screened n k c later) (overtaken : Option Nat) :
    Screened n k
      { c with
        slot := { c.slot with
          inFlight := some { ticket := c.slot.issued, stale := false }
          issued := c.slot.issued + 1 }
        flights := c.flights ++ [{ overtaken, stage := .held }] } later :=
  { h with
    issued := Nat.le_trans h.issued (Nat.le_succ _)
    pending := by
      intro p hp _
      cases hp
      exact h.issued
    called := by
      intro t stage ht hs hne
      rw [stageOf_append_singleton] at hs
      split at hs
      · exact absurd (Option.some.inj hs).symm hne
      · exact h.called t stage ht hs hne
    settled := by
      intro t r ht hs
      rw [stageOf_append_singleton] at hs
      split at hs
      · cases hs
      · exact h.settled t r ht hs }

theorem setStage (h : Screened n k c later) {t : Nat} {old stage : FlightStage ε α}
    (hold : stageOf c.flights t = some old) (hc : n ≤ t → .called t ∈ later)
    (hs : ∀ r, stage = .settled r → .settled t r ∈ later) :
    Screened n k (c.setStage t stage) later :=
  { h with
    called := by
      intro s stage' hsn hstage hne
      rw [stageOf_setStage (lt_length_of_stageOf hold)] at hstage
      split at hstage
      · rename_i hst
        exact hst ▸ hc (hst ▸ hsn)
      · exact h.called s stage' hsn hstage hne
    settled := by
      intro s r hsn hstage
      rw [stageOf_setStage (lt_length_of_stageOf hold)] at hstage
      split at hstage
      · rename_i hst
        exact hst ▸ hs r (Option.some.inj hstage)
      · exact h.settled s r hsn hstage }

/-- A waiter of a settled fetch has its result. It is stored only for a later ticket. -/
theorem concluded (h : Screened n k c later) {t : Nat} {r : Except ε α}
    (hs : stageOf c.flights t = some (.settled r)) :
    Screened n k { c with slot := c.slot.conclude t r c.now } later :=
  { h with
    issued := by
      rw [Slot.conclude_issued]
      exact h.issued
    entry := by
      intro e he
      rcases Slot.conclude_entry he with he | ⟨hp, hr, -⟩
      · exact h.entry e he
      · rw [← hr]
        exact h.answeredSince_of_settled (h.pending _ hp rfl) hs
    pending := fun p hp => h.pending p (Slot.inFlight_of_conclude hp) }

theorem invalidated (h : Screened n k c later) : Screened n k c.invalidate later :=
  { h with
    entry := by intro e he; cases he
    pending := by
      intro p hp hstale
      obtain ⟨q, -, rfl⟩ := Option.map_eq_some_iff.mp hp
      cases hstale }

theorem answeredSince_of_peek (h : Screened n k c later) {value : α} (hv : c.peek = some value) :
    AnsweredSince n later (.ok value) := by
  obtain ⟨e, he, rfl⟩ := Slot.entry_of_peek hv
  exact h.entry e he

/-- **No move lets anything through.** -/
theorem move {c' : TimedCache ε α} {events : List (Event ε α)} (h : Screened n k c later)
    (m : Move c c' events) : Screened n k c' (later ++ events) := by
  cases m with
  | served value hv =>
    refine (h.more ?_ ?_).addCaller (by simp)
    · simpa using h.callers
    · intro i r _ hr
      simp only [List.mem_cons, Event.returned.injEq, reduceCtorEq, List.not_mem_nil, or_false,
        false_or] at hr
      exact hr.2 ▸ h.answeredSince_of_peek hv
  | joined t hv hp =>
    refine (h.more ?_ (by simp)).addCaller ?_
    · simpa using h.callers
    · intro u hu
      cases hu
      exact h.pending _ hp rfl
  | opened hv hp =>
    refine ((h.more ?_ (by simp)).opened _).addCaller ?_
    · simpa using h.callers
    · intro u hu
      cases hu
      exact h.issued
  | called t hs hd =>
    exact (h.more (by simp) (by simp)).setStage hs
      (fun _ => List.mem_append_right later (List.mem_singleton.mpr rfl)) (by simp)
  | answered t r hs hd =>
    refine (h.more (by simp) (by simp)).setStage hs ?_ ?_
    · intro ht
      exact List.mem_append_left _ (h.called t _ ht hs (by simp))
    · intro r' hr
      cases hr
      exact List.mem_append_right later (List.mem_singleton.mpr rfl)
  | finished i t r hc hs =>
    refine ((h.more (by simp) ?_).concluded hs).setCaller i (by simp)
    intro j r' hj hr
    cases List.mem_singleton.mp hr
    exact h.answeredSince_of_settled (h.waiting i t hj hc) hs
  | dropped i t hc => exact (h.more (by simp) (by simp)).setCaller i (by simp)
  | invalidated => exact (h.more (by simp) (by simp)).invalidated
  | passed time =>
    rw [List.append_nil]
    exact { h with }

end Screened

/-- Somebody who came since has got the result, or could peek at it now. -/
def ReadSince (c : TimedCache ε α) (later : List (Event ε α)) (result : Except ε α) : Prop :=
  (∃ value, c.peek = some value ∧ result = .ok value) ∨
    ∃ caller, .began caller ∈ later ∧ .returned caller result ∈ later

theorem Screened.answeredSince {n k : Nat} {c : TimedCache ε α} {later : List (Event ε α)}
    (h : Screened n k c later) {r : Except ε α} (hr : ReadSince c later r) :
    AnsweredSince n later r := by
  rcases hr with ⟨v, hv, rfl⟩ | ⟨i, hb, hret⟩
  · exact h.answeredSince_of_peek hv
  · exact h.returned i r (h.began i hb) hret

/-- **An invalidation is a barrier.** What a caller gets that came after it, and what can be peeked
at after it, was given by a refresh called after it. Should every result bear the mark of the fetch
that gave it, then none that is read bears the mark of a refresh called before. -/
theorem no_result_from_before (ttl : Duration) (pre post : List (Act ε α)) :
    ∃ after,
      seen (run ttl (pre ++ .invalidate :: post)).2 =
        seen (run ttl pre).2 ++ .invalidated :: after ∧
      ∀ r, ReadSince (run ttl (pre ++ .invalidate :: post)).1 after r →
        (∃ t, .called t ∉ seen (run ttl pre).2 ∧ .called t ∈ after ∧ .settled t r ∈ after) ∧
        ∀ mark : Except ε α → Nat,
          (∀ t r, .settled t r ∈ seen (run ttl (pre ++ .invalidate :: post)).2 → mark r = t) →
          .called (mark r) ∉ seen (run ttl pre).2 := by
  have hpre := sound_run ttl pre
  have h : Screened _ _ ((run ttl pre).1.invalidate.runFrom post).1
      (seen ((run ttl pre).1.invalidate.runFrom post).2) :=
    runFrom_induct_seen (Screened.invalidate hpre.chained) Screened.move post
  have hseen : seen (run ttl (pre ++ .invalidate :: post)).2 =
      seen (run ttl pre).2 ++
        .invalidated :: seen ((run ttl pre).1.invalidate.runFrom post).2 := by
    rw [run_split, seen_append, seen_append, seen_stamped]
    rfl
  refine ⟨seen ((run ttl pre).1.invalidate.runFrom post).2, hseen, ?_⟩
  intro r hr
  rw [run_split] at hr
  obtain ⟨t, ht, hc, hs⟩ := h.answeredSince hr
  have hnew : .called t ∉ seen (run ttl pre).2 := by
    intro hmem
    obtain ⟨stage, hstage, -⟩ := (hpre.logged.called t).mp hmem
    have hlt := lt_length_of_stageOf hstage
    rw [← hpre.chained.issued] at hlt
    omega
  refine ⟨⟨t, hnew, hc, hs⟩, ?_⟩
  intro mark hmark
  have hmem : .settled t r ∈ seen (run ttl (pre ++ .invalidate :: post)).2 := by
    rw [hseen]
    exact List.mem_append_right _ (List.mem_cons_of_mem _ hs)
  rw [hmark t r hmem]
  exact hnew

/-- A caller who comes after an invalidation is not served by the fetch that is under way, although
it answers first. -/
theorem later_caller_refetches :
    ∃ after : List (Event Unit Nat),
      seen (run (.ofSecs 60) [.get, .call 0, .invalidate, .get, .settle 0 (.ok 1), .call 1,
          .settle 1 (.ok 2)]).2 =
        seen (run (.ofSecs 60) [.get, .call 0]).2 ++ .invalidated :: after ∧
      .returned 1 (.ok 2) ∈ after ∧
      ∃ t, .called t ∉ seen (run (.ofSecs 60) ([.get, .call 0] : List (Act Unit Nat))).2 ∧
        .called t ∈ after ∧ .settled t (.ok 2) ∈ after := by
  obtain ⟨after, hsplit, hread⟩ := no_result_from_before (.ofSecs 60)
    ([.get, .call 0] : List (Act Unit Nat)) [.get, .settle 0 (.ok 1), .call 1, .settle 1 (.ok 2)]
  have hlast : after = [.began 1, .opened 1 1 (some 0), .settled 0 (.ok 1), .returned 0 (.ok 1),
      .called 1, .settled 1 (.ok 2), .returned 1 (.ok 2)] :=
    (congrArg (List.drop 4) hsplit).symm
  have hbegan : .began 1 ∈ after := by simp [hlast]
  have hreturned : .returned 1 (.ok 2) ∈ after := by simp [hlast]
  exact ⟨after, hsplit, hreturned, (hread _ (Or.inr ⟨1, hbegan, hreturned⟩)).1⟩

end IntentLoop.Cache.TimedCache
