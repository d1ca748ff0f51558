import IntentLoop.Proofs.Cache.Sharing
/-!
# Two caches side by side

When a fetch has settled and has left the slot, its callers have nothing left to do but to take its result
or to go away, and neither is noticed by anybody else. Two caches that differ in such callers only (`Parted`)
therefore do the same to everybody else at every act (`Parted.step`), and stay alike in all but those callers.

What is told of two runs of this kind agrees but for what concerns the callers of the fetch (`Agree`). In
prompt runs these return alike, too, since they all return when the fetch settles (`Agree.returned`).
-/

namespace IntentLoop.Cache

theorem Slot.conclude_gone {ε α : Type} (ticket : Nat) (s : Slot α) (result : Except ε α) (now : Duration)
    (p : Pending) (hp : (s.conclude ticket result now).inFlight = some p) : p.ticket ≠ ticket := by
  intro hpt
  rw [conclude_inFlight (inFlight_of_conclude hp) hpt] at hp
  cases hp

theorem Chained.gone {ε α : Type} {fs : List (Flight ε α)} {slot : Slot α} (h : Chained fs slot) {t : Nat}
    (hlater : t + 1 < slot.issued) (p : Pending) (hp : slot.inFlight = some p) : p.ticket ≠ t := by
  have hlast := h.registered p hp
  have hissued := h.issued
  omega

namespace TimedCache

variable {ε α : Type}

/-! ### What depends on the fetches alone -/

section Congr

variable {c d : TimedCache ε α}

theorem result?_congr (h : c.flights = d.flights) (t : Nat) : c.result? t = d.result? t := by
  unfold result?
  rw [h]

theorem firstWaiter?_congr {t : Nat}
    (h : ∀ i : Nat, c.callers[i]? = some (.waiting t) ↔ d.callers[i]? = some (.waiting t)) :
    c.firstWaiter? t = d.firstWaiter? t := by
  refine Option.ext fun i => ?_
  rw [firstWaiter?_eq_some_iff, firstWaiter?_eq_some_iff]
  simp only [ne_eq, h]

theorem rootOf_congr (h : c.flights = d.flights) (t : Nat) : c.rootOf t = d.rootOf t := by
  have root : ∀ fuel t, c.root fuel t = d.root fuel t := by
    intro fuel
    induction fuel with
    | zero => exact fun _ => rfl
    | succ fuel ih =>
      intro t
      unfold TimedCache.root
      simp only [h, ih, result?_congr h]
  exact root t t

end Congr

/-! ### Acts of one caller, and answers -/

/-- The cache as it is when the caller has gone away. -/
def without (c : TimedCache ε α) (k : Nat) : TimedCache ε α :=
  { c with callers := c.callers.set k .dropped }

theorem drop_of_waiting {c : TimedCache ε α} {k t : Nat} (h : c.callers[k]? = some (.waiting t)) :
    c.step (.drop k) = (c.without k, [.dropped k]) := by
  show c.drop k = _
  rw [drop, h]
  rfl

theorem drop_of_not_waiting {c : TimedCache ε α} {k : Nat}
    (h : ∀ t : Nat, c.callers[k]? ≠ some (.waiting t)) : c.step (.drop k) = (c, []) := by
  show c.drop k = _
  rw [drop]
  split
  · rename_i t ht
    exact absurd ht (h t)
  · rfl

theorem settled_of_answered {c d : TimedCache ε α} {t : Nat} {r : Except ε α}
    (h : c.answer t r = (d, [.settled t r])) : .settled t r ∈ (c.step (.settle t r)).2 := by
  rw [settle_of_answered h]
  exact List.mem_cons_self

theorem step_of_settled {c : TimedCache ε α} {act : Act ε α} {t : Nat} {r : Except ε α}
    (h : .settled t r ∈ (c.step act).2) :
    (act = .answer t r ∨ act = .settle t r) ∧ stageOf c.flights t = some .running ∧
      c.answer t r = (c.setStage t (.settled r), [.settled t r]) := by
  cases act with
  | get =>
    cases hpeek : c.peek with
    | some value => simp [get_of_fresh hpeek] at h
    | none =>
      obtain ⟨u, -, hjoined | ⟨o, hopened⟩⟩ := get_of_peek_eq_none hpeek
      · simp [hjoined] at h
      · simp [hopened] at h
  | call u =>
    rw [step, call] at h
    split at h
    · split at h <;> simp at h
    · cases h
  | answer u r' =>
    rcases answer_moves u r' c with ha | ⟨ha, m⟩
    · simp [step, ha] at h
    · rw [step, ha] at h
      cases List.mem_singleton.mp h
      exact ⟨Or.inl rfl, (m.settles (List.mem_singleton.mpr rfl)).1, ha⟩
  | settle u r' =>
    rcases answer_moves u r' c with ha | ⟨ha, m⟩
    · simp [settle_of_unanswered ha] at h
    · rw [settle_of_answered ha] at h
      rcases List.mem_cons.mp h with hevent | htaken
      · cases hevent
        exact ⟨Or.inr rfl, (m.settles (List.mem_singleton.mpr rfl)).1, ha⟩
      · obtain ⟨i, r'', hevent, -⟩ := takeFirst_of_told htaken
        cases hevent
  | finish i =>
    obtain ⟨u, r', hevent, -⟩ := finish_of_told h
    cases hevent
  | drop i =>
    rw [step, drop] at h
    split at h <;> simp at h
  | invalidate => simp [step] at h
  | pass d => cases h

/-! ### Caches that differ in the callers of one fetch -/

/-- The caller does not wait for any other fetch. -/
def Idle (c : TimedCache ε α) (t i : Nat) : Prop := ∀ u ≠ t, c.callers[i]? ≠ some (.waiting u)

theorem Idle.of_waiting {c : TimedCache ε α} {t i : Nat} (h : c.callers[i]? = some (.waiting t)) :
    Idle c t i := by
  intro u hut hi
  rw [h] at hi
  cases hi
  exact hut rfl

/-- Two caches differ at most in what has become of the callers of a fetch that has settled and has left the
slot. -/
structure Parted (t : Nat) (c d : TimedCache ε α) : Prop where
  ttl : c.ttl = d.ttl
  now : c.now = d.now
  slot : c.slot = d.slot
  flights : c.flights = d.flights
  length : c.callers.length = d.callers.length
  waiting : ∀ i u : Nat, u ≠ t → (c.callers[i]? = some (.waiting u) ↔ d.callers[i]? = some (.waiting u))
  known : t < c.slot.issued
  settled : Settled c.flights t
  gone : ∀ p, c.slot.inFlight = some p → p.ticket ≠ t

/-- What is told of a caller of the fetch. -/
def OfCaller (c : TimedCache ε α) (t : Nat) (event : Event ε α) : Prop :=
  ∃ i : Nat, c.callers[i]? = some (.waiting t) ∧ (event = .dropped i ∨ ∃ r, event = .returned i r)

namespace Parted

variable {c d : TimedCache ε α} {t : Nat}

theorem refl (hknown : t < c.slot.issued) (hs : Settled c.flights t)
    (hgone : ∀ p, c.slot.inFlight = some p → p.ticket ≠ t) : Parted t c c :=
  ⟨rfl, rfl, rfl, rfl, rfl, fun _ _ _ => Iff.rfl, hknown, hs, hgone⟩

theorem symm (h : Parted t c d) : Parted t d c where
  ttl := h.ttl.symm
  now := h.now.symm
  slot := h.slot.symm
  flights := h.flights.symm
  length := h.length.symm
  waiting i u hu := (h.waiting i u hu).symm
  known := h.slot ▸ h.known
  settled := h.flights ▸ h.settled
  gone := h.slot ▸ h.gone

theorem trans {e : TimedCache ε α} (h : Parted t c d) (h' : Parted t d e) : Parted t c e where
  ttl := h.ttl.trans h'.ttl
  now := h.now.trans h'.now
  slot := h.slot.trans h'.slot
  flights := h.flights.trans h'.flights
  length := h.length.trans h'.length
  waiting i u hu := (h.waiting i u hu).trans (h'.waiting i u hu)
  known := h.known
  settled := h.settled
  gone := h.gone

theorem idle (h : Parted t c d) {i : Nat} (hi : Idle c t i) : Idle d t i :=
  fun u hu hd => hi u hu ((h.waiting i u hu).mpr hd)

theorem set (h : Parted t c d) {i : Nat} (hi : Idle c t i) (caller : Caller ε α)
    (hcaller : ∀ u, caller ≠ .waiting u) :
    Parted t { c with callers := c.callers.set i caller } d :=
  { h with
    length := List.length_set.trans h.length
    waiting := by
      intro j u hu
      rw [← h.waiting j u hu]
      by_cases hji : j = i
      · subst hji
        refine iff_of_false (fun hj => ?_) (hi u hu)
        rw [List.getElem?_set, if_pos rfl] at hj
        split at hj
        · exact hcaller u (Option.some.inj hj)
        · cases hj
      · rw [List.getElem?_set_ne (Ne.symm hji)] }

theorem isDriven (h : Parted t c d) {u : Nat} (hu : ¬Settled c.flights u) :
    c.isDriven u = d.isDriven u := by
  have moves : ∀ {c d : TimedCache ε α}, Parted t c d → ¬Settled c.flights u → c.isDriven u →
      d.isDriven u := by
    intro c d h hu hd
    obtain ⟨i, w, hi, hroot⟩ := isDriven_iff.mp hd
    have hw : w ≠ t := by
      rintro rfl
      rw [rootOf_of_settled h.settled] at hroot
      exact hu (hroot ▸ h.settled)
    exact isDriven_iff.mpr ⟨i, w, (h.waiting i w hw).mp hi, (rootOf_congr h.flights.symm w).trans hroot⟩
  rw [Bool.eq_iff_iff]
  exact ⟨moves h hu, moves h.symm (h.flights ▸ hu)⟩

/-! #### Acts on both -/

theorem concat (h : Parted t c d) (caller : Caller ε α) :
    Parted t { c with callers := c.callers ++ [caller] } { d with callers := d.callers ++ [caller] } :=
  { h with
    length := by rw [List.length_append, List.length_append, h.length]
    waiting := by
      intro i u hu
      dsimp only
      rw [getElem?_append_singleton, getElem?_append_singleton, h.length]
      split
      · exact Iff.rfl
      · exact h.waiting i u hu }

theorem set_both (h : Parted t c d) (i : Nat) (caller : Caller ε α) :
    Parted t { c with callers := c.callers.set i caller } { d with callers := d.callers.set i caller } :=
  { h with
    length := List.length_set.trans (h.length.trans List.length_set.symm)
    waiting := by
      intro j u hu
      dsimp only
      rw [List.getElem?_set, List.getElem?_set, h.length]
      split
      · exact Iff.rfl
      · exact h.waiting j u hu }

theorem setStage (h : Parted t c d) {u : Nat} {old : FlightStage ε α}
    (hstage : stageOf c.flights u = some old) (hold : ∀ r, old ≠ .settled r) (stage : FlightStage ε α) :
    Parted t (c.setStage u stage) (d.setStage u stage) :=
  { h with
    flights := by
      unfold TimedCache.setStage
      rw [h.flights]
    settled := Chained.settled_setStage hstage hold h.settled }

theorem get (h : Parted t c d) :
    Parted t (c.step .get).1 (d.step .get).1 ∧ (c.step .get).2 = (d.step .get).2 := by
  have hsame : d.peek = c.peek := by
    unfold peek
    rw [h.slot, h.ttl, h.now]
  cases hpeek : c.peek with
  | some value =>
    rw [get_of_fresh hpeek, get_of_fresh (hsame.trans hpeek), h.length]
    exact ⟨h.concat _, rfl⟩
  | none =>
    rcases c.slot.joined_or_stale with ⟨u, hp⟩ | hstale
    · rw [get_of_joinable hpeek hp, get_of_joinable (hsame.trans hpeek) (h.slot ▸ hp), h.length]
      exact ⟨h.concat _, rfl⟩
    · rw [get_of_stale hpeek hstale, get_of_stale (hsame.trans hpeek) (h.slot ▸ hstale), h.length,
        h.slot]
      refine ⟨{ h.concat (.waiting d.slot.issued) with
        slot := rfl
        flights := by rw [h.flights]
        known := Nat.lt_succ_of_lt (h.slot ▸ h.known)
        settled := ?_
        gone := ?_ }, rfl⟩
      · obtain ⟨r, hr⟩ := h.settled
        refine ⟨r, ?_⟩
        rw [stageOf_append_singleton, if_neg (Nat.ne_of_lt (lt_length_of_stageOf hr)), hr]
      · intro p hp
        cases hp
        exact Nat.ne_of_gt (h.slot ▸ h.known)

theorem call (h : Parted t c d) (u : Nat) :
    Parted t (c.step (.call u)).1 (d.step (.call u)).1 ∧
      (c.step (.call u)).2 = (d.step (.call u)).2 := by
  show Parted t (c.call u).1 (d.call u).1 ∧ (c.call u).2 = (d.call u).2
  unfold TimedCache.call
  rw [← h.flights]
  split
  · rename_i hf
    have hstage := stageOf_of_getElem? hf
    rw [← h.isDriven (u := u) (by rintro ⟨r, hr⟩; rw [hstage] at hr; cases hr)]
    split
    · exact ⟨h.setStage hstage nofun .running, rfl⟩
    · exact ⟨h, rfl⟩
  · exact ⟨h, rfl⟩

/-- A refresh answers in both, or in neither. -/
theorem answer (h : Parted t c d) (u : Nat) (r : Except ε α) :
    (c.answer u r = (c, []) ∧ d.answer u r = (d, [])) ∨
      c.answer u r = (c.setStage u (.settled r), [.settled u r]) ∧
        d.answer u r = (d.setStage u (.settled r), [.settled u r]) ∧
        Parted t (c.setStage u (.settled r)) (d.setStage u (.settled r)) ∧ u ≠ t := by
  have answers : ∀ {c d : TimedCache ε α}, Parted t c d →
      Move c (c.setStage u (.settled r)) [.settled u r] →
      d.answer u r = (d.setStage u (.settled r), [.settled u r]) ∧
        Parted t (c.setStage u (.settled r)) (d.setStage u (.settled r)) ∧ u ≠ t := by
    intro c d h m
    obtain ⟨hrunning, hd⟩ := m.settles (List.mem_singleton.mpr rfl)
    have hunsettled : ¬Settled c.flights u := by
      rintro ⟨r', hr⟩
      rw [hrunning] at hr
      cases hr
    refine ⟨?_, h.setStage hrunning nofun _, fun hut => hunsettled (hut ▸ h.settled)⟩
    exact answer_of_isDriven (h.flights ▸ hrunning) (h.isDriven hunsettled ▸ hd) r
  rcases answer_moves u r c with hc | ⟨hc, m⟩
  · rcases answer_moves u r d with hd | ⟨-, m⟩
    · exact Or.inl ⟨hc, hd⟩
    · rw [(answers h.symm m).1] at hc
      exact absurd (Prod.mk.inj hc).2 (List.cons_ne_nil _ _)
  · exact Or.inr ⟨hc, answers h m⟩

theorem finish_idle (h : Parted t c d) {i : Nat} (hi : Idle c t i) :
    Parted t (c.finish i).1 d ∧ ∀ event ∈ (c.finish i).2, OfCaller c t event := by
  unfold TimedCache.finish
  split
  · rename_i w hw
    obtain rfl : w = t := Decidable.of_not_not fun hne => hi w hne hw
    split
    · rename_i r hr
      rw [Slot.conclude_of_ne h.gone]
      refine ⟨h.set hi (.returned r) nofun, fun event hmem => ?_⟩
      exact ⟨i, hw, Or.inr ⟨r, List.mem_singleton.mp hmem⟩⟩
    · exact ⟨h, nofun⟩
  · exact ⟨h, nofun⟩

theorem finish (h : Parted t c d) (i : Nat) :
    Parted t (c.finish i).1 (d.finish i).1 ∧
      ∀ event ∈ (c.finish i).2, event ∈ (d.finish i).2 ∨ OfCaller c t event := by
  by_cases hi : Idle c t i
  · obtain ⟨hleft, hevents⟩ := h.finish_idle hi
    exact ⟨(hleft.symm.finish_idle (h.idle hi)).1.symm, fun event hmem => Or.inr (hevents event hmem)⟩
  · obtain ⟨u, hut, hc⟩ : ∃ u, u ≠ t ∧ c.callers[i]? = some (.waiting u) := by
      simpa [Idle] using hi
    have hd := (h.waiting i u hut).mp hc
    unfold TimedCache.finish
    rw [hc, hd]
    dsimp only
    rw [← result?_congr h.flights u]
    split
    · rename_i r hr
      refine ⟨{ h.set_both i (.returned r) with
        slot := congrArg₂ (fun slot now => slot.conclude u r now) h.slot h.now
        known := (Slot.conclude_issued u r c.now c.slot).symm ▸ h.known
        gone := fun p hp => h.gone p (Slot.inFlight_of_conclude hp) }, fun event hmem => Or.inl hmem⟩
    · exact ⟨h, nofun⟩

theorem drop_idle (h : Parted t c d) {i : Nat} (hi : Idle c t i) :
    Parted t (c.step (.drop i)).1 d ∧ ∀ event ∈ (c.step (.drop i)).2, OfCaller c t event := by
  by_cases hw : ∃ w : Nat, c.callers[i]? = some (.waiting w)
  · obtain ⟨w, hw⟩ := hw
    obtain rfl : w = t := Decidable.of_not_not fun hne => hi w hne hw
    rw [drop_of_waiting hw]
    exact ⟨h.set hi .dropped nofun, fun event hmem => ⟨i, hw, Or.inl (List.mem_singleton.mp hmem)⟩⟩
  · rw [drop_of_not_waiting fun w hi => hw ⟨w, hi⟩]
    exact ⟨h, nofun⟩

theorem drop (h : Parted t c d) (i : Nat) :
    Parted t (c.step (.drop i)).1 (d.step (.drop i)).1 ∧
      ∀ event ∈ (c.step (.drop i)).2, event ∈ (d.step (.drop i)).2 ∨ OfCaller c t event := by
  by_cases hi : Idle c t i
  · obtain ⟨hleft, hevents⟩ := h.drop_idle hi
    exact ⟨(hleft.symm.drop_idle (h.idle hi)).1.symm, fun event hmem => Or.inr (hevents event hmem)⟩
  · obtain ⟨u, hut, hc⟩ : ∃ u, u ≠ t ∧ c.callers[i]? = some (.waiting u) := by
      simpa [Idle] using hi
    rw [drop_of_waiting hc, drop_of_waiting ((h.waiting i u hut).mp hc)]
    exact ⟨h.set_both i .dropped, fun event hmem => Or.inl hmem⟩

theorem takeFirst (h : Parted t c d) {u : Nat} (hut : u ≠ t) :
    Parted t (c.takeFirst u).1 (d.takeFirst u).1 ∧
      ∀ event ∈ (c.takeFirst u).2, event ∈ (d.takeFirst u).2 ∨ OfCaller c t event := by
  unfold TimedCache.takeFirst
  rw [firstWaiter?_congr fun i => h.waiting i u hut]
  split
  · rename_i i _
    exact h.finish i
  · exact ⟨h, nofun⟩

theorem settle (h : Parted t c d) (u : Nat) (r : Except ε α) :
    Parted t (c.step (.settle u r)).1 (d.step (.settle u r)).1 ∧
      ∀ event ∈ (c.step (.settle u r)).2, event ∈ (d.step (.settle u r)).2 ∨ OfCaller c t event := by
  rcases h.answer u r with ⟨hc, hd⟩ | ⟨hc, hd, hsettled, hut⟩
  · rw [settle_of_unanswered hc, settle_of_unanswered hd]
    exact ⟨h, nofun⟩
  · obtain ⟨htaken, hevents⟩ := hsettled.takeFirst hut
    rw [settle_of_answered hc, settle_of_answered hd]
    refine ⟨htaken, fun event hmem => ?_⟩
    rcases List.mem_cons.mp hmem with rfl | hmem
    · exact Or.inl List.mem_cons_self
    · exact (hevents event hmem).imp_left (List.mem_cons_of_mem _)

/-- **Everybody else notices nothing.** What is told of an act on the one is told of it on the other, unless
it is of a caller of the fetch. -/
theorem step (h : Parted t c d) (act : Act ε α) :
    Parted t (c.step act).1 (d.step act).1 ∧
      ∀ event ∈ (c.step act).2, event ∈ (d.step act).2 ∨ OfCaller c t event := by
  cases act with
  | get => exact ⟨h.get.1, fun event hmem => Or.inl (h.get.2 ▸ hmem)⟩
  | call u => exact ⟨(h.call u).1, fun event hmem => Or.inl ((h.call u).2 ▸ hmem)⟩
  | answer u r =>
    rcases h.answer u r with ⟨hc, hd⟩ | ⟨hc, hd, hsettled, -⟩
    · rw [TimedCache.step, TimedCache.step, hc, hd]
      exact ⟨h, fun _ hmem => by cases hmem⟩
    · rw [TimedCache.step, TimedCache.step, hc, hd]
      exact ⟨hsettled, fun event hmem => Or.inl hmem⟩
  | settle u r => exact h.settle u r
  | finish i => exact h.finish i
  | drop i => exact h.drop i
  | invalidate =>
    refine ⟨{ h with slot := congrArg Slot.invalidate h.slot, gone := ?_ }, fun event hmem => Or.inl hmem⟩
    intro p hp
    obtain ⟨q, hq, rfl⟩ := Option.map_eq_some_iff.mp hp
    exact h.gone q hq
  | pass time => exact ⟨{ h with now := congrArg (· + time) h.now }, fun _ hmem => by cases hmem⟩

end Parted

/-! ### When a result is taken -/

/-- The cache as it is when the result of the fetch was taken. -/
def cleared (c : TimedCache ε α) (t : Nat) (r : Except ε α) : TimedCache ε α :=
  { c with slot := c.slot.conclude t r c.now }

section Cleared

variable {c : TimedCache ε α} {t : Nat} {r : Except ε α}

theorem cleared_parted (hknown : t < c.slot.issued) (hs : stageOf c.flights t = some (.settled r)) :
    Parted t (c.cleared t r) (c.cleared t r) :=
  .refl (by rw [cleared, Slot.conclude_issued]; exact hknown) ⟨r, hs⟩ (Slot.conclude_gone t c.slot r c.now)

/-- The first of those who wait clears the slot, if there is anything to clear. -/
theorem takeFirst_parted (hknown : t < c.slot.issued) (hs : stageOf c.flights t = some (.settled r))
    (hcleared : (∃ i : Nat, c.callers[i]? = some (.waiting t)) ∨
      ∀ p, c.slot.inFlight = some p → p.ticket ≠ t) :
    Parted t (c.takeFirst t).1 (c.cleared t r) ∧ ∀ event ∈ (c.takeFirst t).2, OfCaller c t event := by
  have hbase := cleared_parted hknown hs
  unfold takeFirst
  cases hfirst : c.firstWaiter? t with
  | some i =>
    have hi := (firstWaiter?_eq_some_iff.mp hfirst).1
    dsimp only
    rw [finish_of_settled hi hs]
    refine ⟨hbase.set (.of_waiting hi) (.returned r) nofun, fun event hmem => ?_⟩
    exact ⟨i, hi, Or.inr ⟨r, List.mem_singleton.mp hmem⟩⟩
  | none =>
    have hgone := hcleared.resolve_left fun ⟨i, hi⟩ => by
      obtain ⟨i', hi', -⟩ := exists_firstWaiter hi
      rw [hfirst] at hi'
      cases hi'
    have hslot : c.slot.conclude t r c.now = c.slot := Slot.conclude_of_ne hgone r c.now
    rw [cleared, hslot] at hbase ⊢
    exact ⟨hbase, nofun⟩

end Cleared

/-! ### Runs of both -/

/-- What happens to a caller of the fetch when it takes its result or goes away. -/
def Concerns (past : List (Event ε α)) (ticket : Nat) (event : Event ε α) : Prop :=
  ∃ i, Awaits past i ticket ∧ (event = .dropped i ∨ ∃ r, event = .returned i r)

theorem Concerns.mono {past past' : List (Event ε α)} {t : Nat} {event : Event ε α}
    (h : Concerns past t event) (hsub : past ⊆ past') : Concerns past' t event := by
  obtain ⟨i, hawaits, hevent⟩ := h
  exact ⟨i, hawaits.imp (@hsub _) fun ⟨o, hmem⟩ => ⟨o, hsub hmem⟩, hevent⟩

theorem OfCaller.concerns {c : TimedCache ε α} {past : List (Event ε α)} {t : Nat} {event : Event ε α}
    (h : OfCaller c t event) (hroll : Roll c past) : Concerns past t event := by
  obtain ⟨i, hi, hevent⟩ := h
  exact ⟨i, hroll.waiting i t hi, hevent⟩

theorem Parted.runFrom {c d : TimedCache ε α} {t : Nat} {history : List (Duration × Event ε α)}
    (h : Parted t c d) (hall : Attended c history) (more : List (Act ε α)) :
    Parted t (c.runFrom more).1 (d.runFrom more).1 ∧
      ∀ told ∈ (c.runFrom more).2, told ∈ (d.runFrom more).2 ∨
        Concerns (seen (history ++ (c.runFrom more).2)) t told.2 := by
  induction more generalizing c d history with
  | nil => exact ⟨h, nofun⟩
  | cons act more ih =>
    obtain ⟨hstep, hevents⟩ := h.step act
    obtain ⟨hrun, hlater⟩ := ih hstep (hall.step act)
    rw [runFrom_cons c, runFrom_cons d]
    refine ⟨hrun, ?_⟩
    rintro ⟨time, event⟩ hmem
    dsimp only
    rcases List.mem_append.mp hmem with hmem | hmem
    · obtain ⟨rfl, hnew⟩ := mem_stamped.mp hmem
      refine (hevents event hnew).imp (fun hd => ?_) fun hof => ?_
      · exact List.mem_append_left _ (mem_stamped.mpr ⟨h.now, hd⟩)
      · rw [seen_append]
        exact (hof.concerns hall.kept.roll).mono (List.subset_append_left _ _)
    · refine (hlater _ hmem).imp (List.mem_append_right _) fun hconcerns => ?_
      rwa [List.append_assoc] at hconcerns

/-! ### Runs that differ in the callers of one fetch -/

/-- Two runs end alike, and what is told of one is told of the other, but for what happens to the callers of
the fetch when they take its result or go away. -/
structure Agree (ticket : Nat) (A B : TimedCache ε α × List (Duration × Event ε α)) : Prop where
  slot : A.1.slot = B.1.slot
  flights : A.1.flights = B.1.flights
  now : A.1.now = B.1.now
  told : ∀ told ∈ A.2, told ∈ B.2 ∨ Concerns (seen A.2) ticket told.2
  back : ∀ told ∈ B.2, told ∈ A.2 ∨ Concerns (seen B.2) ticket told.2

theorem Agree.symm {t : Nat} {A B : TimedCache ε α × List (Duration × Event ε α)} (h : Agree t A B) :
    Agree t B A :=
  ⟨h.slot.symm, h.flights.symm, h.now.symm, h.back, h.told⟩

/-- What is told of one of two runs is told of the other. -/
theorem agree_of_parted {a b : TimedCache ε α} {past past' : List (Duration × Event ε α)} {t : Nat}
    {act : Act ε α} (hall : Attended a past) (hparted : Parted t (a.step act).1 (b.step act).1)
    (hnow : a.now = b.now) (hpast : ∀ told ∈ past, told ∈ past' ∨ Concerns (seen past) t told.2)
    (hact : ∀ event ∈ (a.step act).2, event ∈ (b.step act).2 ∨ Concerns (seen past) t event)
    (more : List (Act ε α)) :
    ∀ told ∈ past ++ ((a.step act).2.map (a.now, ·) ++ ((a.step act).1.runFrom more).2),
      told ∈ past' ++ ((b.step act).2.map (b.now, ·) ++ ((b.step act).1.runFrom more).2) ∨
        Concerns (seen (past ++ ((a.step act).2.map (a.now, ·) ++ ((a.step act).1.runFrom more).2))) t
          told.2 := by
  have hmore := (hparted.runFrom (hall.step act) more).2
  rw [List.append_assoc] at hmore
  have widen : ∀ {event}, Concerns (seen past) t event → Concerns (seen (past ++
      ((a.step act).2.map (a.now, ·) ++ ((a.step act).1.runFrom more).2))) t event := by
    intro event hconcerns
    rw [seen_append]
    exact hconcerns.mono (List.subset_append_left _ _)
  rintro ⟨time, event⟩ htold
  rcases List.mem_append.mp htold with htold | htold
  · exact (hpast _ htold).imp (List.mem_append_left _) widen
  · rcases List.mem_append.mp htold with htold | htold
    · obtain ⟨rfl, hnew⟩ := mem_stamped.mp htold
      refine (hact event hnew).imp (fun hb => ?_) widen
      exact List.mem_append_right _ (List.mem_append_left _ (mem_stamped.mpr ⟨hnow, hb⟩))
    · exact (hmore _ htold).imp_left fun hb => List.mem_append_right _ (List.mem_append_right _ hb)

theorem Agree.common {t : Nat} {A B : TimedCache ε α × List (Duration × Event ε α)} (h : Agree t A B)
    {time : Duration} {event : Event ε α} (hmem : (time, event) ∈ A.2)
    (hno : ∀ i, event ≠ .dropped i ∧ ∀ r, event ≠ .returned i r) : (time, event) ∈ B.2 := by
  refine (h.told _ hmem).resolve_right ?_
  rintro ⟨i, -, hgone | ⟨r, hback⟩⟩
  · exact (hno i).1 hgone
  · exact (hno i).2 r hback

theorem awaitsFrom_of_awaits {history : List (Duration × Event ε α)} {i t : Nat}
    (h : Awaits (seen history) i t) : ∃ since, AwaitsFrom history i t since := by
  rcases h with hmem | ⟨o, hmem⟩
  · exact (mem_seen.mp hmem).imp fun _ hmem => Or.inl hmem
  · exact (mem_seen.mp hmem).imp fun _ hmem => Or.inr ⟨o, hmem⟩

/-- In prompt runs in which a fetch settles alike, whoever came alike to wait for it returns alike. -/
theorem Prompt.returned {ttl : Duration} {acts acts' : List (Act ε α)} (hprompt : Prompt ttl acts)
    (hprompt' : Prompt ttl acts') {i t : Nat} {since instant : Duration} {r : Except ε α}
    (hsince : AwaitsFrom (run ttl acts).2 i t since) (hsince' : AwaitsFrom (run ttl acts').2 i t since)
    (hs : (instant, .settled t r) ∈ (run ttl acts).2) (hs' : (instant, .settled t r) ∈ (run ttl acts').2)
    (hstays : .dropped i ∉ seen (run ttl acts').2) {time : Duration} {r' : Except ε α}
    (hr : (time, .returned i r') ∈ (run ttl acts).2) : (time, .returned i r') ∈ (run ttl acts').2 := by
  have hbook := (attended_run ttl acts).book
  have hown : (max since instant, .returned i r) ∈ (run ttl acts).2 := by
    refine (hprompt.returns hsince hs).resolve_left fun hgone => ?_
    have hreturned := hbook.returned i r' (mem_seen.mpr ⟨time, hr⟩)
    rw [hbook.dropped i hgone] at hreturned
    cases hreturned
  obtain ⟨rfl, rfl⟩ := hbook.once i _ _ _ _ hr hown
  exact (hprompt'.returns hsince' hs').resolve_left hstays

/-- In prompt runs with a common past, after which all fetches that were opened in it settle alike, whoever
came in that past returns alike. -/
theorem Prompt.returned_of_began {ttl : Duration} {past acts acts' : List (Act ε α)}
    (hprompt : Prompt ttl acts) (hprompt' : Prompt ttl acts') (hpast : (run ttl past).2 ⊆ (run ttl acts).2)
    (hpast' : (run ttl past).2 ⊆ (run ttl acts').2)
    (hsettles : ∀ t < (run ttl past).1.slot.issued, ∃ instant r,
      (instant, .settled t r) ∈ (run ttl acts).2 ∧ (instant, .settled t r) ∈ (run ttl acts').2)
    {i : Nat} (hbegan : .began i ∈ seen (run ttl past).2) (hstays : .dropped i ∉ seen (run ttl acts').2)
    {time : Duration} {r' : Except ε α} (hr : (time, .returned i r') ∈ (run ttl acts).2) :
    (time, .returned i r') ∈ (run ttl acts').2 := by
  rcases placed_run ttl past i hbegan with ⟨v, -, hback⟩ | ⟨t, hawaits⟩
  · obtain ⟨time', hback⟩ := mem_seen.mp hback
    obtain ⟨rfl, rfl⟩ := (attended_run ttl acts).book.once i _ _ _ _ hr (hpast hback)
    exact hpast' hback
  · obtain ⟨since, hsince⟩ := awaitsFrom_of_awaits hawaits
    obtain ⟨instant, r, hs, hs'⟩ := hsettles t ((attended_run ttl past).kept.roll.known i t hawaits).2
    exact hprompt.returned hprompt' (hsince.imp (@hpast _) fun ⟨o, hmem⟩ => ⟨o, hpast hmem⟩)
      (hsince.imp (@hpast' _) fun ⟨o, hmem⟩ => ⟨o, hpast' hmem⟩) hs hs' hstays hr

/-- In prompt runs the callers of the fetch return alike, too. -/
theorem Agree.returned {ttl : Duration} {acts acts' : List (Act ε α)} {t : Nat}
    (h : Agree t (run ttl acts) (run ttl acts')) (hprompt : Prompt ttl acts)
    (hprompt' : Prompt ttl acts') {r : Except ε α} (hs : .settled t r ∈ seen (run ttl acts).2) {i : Nat}
    (hstays : .dropped i ∉ seen (run ttl acts').2) {time : Duration} {r' : Except ε α}
    (hr : (time, .returned i r') ∈ (run ttl acts).2) : (time, .returned i r') ∈ (run ttl acts').2 := by
  refine (h.told _ hr).elim id ?_
  rintro ⟨j, hawaits, hgone | ⟨r'', hback⟩⟩
  · cases hgone
  · cases hback
    obtain ⟨since, hsince⟩ := awaitsFrom_of_awaits hawaits
    obtain ⟨instant, hs⟩ := mem_seen.mp hs
    have hsince' : AwaitsFrom (run ttl acts').2 i t since :=
      hsince.imp (h.common · (by simp)) fun ⟨o, hmem⟩ => ⟨o, h.common hmem (by simp)⟩
    exact hprompt.returned hprompt' hsince hsince' hs (h.common hs (by simp)) hstays hr

end TimedCache

end IntentLoop.Cache
