import IntentLoop.Proofs.Cache.Parting
/-!
# A caller goes away

A caller that goes away leaves the slot and all fetches as they are. What it takes with it is what it would
have done: it may have been the one to move its fetch, and the one to take its result first.

Another caller that waits for the same fetch, or for a later one, moves the fetch just as well. As long as
the fetch has not settled, the cache `without` the caller therefore does what the full one does
(`step_without`). When the fetch has settled and has left the slot, two caches that differ in the callers of
that fetch only do the same to everybody else (`Parted.step`), and the callers of the fetch have its result
to return with. Together this says that nobody else notices (`Relieved.agree`, `Relieved.returned_iff`).

If nobody is left who waits for the fetch, it stays in the slot, and the next caller goes on with it. It joins
the fetch, or opens one behind it if something was invalidated. The main result is `dropping_is_harmless`.
-/

namespace IntentLoop.Cache.TimedCache

variable {ε α : Type}

/-! ### The cache without a caller -/

/-- A caller waits for a fetch, and another one waits for the same fetch or for a later one. -/
structure Relieved (c : TimedCache ε α) (k t j s : Nat) : Prop where
  ne : j ≠ k
  caller : c.callers[k]? = some (.waiting t)
  other : c.callers[j]? = some (.waiting s)
  behind : t ≤ s

section Without

variable {c : TimedCache ε α} {k t j s : Nat}

theorem getElem?_without_of_ne {i : Nat} (h : i ≠ k) : (c.without k).callers[i]? = c.callers[i]? :=
  List.getElem?_set_ne (Ne.symm h)

theorem getElem?_without_self (h : c.callers[k]? = some (.waiting t)) :
    (c.without k).callers[k]? = some .dropped :=
  List.getElem?_set_self (List.getElem?_eq_some_iff.mp h).1

theorem Relieved.rootOf_eq {history : List (Duration × Event ε α)} (h : Relieved c k t j s)
    (hkept : Kept c history) (hu : ¬Settled c.flights t) : c.rootOf s = c.rootOf t := by
  have known : ∀ {i u : Nat}, c.callers[i]? = some (.waiting u) → u < c.flights.length := by
    intro i u hi
    rw [← hkept.sound.chained.issued]
    exact (hkept.roll.known i u (hkept.roll.waiting i u hi)).2
  obtain ⟨m, hmt, hm⟩ := exists_foremost hu
  rw [hkept.sound.chained.rootOf_eq hm (Nat.le_trans hmt h.behind) (known h.other),
    hkept.sound.chained.rootOf_eq hm hmt (known h.caller)]

theorem Relieved.isDriven_without {history : List (Duration × Event ε α)} (h : Relieved c k t j s)
    (hkept : Kept c history) (hu : ¬Settled c.flights t) (u : Nat) :
    (c.without k).isDriven u = c.isDriven u := by
  rw [Bool.eq_iff_iff, isDriven_iff, isDriven_iff]
  simp only [rootOf_congr (show (c.without k).flights = c.flights from rfl)]
  constructor
  · rintro ⟨i, w, hi, hroot⟩
    refine ⟨i, w, ?_, hroot⟩
    by_cases hik : i = k
    · rw [hik, getElem?_without_self h.caller] at hi
      cases hi
    · rwa [getElem?_without_of_ne hik] at hi
  · rintro ⟨i, w, hi, hroot⟩
    by_cases hik : i = k
    · -- the other one is there to do it
      rw [hik, h.caller] at hi
      cases hi
      refine ⟨j, s, ?_, (h.rootOf_eq hkept hu).trans hroot⟩
      rw [getElem?_without_of_ne h.ne]
      exact h.other
    · exact ⟨i, w, by rwa [getElem?_without_of_ne hik], hroot⟩

theorem get_without (hk : k < c.callers.length) :
    (c.without k).step .get = ((c.step .get).1.without k, (c.step .get).2) := by
  have hserve : (c.without k).slot.serve (c.without k).ttl (c.without k).now =
      c.slot.serve c.ttl c.now := rfl
  have hlength : (c.without k).callers.length = c.callers.length := List.length_set
  show (c.without k).get = (c.get.1.without k, c.get.2)
  unfold get
  rw [hserve, hlength]
  cases c.slot.serve c.ttl c.now with
  | mk service slot => cases service <;> simp [without, List.set_append_left _ _ hk]

theorem call_without (hd : ∀ u, (c.without k).isDriven u = c.isDriven u) (u : Nat) :
    (c.without k).step (.call u) = ((c.step (.call u)).1.without k, (c.step (.call u)).2) := by
  show (c.without k).call u = ((c.call u).1.without k, (c.call u).2)
  unfold call
  rw [hd, show (c.without k).flights = c.flights from rfl]
  split
  · split <;> rfl
  · rfl

theorem answer_without (hd : ∀ u, (c.without k).isDriven u = c.isDriven u) (u : Nat)
    (r : Except ε α) :
    (c.without k).answer u r = ((c.answer u r).1.without k, (c.answer u r).2) := by
  unfold answer
  rw [hd, show (c.without k).flights = c.flights from rfl]
  split
  · split <;> rfl
  · rfl

theorem finish_without {i : Nat} (hik : i ≠ k) :
    (c.without k).finish i = ((c.finish i).1.without k, (c.finish i).2) := by
  unfold finish
  rw [getElem?_without_of_ne hik]
  split
  · rw [result?_congr (show (c.without k).flights = c.flights from rfl)]
    split
    · simp only [without, Prod.mk.injEq, and_true, TimedCache.mk.injEq, true_and]
      exact List.set_comm _ _ (Ne.symm hik)
    · rfl
  · rfl

theorem finish_without_self (hk : c.callers[k]? = some (.waiting t)) (hu : ¬Settled c.flights t) :
    (c.without k).finish k = ((c.finish k).1.without k, (c.finish k).2) := by
  have hnone : c.result? t = none :=
    Option.eq_none_iff_forall_ne_some.mpr fun r hr => hu ⟨r, (c.result?_eq_some_iff t r).mp hr⟩
  have hfull : c.finish k = (c, []) := by
    rw [finish, hk]
    dsimp only
    rw [hnone]
  rw [hfull, finish, getElem?_without_self hk]

theorem drop_without {i : Nat} (hik : i ≠ k) :
    (c.without k).step (.drop i) = ((c.step (.drop i)).1.without k, (c.step (.drop i)).2) := by
  by_cases hw : ∃ u : Nat, c.callers[i]? = some (.waiting u)
  · obtain ⟨u, hw⟩ := hw
    have hw' : (c.without k).callers[i]? = some (.waiting u) := by rwa [getElem?_without_of_ne hik]
    rw [drop_of_waiting hw, drop_of_waiting hw']
    simp only [without, List.set_comm _ _ (Ne.symm hik)]
  · have hw' : ∀ u : Nat, (c.without k).callers[i]? ≠ some (.waiting u) := by
      rw [getElem?_without_of_ne hik]
      exact fun u hi => hw ⟨u, hi⟩
    rw [drop_of_not_waiting hw', drop_of_not_waiting fun u hi => hw ⟨u, hi⟩]

theorem takeFirst_without (hk : c.callers[k]? = some (.waiting t)) {u : Nat} (hut : u ≠ t) :
    (c.without k).takeFirst u = ((c.takeFirst u).1.without k, (c.takeFirst u).2) := by
  have hother : c.callers[k]? ≠ some (.waiting u) := by
    rw [hk]
    rintro ⟨⟩
    exact hut rfl
  have hfirst : (c.without k).firstWaiter? u = c.firstWaiter? u := by
    refine firstWaiter?_congr fun i => ?_
    by_cases hik : i = k
    · rw [hik, getElem?_without_self hk]
      exact iff_of_false nofun hother
    · rw [getElem?_without_of_ne hik]
  unfold takeFirst
  rw [hfirst]
  cases hi : c.firstWaiter? u with
  | none => rfl
  | some i => exact finish_without fun hik => hother (hik ▸ (firstWaiter?_eq_some_iff.mp hi).1)

theorem settle_without (hd : ∀ u, (c.without k).isDriven u = c.isDriven u)
    (hk : c.callers[k]? = some (.waiting t)) {u : Nat} (hut : u ≠ t) (r : Except ε α) :
    (c.without k).step (.settle u r) =
      ((c.step (.settle u r)).1.without k, (c.step (.settle u r)).2) := by
  have hwithout := answer_without hd u r
  rcases answer_moves u r c with ha | ⟨ha, -⟩
  · rw [ha] at hwithout
    rw [settle_of_unanswered ha, settle_of_unanswered hwithout]
  · rw [ha] at hwithout
    have hafter : (c.setStage u (.settled r)).callers[k]? = some (.waiting t) := hk
    rw [settle_of_answered ha, settle_of_answered hwithout, takeFirst_without hafter hut]

end Without

/-! ### Up to the settling of the fetch -/

theorem Sound.settled_mono {c c' : TimedCache ε α} {past events : List (Event ε α)} (h : Sound c past)
    (h' : Sound c' (past ++ events)) {t : Nat} (hs : Settled c.flights t) : Settled c'.flights t := by
  obtain ⟨r, hr⟩ := hs
  exact ⟨r, (h'.logged.settled t r).mp (List.mem_append_left _ ((h.logged.settled t r).mpr hr))⟩

/-- Who waits for a fetch that does not settle, and does not go away, goes on waiting. -/
theorem Sound.waits {c c' : TimedCache ε α} {past events : List (Event ε α)} (h : Sound c past)
    (ms : Moves c c' events) {k t : Nat} (hk : c.callers[k]? = some (.waiting t)) :
    Sound c' (past ++ events) ∧
      (c'.callers[k]? = some (.waiting t) ∨ .dropped k ∈ events ∨ Settled c'.flights t) := by
  induction ms with
  | none =>
    rw [List.append_nil]
    exact ⟨h, Or.inl hk⟩
  | more _ _ last ih =>
    obtain ⟨hmid, hwaits⟩ := ih
    have hafter := hmid.move last
    refine ⟨by rwa [← List.append_assoc], ?_⟩
    rcases hwaits with hwaits | hgone | hs
    · rcases last.waits hwaits with hwaits | hgone | ⟨r, -, hs⟩
      · exact Or.inl hwaits
      · exact Or.inr (Or.inl (List.mem_append_right _ hgone))
      · exact Or.inr (Or.inr (hmid.settled_mono hafter ⟨r, hs⟩))
    · exact Or.inr (Or.inl (List.mem_append_left _ hgone))
    · exact Or.inr (Or.inr (hmid.settled_mono hafter hs))

section Without

variable {c : TimedCache ε α} {history : List (Duration × Event ε α)} {k t j s : Nat}

/-- **Before the fetch settles, every act does the same with the caller and without it.** -/
theorem Relieved.step_without (h : Relieved c k t j s) (hall : Attended c history) {act : Act ε α}
    (hu : ¬Settled (c.step act).1.flights t) (hk : .dropped k ∉ (c.step act).2)
    (hj : .dropped j ∉ (c.step act).2) :
    (c.without k).step act = ((c.step act).1.without k, (c.step act).2) ∧
      Relieved (c.step act).1 k t j s := by
  have hsound := hall.kept.sound
  obtain ⟨hafter, hcaller⟩ := hsound.waits (c.step_moves act) h.caller
  have hother := (hsound.waits (c.step_moves act) h.other).2
  have hbefore : ¬Settled c.flights t := fun hs => hu (hsound.settled_mono hafter hs)
  have hd := h.isDriven_without hall.kept hbefore
  constructor
  · cases act with
    | get => exact get_without (List.getElem?_eq_some_iff.mp h.caller).1
    | call u => exact call_without hd u
    | answer u r => exact answer_without hd u r
    | settle u r =>
      by_cases hut : u = t
      · subst hut
        rcases answer_moves u r c with ha | ⟨ha, -⟩
        · rw [settle_of_unanswered ha]
          exact settle_of_unanswered (by rw [answer_without hd, ha])
        · exact absurd ⟨r, (hafter.logged.settled u r).mp
            (List.mem_append_right _ (settled_of_answered ha))⟩ hu
      · exact settle_without hd h.caller hut r
    | finish i =>
      by_cases hik : i = k
      · rw [hik]
        exact finish_without_self h.caller hbefore
      · exact finish_without hik
    | drop i =>
      refine drop_without ?_
      rintro rfl
      rw [drop_of_waiting h.caller] at hk
      exact hk (List.mem_singleton.mpr rfl)
    | invalidate => rfl
    | pass d => rfl
  · refine ⟨h.ne, ?_, ?_, h.behind⟩
    · exact hcaller.resolve_right (not_or.mpr ⟨hk, hu⟩)
    · exact hother.resolve_right
        (not_or.mpr ⟨hj, fun hs => hu (hafter.chained.settled_of_le hs h.behind)⟩)

/-- The same for a run. -/
theorem Relieved.runFrom_without (h : Relieved c k t j s) (hall : Attended c history)
    {post : List (Act ε α)} (hu : ∀ r, .settled t r ∉ seen (history ++ (c.runFrom post).2))
    (hk : .dropped k ∉ seen (c.runFrom post).2) (hj : .dropped j ∉ seen (c.runFrom post).2) :
    (c.without k).runFrom post = ((c.runFrom post).1.without k, (c.runFrom post).2) ∧
      Relieved (c.runFrom post).1 k t j s := by
  induction post generalizing c history with
  | nil => exact ⟨rfl, h⟩
  | cons act post ih =>
    rw [runFrom_cons c] at hu hk hj ⊢
    rw [← List.append_assoc] at hu
    rw [seen_append, seen_stamped, List.mem_append, not_or] at hk hj
    have hnext := hall.step act
    have hunsettled : ¬Settled (c.step act).1.flights t := hnext.unsettled fun r hr => by
      refine hu r ?_
      rw [seen_append]
      exact List.mem_append_left _ hr
    obtain ⟨hstep, hrelieved⟩ := h.step_without hall hunsettled hk.1 hj.1
    obtain ⟨hrun, hend⟩ := ih hrelieved hnext hu hk.2 hj.2
    refine ⟨?_, hend⟩
    rw [runFrom_cons (c.without k), hstep]
    dsimp only
    rw [hrun]
    rfl

/-! ### When the fetch settles -/

theorem OfCaller.of_without {event : Event ε α} (h : OfCaller (c.without k) t event) :
    OfCaller c t event := by
  obtain ⟨i, hi, hevent⟩ := h
  by_cases hik : i = k
  · rw [hik, without, List.getElem?_set, if_pos rfl] at hi
    split at hi <;> cases hi
  · exact ⟨i, by rwa [getElem?_without_of_ne hik] at hi, hevent⟩

/-- When the fetch settles, and its result is taken there and then or another fetch has the slot, the two
caches differ from then on in the callers of the fetch only. -/
theorem Relieved.parted (h : Relieved c k t j s) (hall : Attended c history) {act : Act ε α}
    {r : Except ε α} (hu : ¬Settled c.flights t) (hs : .settled t r ∈ (c.step act).2)
    (hact : act = .answer t r → t + 1 < c.slot.issued) :
    Parted t ((c.without k).step act).1 (c.step act).1 ∧
      (∀ event ∈ ((c.without k).step act).2, event ∈ (c.step act).2 ∨
        Concerns (seen history) t event) ∧
      ∀ event ∈ (c.step act).2, event ∈ ((c.without k).step act).2 ∨
        Concerns (seen history) t event := by
  obtain ⟨hwhich, -, ha⟩ := step_of_settled hs
  have hroll := hall.kept.roll
  have hwithout : (c.without k).answer t r =
      ((c.setStage t (.settled r)).without k, [.settled t r]) := by
    rw [answer_without (h.isDriven_without hall.kept hu), ha]
  have hknown : t < c.slot.issued := (hroll.known k t (hroll.waiting k t h.caller)).2
  have hstage : stageOf (c.setStage t (.settled r)).flights t = some (.settled r) := by
    rw [stageOf_setStage (hall.kept.sound.chained.issued ▸ hknown), if_pos rfl]
  rcases hwhich with rfl | rfl
  · rw [step, step, ha, hwithout]
    have hbase : Parted t (c.setStage t (.settled r)) (c.setStage t (.settled r)) :=
      .refl hknown ⟨r, hstage⟩ (hall.kept.sound.chained.gone (hact rfl))
    exact ⟨hbase.set (.of_waiting h.caller) .dropped (fun _ hk => by cases hk), fun event hmem => Or.inl hmem,
      fun event hmem => Or.inl hmem⟩
  · rw [settle_of_answered ha, settle_of_answered hwithout]
    -- the other caller takes the result if it waits for it, or the fetch has left the slot
    have hother : (∃ i : Nat, ((c.setStage t (.settled r)).without k).callers[i]? = some (.waiting t)) ∨
        ∀ p, c.slot.inFlight = some p → p.ticket ≠ t := by
      rcases Nat.lt_or_eq_of_le h.behind with hts | rfl
      · have hlater := (hroll.known j s (hroll.waiting j s h.other)).2
        exact Or.inr (hall.kept.sound.chained.gone (Nat.lt_of_le_of_lt hts hlater))
      · refine Or.inl ⟨j, ?_⟩
        rw [getElem?_without_of_ne h.ne]
        exact h.other
    obtain ⟨hwith, htold⟩ := takeFirst_parted (c := c.setStage t (.settled r)) hknown hstage
      (Or.inl ⟨k, h.caller⟩)
    obtain ⟨hleft, htold'⟩ := takeFirst_parted (c := (c.setStage t (.settled r)).without k) hknown hstage
      hother
    have hcleared := (cleared_parted (c := c.setStage t (.settled r)) hknown hstage).set
      (.of_waiting h.caller) .dropped (fun _ hk => by cases hk)
    have concerns : ∀ {told others : List (Event ε α)}, (∀ event ∈ told, OfCaller c t event) →
        ∀ event ∈ .settled t r :: told,
          event ∈ .settled t r :: others ∨ Concerns (seen history) t event := by
      intro told others hof event hmem
      refine (List.mem_cons.mp hmem).imp (fun heq => ?_) fun hmem => (hof event hmem).concerns hroll
      exact heq ▸ List.mem_cons_self
    exact ⟨(hleft.trans hcleared).trans hwith.symm,
      concerns fun event hmem => (htold' event hmem).of_without, concerns htold⟩

theorem Relieved.step_settles_iff (h : Relieved c k t j s) (hall : Attended c history)
    (hu : ¬Settled c.flights t) (act : Act ε α) (r : Except ε α) :
    .settled t r ∈ ((c.without k).step act).2 ↔ .settled t r ∈ (c.step act).2 := by
  have hanswer := answer_without (h.isDriven_without hall.kept hu) t r
  have settles : ∀ {c d : TimedCache ε α}, c.answer t r = (d, [.settled t r]) →
      act = .answer t r ∨ act = .settle t r → .settled t r ∈ (c.step act).2 := by
    rintro c d ha (rfl | rfl)
    · show _ ∈ (c.answer t r).2
      rw [ha]
      exact List.mem_singleton.mpr rfl
    · exact settled_of_answered ha
  constructor
  · intro hs
    obtain ⟨hact, -, ha⟩ := step_of_settled hs
    rw [hanswer] at ha
    exact settles (Prod.ext rfl (Prod.mk.inj ha).2) hact
  · intro hs
    obtain ⟨hact, -, ha⟩ := step_of_settled hs
    exact settles (hanswer.trans (by rw [ha])) hact

end Without

/-! ### Two runs -/

section Runs

variable {ttl : Duration} {pre post : List (Act ε α)} {k t j s : Nat}
  (h : Relieved (run ttl pre).1 k t j s)
  (hu : ∀ r, .settled t r ∉ seen (run ttl (pre ++ post)).2)
  (hk : .dropped k ∉ seen ((run ttl pre).1.runFrom post).2)
  (hj : .dropped j ∉ seen ((run ttl pre).1.runFrom post).2)

include h hu hk hj

/-- Up to the settling of the fetch, the same is told of the run with the caller and of the one without. -/
theorem Relieved.run_without :
    run ttl (pre ++ .drop k :: post) = ((run ttl (pre ++ post)).1.without k,
      (run ttl pre).2 ++ ((run ttl pre).1.now, .dropped k) :: ((run ttl pre).1.runFrom post).2) ∧
    Relieved (run ttl (pre ++ post)).1 k t j s := by
  have hrun : run ttl (pre ++ post) = (((run ttl pre).1.runFrom post).1,
    (run ttl pre).2 ++ ((run ttl pre).1.runFrom post).2) := runFrom_append _ pre post
  rw [hrun] at hu
  obtain ⟨hwithout, hend⟩ := h.runFrom_without (attended_run ttl pre) hu hk hj
  rw [run_split, drop_of_waiting h.caller, hrun]
  dsimp only
  rw [hwithout]
  exact ⟨rfl, hend⟩

theorem Relieved.mem_told {told : Duration × Event ε α} :
    told ∈ (run ttl (pre ++ .drop k :: post)).2 ↔
      told ∈ (run ttl (pre ++ post)).2 ∨ told = ((run ttl pre).1.now, .dropped k) := by
  have hrun : run ttl (pre ++ post) = (((run ttl pre).1.runFrom post).1,
    (run ttl pre).2 ++ ((run ttl pre).1.runFrom post).2) := runFrom_append _ pre post
  rw [(h.run_without hu hk hj).1, hrun, List.mem_append, List.mem_append, List.mem_cons, or_assoc,
    @or_comm (told = _)]

theorem Relieved.settles_iff (act : Act ε α) (r : Except ε α) :
    .settled t r ∈ ((run ttl (pre ++ .drop k :: post)).1.step act).2 ↔
      .settled t r ∈ ((run ttl (pre ++ post)).1.step act).2 := by
  obtain ⟨hwithout, hend⟩ := h.run_without hu hk hj
  have hall := attended_run ttl (pre ++ post)
  rw [hwithout]
  exact hend.step_settles_iff hall (hall.unsettled hu) act r

/-- **Nobody else notices.** -/
theorem Relieved.agree {act : Act ε α} {r : Except ε α}
    (hs : .settled t r ∈ ((run ttl (pre ++ post)).1.step act).2)
    (hact : act = .answer t r → t + 1 < (run ttl (pre ++ post)).1.slot.issued) (more : List (Act ε α)) :
    Agree t (run ttl (pre ++ .drop k :: post ++ act :: more)) (run ttl (pre ++ post ++ act :: more)) := by
  obtain ⟨hwithout, hend⟩ := h.run_without hu hk hj
  have hawaits := (attended_run ttl pre).kept.roll.waiting k t h.caller
  have hall := attended_run ttl (pre ++ post)
  have hallA := attended_run ttl (pre ++ .drop k :: post)
  have hpast : ∀ told ∈ (run ttl (pre ++ .drop k :: post)).2, told ∈ (run ttl (pre ++ post)).2 ∨
      Concerns (seen (run ttl (pre ++ .drop k :: post)).2) t told.2 := by
    intro told htold
    refine ((h.mem_told hu hk hj).mp htold).imp_right ?_
    rintro rfl
    refine ⟨k, ?_, Or.inl rfl⟩
    rw [run_split, seen_append]
    exact hawaits.append _
  have hback : (run ttl (pre ++ post)).2 ⊆ (run ttl (pre ++ .drop k :: post)).2 := fun told htold =>
    (h.mem_told hu hk hj).mpr (Or.inl htold)
  obtain ⟨hparted, htold, htold'⟩ := hend.parted hall (hall.unsettled hu) hs hact
  have hstate : (run ttl (pre ++ .drop k :: post)).1 = (run ttl (pre ++ post)).1.without k :=
    congrArg Prod.fst hwithout
  rw [← hstate] at hparted htold htold'
  have hnow : (run ttl (pre ++ .drop k :: post)).1.now = (run ttl (pre ++ post)).1.now := by rw [hstate]; rfl
  have hforthMore := agree_of_parted hallA hparted hnow hpast
    (fun event hevent => (htold event hevent).imp_right (·.mono (List.map_subset _ hback))) more
  have hbackMore := agree_of_parted hall hparted.symm hnow.symm
    (fun told htold => Or.inl (hback htold)) htold' more
  have hlast := (hparted.runFrom (hallA.step act) more).1
  rw [run_split ttl (pre ++ .drop k :: post), run_split ttl (pre ++ post)]
  exact ⟨hlast.slot, hlast.flights, hlast.now, hforthMore, hbackMore⟩

/-- All fetches up to the one that settles now have settled alike. -/
theorem Relieved.settled_alike {act : Act ε α} {r : Except ε α}
    (hs : .settled t r ∈ ((run ttl (pre ++ post)).1.step act).2) (more : List (Act ε α)) {u : Nat}
    (hut : u ≤ t) : ∃ instant r',
      (instant, .settled u r') ∈ (run ttl (pre ++ .drop k :: post ++ act :: more)).2 ∧
        (instant, .settled u r') ∈ (run ttl (pre ++ post ++ act :: more)).2 := by
  have hnow : (run ttl (pre ++ .drop k :: post)).1.now = (run ttl (pre ++ post)).1.now := by
    rw [(h.run_without hu hk hj).1]
    rfl
  rw [run_split ttl (pre ++ .drop k :: post), run_split ttl (pre ++ post), hnow]
  rcases Nat.lt_or_eq_of_le hut with hut | rfl
  · have hsound := (attended_run ttl (pre ++ post)).kept.sound
    obtain ⟨r', hr'⟩ := hsound.chained.begun t _ (step_of_settled hs).2.1 nofun u hut
    obtain ⟨instant, htold⟩ := mem_seen.mp ((hsound.logged.settled u r').mpr hr')
    exact ⟨instant, r', List.mem_append_left _ ((h.mem_told hu hk hj).mpr (Or.inl htold)),
      List.mem_append_left _ htold⟩
  · have now : ∀ {events more : List _} {past}, .settled u r ∈ events →
        ((run ttl (pre ++ post)).1.now, Event.settled u r) ∈
          past ++ (events.map ((run ttl (pre ++ post)).1.now, ·) ++ more) := fun hmem =>
      List.mem_append_right _ (List.mem_append_left _ (mem_stamped.mpr ⟨rfl, hmem⟩))
    exact ⟨_, r, now ((h.settles_iff hu hk hj act r).mpr hs), now hs⟩

/-- **In prompt runs everybody else returns alike.** -/
theorem Relieved.returned_iff {act : Act ε α} {r : Except ε α}
    (hs : .settled t r ∈ ((run ttl (pre ++ post)).1.step act).2) (more : List (Act ε α))
    (hprompt : Prompt ttl (pre ++ .drop k :: post ++ act :: more))
    (hprompt' : Prompt ttl (pre ++ post ++ act :: more)) {i : Nat}
    (hstays : .dropped i ∉ seen (run ttl (pre ++ .drop k :: post ++ act :: more)).2)
    (hstays' : .dropped i ∉ seen (run ttl (pre ++ post ++ act :: more)).2)
    (hwhen : .began i ∈ seen (run ttl (pre ++ post)).2 ∨
      (act = .answer t r → t + 1 < (run ttl (pre ++ post)).1.slot.issued))
    {time : Duration} {r' : Except ε α} :
    (time, .returned i r') ∈ (run ttl (pre ++ .drop k :: post ++ act :: more)).2 ↔
      (time, .returned i r') ∈ (run ttl (pre ++ post ++ act :: more)).2 := by
  by_cases hact : act = .answer t r → t + 1 < (run ttl (pre ++ post)).1.slot.issued
  · have hagree := h.agree hu hk hj hs hact more
    obtain ⟨instant, r'', hsettled, hsettled'⟩ := h.settled_alike hu hk hj hs more (Nat.le_refl t)
    exact ⟨hagree.returned hprompt hprompt' (mem_seen.mpr ⟨instant, hsettled⟩) hstays',
      hagree.symm.returned hprompt' hprompt (mem_seen.mpr ⟨instant, hsettled'⟩) hstays⟩
  · -- the fetch is the newest one, so that all that were opened have settled
    have hbegan := hwhen.resolve_right hact
    have hsettles : ∀ u < (run ttl (pre ++ post)).1.slot.issued, u ≤ t := fun u hut =>
      Nat.le_of_lt_succ (Nat.lt_of_lt_of_le hut (Nat.not_lt.mp fun hlt => hact fun _ => hlt))
    have hpast : (run ttl (pre ++ post)).2 ⊆ (run ttl (pre ++ .drop k :: post ++ act :: more)).2 := by
      rw [run_split]
      exact fun told htold => List.mem_append_left _ ((h.mem_told hu hk hj).mpr (Or.inl htold))
    have hpast' : (run ttl (pre ++ post)).2 ⊆ (run ttl (pre ++ post ++ act :: more)).2 := by
      rw [run_split]
      exact List.subset_append_left _ _
    constructor
    · exact hprompt.returned_of_began hprompt' hpast hpast'
        (fun u hut => h.settled_alike hu hk hj hs more (hsettles u hut)) hbegan hstays'
    · refine hprompt'.returned_of_began hprompt hpast' hpast (fun u hut => ?_) hbegan hstays
      obtain ⟨instant, r'', hsettled, hsettled'⟩ := h.settled_alike hu hk hj hs more (hsettles u hut)
      exact ⟨instant, r'', hsettled', hsettled⟩

end Runs

/-! ### When nobody is left -/

/-- The caller can get on by moving the fetch. -/
def Proceeds (c : TimedCache ε α) (k u : Nat) : Prop :=
  (c.need k = .call u ∧ (c.step (.call u)).2 = [.called u]) ∨
    (c.need k = .answer u ∧ ∀ r, (c.step (.answer u r)).2 = [.settled u r])

namespace Attended

variable {c : TimedCache ε α} {history : List (Duration × Event ε α)} {k t s : Nat}

theorem waits (h : Attended c history) (hawaits : Awaits (seen history) k t)
    (hstays : .dropped k ∉ seen history) (hu : ¬Settled c.flights t) :
    c.callers[k]? = some (.waiting t) := by
  rcases h.book.awaiting k t hawaits with hk | hgone | ⟨r, -, hs⟩
  · exact hk
  · exact absurd hgone hstays
  · exact absurd ⟨r, (h.kept.sound.logged.settled t r).mp hs⟩ hu

/-- Whoever waits for a fetch, or for a later one, brings it to its end. -/
theorem proceeds (h : Attended c history) (hawaits : Awaits (seen history) k s)
    (hstays : .dropped k ∉ seen history) (hts : t ≤ s) (hu : ∀ r, .settled t r ∉ seen history) :
    ∃ u ≤ t, Proceeds c k u := by
  have hunsettled := h.unsettled hu
  have hk := h.waits hawaits hstays fun hs =>
    hunsettled (h.kept.sound.chained.settled_of_le hs hts)
  obtain ⟨m, hmt, hm⟩ := exists_foremost hunsettled
  refine ⟨m, hmt, ?_⟩
  rcases h.kept.need_of_waiting hk hm (Nat.le_trans hmt hts) with ⟨-, hneed, hstep⟩ | ⟨-, hneed, hstep⟩
  · exact Or.inl ⟨hneed, hstep⟩
  · exact Or.inr ⟨hneed, hstep⟩

/-- When the fetch before its own has settled, a caller calls the refresh of its own. -/
theorem calls_own (h : Attended c history) (hawaits : Awaits (seen history) k (t + 1))
    (hstays : .dropped k ∉ seen history) {r : Except ε α} (hs : .settled t r ∈ seen history)
    (hu : .called (t + 1) ∉ seen history) :
    c.need k = .call (t + 1) ∧ (c.step (.call (t + 1))).2 = [.called (t + 1)] := by
  have hcalled : ∀ stage, stageOf c.flights (t + 1) = some stage → stage = .held := fun stage hstage =>
    Classical.not_not.mp fun hne => hu ((h.kept.sound.logged.called (t + 1)).mpr ⟨stage, hstage, hne⟩)
  have hforemost : Foremost c.flights (t + 1) := by
    constructor
    · intro u hut
      exact h.kept.sound.chained.settled_of_le
        ⟨r, (h.kept.sound.logged.settled t r).mp hs⟩ (Nat.le_of_lt_succ hut)
    · rintro ⟨r', hr'⟩
      cases hcalled _ hr'
  have hk := h.waits hawaits hstays hforemost.unsettled
  rcases h.kept.need_of_waiting hk hforemost (Nat.le_refl _) with ⟨-, hneed, hstep⟩ | ⟨hrunning, -⟩
  · exact ⟨hneed, hstep⟩
  · cases hcalled _ hrunning

theorem untaken_of_dropped (h : Attended c history)
    (hgone : ∀ i, Awaits (seen history) i t → .dropped i ∈ seen history) :
    Untaken (seen history) t := by
  intro i r hawaits hr
  have hreturned := h.book.returned i r hr
  rw [h.book.dropped i (hgone i hawaits)] at hreturned
  cases hreturned

/-- The next caller opens a fetch behind the newest one if that was overtaken and nobody has taken its
result. -/
theorem get_of_overtaken (h : Attended c history) (hlast : t + 1 = c.slot.issued)
    (hu : Untaken (seen history) t) (hover : ¬Latest (seen history) t) :
    (c.step .get).2 = [.began c.callers.length, .opened c.callers.length (t + 1) (some t)] := by
  obtain ⟨stale, hflight, hmark⟩ := h.holder hlast hu
  have hstale : stale = true := Bool.of_not_eq_false fun hfalse => hover (hmark.mp hfalse)
  have hpeek : c.peek = none := by
    cases h.kept.shelf with
    | bare _ hentry => exact peek_eq_none_of_entry hentry _ _
    | pending _ _ _ _ hpeek => exact hpeek
    | taken _ _ _ _ _ _ hf =>
      rw [hflight] at hf
      cases hf
  rw [get_of_stale hpeek (fun p hp => by rw [hflight] at hp; cases hp; exact hstale), hflight, hlast]
  rfl

end Attended

theorem seen_run_get {ttl : Duration} {acts more : List (Act ε α)} {event : Event ε α}
    (h : event ∈ ((run ttl acts).1.step .get).2) : event ∈ seen (run ttl (acts ++ .get :: more)).2 := by
  rw [run_split, seen_append, seen_append, seen_stamped]
  exact List.mem_append_right _ (List.mem_append_left _ h)

/-- **A caller that goes away does no harm.** After any acts on a cache, with any time to live:

* Whoever goes away leaves the slot, all fetches and the clock as they are.
* When a caller goes away and another one waits for the same fetch, or for a later one, and does not go away
  before that fetch settles, then until that fetch settles everything else happens as if the caller had
  stayed: the same acts have the same effects and the same is told of them, at the same instants. The fetch
  settles at the same act. In prompt runs all others who came before that return with the same results, at
  the same instants. If whoever moved the fetch to its end took the result there and then, or another fetch
  was opened behind it, the slot and all fetches are the same from then on, too, the same is told of everybody
  but the callers of that fetch, and those who come later return alike as well.
* When all callers of a fetch have gone away that was not overtaken, the next one to come joins it and can
  bring it to its end. The refresh of the fetch is called once at most, and its result is what the new caller
  returns with.
* When the fetch was overtaken in the meantime, the next one to come opens a fetch behind it. As long as the
  overtaken fetch has not settled, the new caller can bring that one to its end; when it has, the new caller
  can call the refresh of its own fetch. This is not done before and not twice. -/
theorem dropping_is_harmless (ttl : Duration) (acts : List (Act ε α)) :
    (∀ k, ((run ttl acts).1.step (.drop k)).1.slot = (run ttl acts).1.slot ∧
      ((run ttl acts).1.step (.drop k)).1.flights = (run ttl acts).1.flights ∧
      ((run ttl acts).1.step (.drop k)).1.now = (run ttl acts).1.now) ∧
    (∀ post k t j s, Relieved (run ttl acts).1 k t j s →
      .dropped k ∉ seen ((run ttl acts).1.runFrom post).2 →
      .dropped j ∉ seen ((run ttl acts).1.runFrom post).2 →
      (∀ r, .settled t r ∉ seen (run ttl (acts ++ post)).2) →
      run ttl (acts ++ .drop k :: post) = ((run ttl (acts ++ post)).1.without k, (run ttl acts).2 ++
        ((run ttl acts).1.now, .dropped k) :: ((run ttl acts).1.runFrom post).2) ∧
      (∀ act r, .settled t r ∈ ((run ttl (acts ++ .drop k :: post)).1.step act).2 ↔
        .settled t r ∈ ((run ttl (acts ++ post)).1.step act).2) ∧
      ∀ act r more, .settled t r ∈ ((run ttl (acts ++ post)).1.step act).2 →
        ((act = .answer t r → t + 1 < (run ttl (acts ++ post)).1.slot.issued) →
          Agree t (run ttl (acts ++ .drop k :: post ++ act :: more))
            (run ttl (acts ++ post ++ act :: more))) ∧
        (Prompt ttl (acts ++ .drop k :: post ++ act :: more) → Prompt ttl (acts ++ post ++ act :: more) →
          ∀ i, .dropped i ∉ seen (run ttl (acts ++ .drop k :: post ++ act :: more)).2 →
            .dropped i ∉ seen (run ttl (acts ++ post ++ act :: more)).2 →
            .began i ∈ seen (run ttl (acts ++ post)).2 ∨
              (act = .answer t r → t + 1 < (run ttl (acts ++ post)).1.slot.issued) →
            ∀ time r', (time, .returned i r') ∈ (run ttl (acts ++ .drop k :: post ++ act :: more)).2 ↔
              (time, .returned i r') ∈ (run ttl (acts ++ post ++ act :: more)).2)) ∧
    (∀ t, Latest (seen (run ttl acts).2) t →
      (∀ i, Awaits (seen (run ttl acts).2) i t → .dropped i ∈ seen (run ttl acts).2) →
      ((run ttl acts).1.step .get).2 = [.began (run ttl acts).1.callers.length,
        .joined (run ttl acts).1.callers.length t] ∧
      ∀ more,
        (.dropped (run ttl acts).1.callers.length ∉ seen (run ttl (acts ++ .get :: more)).2 →
          (∀ r, .settled t r ∉ seen (run ttl (acts ++ .get :: more)).2) →
          ∃ u ≤ t, Proceeds (run ttl (acts ++ .get :: more)).1 (run ttl acts).1.callers.length u) ∧
        (calls (seen (run ttl (acts ++ .get :: more)).2)).count t ≤ 1 ∧
        ∀ r, .returned (run ttl acts).1.callers.length r ∈ seen (run ttl (acts ++ .get :: more)).2 →
          .settled t r ∈ seen (run ttl (acts ++ .get :: more)).2) ∧
    ∀ t, t + 1 = (run ttl acts).1.slot.issued → ¬Latest (seen (run ttl acts).2) t →
      (∀ i, Awaits (seen (run ttl acts).2) i t → .dropped i ∈ seen (run ttl acts).2) →
      ((run ttl acts).1.step .get).2 = [.began (run ttl acts).1.callers.length,
        .opened (run ttl acts).1.callers.length (t + 1) (some t)] ∧
      ∀ more,
        (.dropped (run ttl acts).1.callers.length ∉ seen (run ttl (acts ++ .get :: more)).2 →
          ((∀ r, .settled t r ∉ seen (run ttl (acts ++ .get :: more)).2) →
            ∃ u ≤ t, Proceeds (run ttl (acts ++ .get :: more)).1 (run ttl acts).1.callers.length u) ∧
          ∀ r, .settled t r ∈ seen (run ttl (acts ++ .get :: more)).2 →
            .called (t + 1) ∉ seen (run ttl (acts ++ .get :: more)).2 →
            (run ttl (acts ++ .get :: more)).1.need (run ttl acts).1.callers.length = .call (t + 1) ∧
            ((run ttl (acts ++ .get :: more)).1.step (.call (t + 1))).2 = [.called (t + 1)]) ∧
        (∀ before, before ++ [.called (t + 1)] <+: seen (run ttl (acts ++ .get :: more)).2 →
          ∃ r, .settled t r ∈ before) ∧
        ∀ u, (calls (seen (run ttl (acts ++ .get :: more)).2)).count u ≤ 1 := by
  have h := attended_run ttl acts
  refine ⟨fun k => ?_, ?_, ?_, ?_⟩
  · by_cases hk : ∃ t : Nat, (run ttl acts).1.callers[k]? = some (.waiting t)
    · obtain ⟨t, hk⟩ := hk
      rw [drop_of_waiting hk]
      exact ⟨rfl, rfl, rfl⟩
    · rw [drop_of_not_waiting fun t ht => hk ⟨t, ht⟩]
      exact ⟨rfl, rfl, rfl⟩
  · intro post k t j s h hk hj hu
    exact ⟨(h.run_without hu hk hj).1, h.settles_iff hu hk hj, fun act r more hs =>
      ⟨fun hact => h.agree hu hk hj hs hact more, fun hprompt hprompt' i hstays hstays' hwhen time r' =>
        h.returned_iff hu hk hj hs more hprompt hprompt' hstays hstays' hwhen⟩⟩
  · intro t hlatest hgone
    obtain ⟨hpeek, hflight⟩ := h.kept.shelf.joinable_iff.mp ⟨hlatest, h.untaken_of_dropped hgone⟩
    have hget : ((run ttl acts).1.step .get).2 = [.began (run ttl acts).1.callers.length,
        .joined (run ttl acts).1.callers.length t] := by rw [get_of_joinable hpeek hflight]
    refine ⟨hget, fun more => ?_⟩
    have hend := attended_run ttl (acts ++ .get :: more)
    have hawaits : Awaits (seen (run ttl (acts ++ .get :: more)).2) (run ttl acts).1.callers.length t :=
      Or.inl (seen_run_get (by rw [hget]; simp))
    exact ⟨fun hstays hu => hend.proceeds hawaits hstays (Nat.le_refl t) hu,
      hend.kept.sound.inTurn.count_le_one t, fun r => hend.settled_of_returned hawaits⟩
  · intro t hlast hover hgone
    have hget := h.get_of_overtaken hlast (h.untaken_of_dropped hgone) hover
    refine ⟨hget, fun more => ?_⟩
    have hend := attended_run ttl (acts ++ .get :: more)
    have hawaits : Awaits (seen (run ttl (acts ++ .get :: more)).2) (run ttl acts).1.callers.length
        (t + 1) := Or.inr ⟨some t, seen_run_get (by rw [hget]; simp)⟩
    refine ⟨fun hstays => ⟨fun hu => hend.proceeds hawaits hstays (Nat.le_succ t) hu,
      fun r hs hu => hend.calls_own hawaits hstays hs hu⟩, fun before hpre => ?_,
      hend.kept.sound.inTurn.count_le_one⟩
    exact hend.kept.sound.inTurn.settled before (t + 1) hpre t (Nat.lt_succ_self t)

/-- One of two callers goes away, and the other one returns when it would have done so anyway. A caller that
is left alone and goes away leaves its fetch to the next one, who joins it, or waits for it first. -/
theorem fetch_outlives_caller :
    (2, .returned 1 (.ok 7)) ∈ (run 5 ([.get, .get, .call 0] ++ .drop 0 :: [.pass 2] ++
      .settle 0 (.ok 7) :: [.finish 1] : List (Act Unit Nat))).2 ∧
    ((run 5 ([.get, .call 0, .drop 0] : List (Act Unit Nat))).1.step .get).2 =
      [.began 1, .joined 1 0] ∧
    ((run 5 ([.get, .call 0, .drop 0, .invalidate] : List (Act Unit Nat))).1.step .get).2 =
      [.began 1, .opened 1 1 (some 0)] := by
  obtain ⟨-, hunharmed, -, -⟩ := dropping_is_harmless 5 ([.get, .get, .call 0] : List (Act Unit Nat))
  obtain ⟨-, -, hjoins, -⟩ := dropping_is_harmless 5 ([.get, .call 0, .drop 0] : List (Act Unit Nat))
  obtain ⟨-, -, -, hopens⟩ := dropping_is_harmless 5
    ([.get, .call 0, .drop 0, .invalidate] : List (Act Unit Nat))
  refine ⟨?_, ?_, ?_⟩
  · have hunsettled : ∀ r, .settled 0 r ∉
        seen (run 5 ([.get, .get, .call 0] ++ [.pass 2] : List (Act Unit Nat))).2 := by
      show ∀ r, .settled 0 r ∉ ([.began 0, .opened 0 0 none, .began 1, .joined 1 0, .called 0] :
        List (Event Unit Nat))
      simp
    obtain ⟨-, -, hafter⟩ := hunharmed [.pass 2] 0 0 1 0
      ⟨by decide, by decide, by decide, Nat.le_refl 0⟩ (by decide) (by decide) hunsettled
    obtain ⟨-, hreturns⟩ := hafter (.settle 0 (.ok 7)) (.ok 7) [.finish 1] (by decide)
    exact (hreturns (by decide) (by decide) 1 (by decide) (by decide) (Or.inl (by decide)) 2
      (.ok 7)).mpr (by decide)
  · refine (hjoins 0 ⟨[.began 0], 0, none, _, rfl, by decide⟩ ?_).1
    show ∀ i, Awaits ([.began 0, .opened 0 0 none, .called 0, .dropped 0] : List (Event Unit Nat)) i 0 →
      .dropped i ∈ ([.began 0, .opened 0 0 none, .called 0, .dropped 0] : List (Event Unit Nat))
    simp [Awaits]
  · refine (hopens 0 rfl (Latest.not_invalidated [.began 0, .opened 0 0 none, .called 0, .dropped 0] 0)
      ?_).1
    show ∀ i, Awaits ([.began 0, .opened 0 0 none, .called 0, .dropped 0, .invalidated] :
        List (Event Unit Nat)) i 0 →
      .dropped i ∈ ([.began 0, .opened 0 0 none, .called 0, .dropped 0, .invalidated] :
        List (Event Unit Nat))
    simp [Awaits]

end IntentLoop.Cache.TimedCache
