import IntentLoop.Proofs.Cache.Callers
import IntentLoop.Proofs.Cache.Needs
/-!
# Callers share fetches

A caller that finds no fresh value joins the fetch that was opened last, if nothing was invalidated since
and nobody has taken its result (`Joinable`), and opens one otherwise. As long as a fetch can be joined, all
who come join it and no other one is opened (`Gathering`), so that no refresh is called for them.

All callers of a fetch run the same code when they take its result, each on the slot as it finds it. Only the
first one finds the fetch there, and only if no other one was opened since (`slot_of_returned`): the others
leave the slot alone. The main result is `callers_share_fetches`.
-/

namespace IntentLoop.Cache

/-- Nothing is stored but the value of a fetch that is under way and is not stale. -/
theorem Slot.conclude_entry_eq {ε α : Type} {ticket : Nat} {s : Slot α} {result : Except ε α}
    (h : s.inFlight = some { ticket, stale := false } → ∀ value, result ≠ .ok value) (now : Duration) :
    (s.conclude ticket result now).entry = s.entry := by
  by_cases hp : ∃ p, s.inFlight = some p ∧ p.ticket = ticket
  · obtain ⟨⟨t, stale⟩, hp, rfl⟩ := hp
    rw [conclude, hp]
    cases result with
    | error error => simp
    | ok value =>
      cases stale with
      | true => simp
      | false => exact absurd rfl (h hp value)
  · rw [conclude_of_ne (fun p h1 h2 => hp ⟨p, h1, h2⟩)]

theorem Slot.joined_or_stale {α : Type} (s : Slot α) :
    (∃ ticket, s.inFlight = some { ticket, stale := false }) ∨
      ∀ p, s.inFlight = some p → p.stale = true := by
  by_cases hp : ∃ ticket, s.inFlight = some { ticket, stale := false }
  · exact Or.inl hp
  · refine Or.inr ?_
    rintro ⟨ticket, stale⟩ hflight
    cases stale with
    | true => rfl
    | false => exact absurd ⟨ticket, hflight⟩ hp

namespace TimedCache

variable {ε α : Type}

/-- The fetch was not overtaken, and nobody has taken its result. -/
def Joinable (past : List (Event ε α)) (ticket : Nat) : Prop := Latest past ticket ∧ Untaken past ticket

/-- What a waiter needs can be done. -/
theorem Kept.need_of_waiting {c : TimedCache ε α} {history : List (Duration × Event ε α)}
    (h : Kept c history) {k s m : Nat} (hk : c.callers[k]? = some (.waiting s))
    (hm : Foremost c.flights m) (hms : m ≤ s) :
    (stageOf c.flights m = some .held ∧ c.need k = .call m ∧ (c.step (.call m)).2 = [.called m]) ∨
      (stageOf c.flights m = some .running ∧ c.need k = .answer m ∧
        ∀ r, (c.step (.answer m r)).2 = [.settled m r]) := by
  have hs := (h.roll.known k s (h.roll.waiting k s hk)).2
  rw [h.sound.chained.issued] at hs
  exact h.sound.chained.need_of_waiting hk hs hm hms

/-! ### A new caller -/

section Get

variable {c : TimedCache ε α}

theorem get_of_fresh {value : α} (hpeek : c.peek = some value) :
    c.step .get = ({ c with callers := c.callers ++ [.returned (.ok value)] },
      [.began c.callers.length, .served c.callers.length value,
        .returned c.callers.length (.ok value)]) := by
  have hsome : c.slot.peek c.ttl c.now = some value := hpeek
  show c.get = _
  unfold get Slot.serve
  rw [hsome]

theorem get_of_joinable {t : Nat} (hpeek : c.peek = none)
    (hp : c.slot.inFlight = some { ticket := t, stale := false }) :
    c.step .get = ({ c with callers := c.callers ++ [.waiting t] },
      [.began c.callers.length, .joined c.callers.length t]) := by
  have hnone : c.slot.peek c.ttl c.now = none := hpeek
  show c.get = _
  unfold get Slot.serve
  rw [hnone, hp]

theorem get_of_stale (hpeek : c.peek = none) (hp : ∀ p, c.slot.inFlight = some p → p.stale = true) :
    c.step .get =
      ({ c with
          slot := { c.slot with
            inFlight := some { ticket := c.slot.issued, stale := false }
            issued := c.slot.issued + 1 }
          callers := c.callers ++ [.waiting c.slot.issued]
          flights := c.flights ++
            [{ overtaken := c.slot.inFlight.map (·.ticket), stage := .held }] },
        [.began c.callers.length,
          .opened c.callers.length c.slot.issued (c.slot.inFlight.map (·.ticket))]) := by
  have hnone : c.slot.peek c.ttl c.now = none := hpeek
  show c.get = _
  unfold get Slot.serve
  rw [hnone]
  cases hf : c.slot.inFlight with
  | none => rfl
  | some p =>
    obtain ⟨ticket, stale⟩ := p
    obtain rfl : stale = true := hp _ hf
    rfl

theorem get_entry (c : TimedCache ε α) : (c.step .get).1.slot.entry = c.slot.entry := by
  cases hpeek : c.peek with
  | some value => rw [get_of_fresh hpeek]
  | none =>
    rcases c.slot.joined_or_stale with ⟨t, hp⟩ | hstale
    · rw [get_of_joinable hpeek hp]
    · rw [get_of_stale hpeek hstale]

end Get

theorem Shelf.joinable_of_inFlight {c : TimedCache ε α} {history : List (Duration × Event ε α)}
    (h : Shelf c history) {t : Nat} (hf : c.slot.inFlight = some { ticket := t, stale := false }) :
    Joinable (seen history) t := by
  cases h with
  | bare _ _ hstale => cases hstale _ hf
  | pending s hl hu hf' =>
    rw [hf] at hf'
    cases hf'
    exact ⟨hl, hu⟩
  | taken _ _ _ _ _ _ hf' =>
    rw [hf] at hf'
    cases hf'

theorem Shelf.joinable_iff {c : TimedCache ε α} {history : List (Duration × Event ε α)}
    (h : Shelf c history) {t : Nat} :
    Joinable (seen history) t ↔
      c.peek = none ∧ c.slot.inFlight = some { ticket := t, stale := false } := by
  constructor
  · rintro ⟨hlatest, hu⟩
    cases h with
    | bare hnone => exact absurd hlatest (hnone t)
    | pending s hl _ hf hp =>
      obtain rfl := hl.unique hlatest
      exact ⟨hp, hf⟩
    | taken s time r hl _ ht =>
      obtain rfl := hl.unique hlatest
      exact absurd hu ht.not_untaken
  · exact fun ⟨_, hf⟩ => h.joinable_of_inFlight hf

theorem Shelf.stale {c : TimedCache ε α} {history : List (Duration × Event ε α)} (h : Shelf c history)
    (hno : ∀ t, ¬Joinable (seen history) t) (p : Pending)
    (hp : c.slot.inFlight = some p) : p.stale = true := by
  obtain ⟨ticket, stale⟩ := p
  cases stale with
  | true => rfl
  | false => exact absurd (h.joinable_of_inFlight hp) (hno ticket)

/-! ### While a fetch can be joined -/

theorem Move.latest {c c' : TimedCache ε α} {past events : List (Event ε α)} (m : Move c c' events)
    {t : Nat} (hknown : t < c.slot.issued) (h : Latest (past ++ events) t) :
    Latest past t ∧ ∀ event ∈ events, event.turns = false := by
  have before : Latest past t := by
    refine h.of_append.resolve_right ?_
    rintro ⟨k, o, hmem⟩
    exact Nat.ne_of_lt hknown (m.issues.2 k t o hmem)
  refine ⟨before, ?_⟩
  cases m with
  | served | joined | called | answered | finished | dropped => simp [Event.turns]
  | opened hv hp => exact absurd (h.unique (Latest.opened _ _ _ _)) (Nat.ne_of_lt hknown)
  | invalidated => exact absurd h (Latest.not_invalidated past t)
  | passed =>
    intro event hmem
    cases hmem

/-- All who came joined the fetch, and no other one was opened. -/
structure Gathering (ticket : Nat) (later : List (Event ε α)) : Prop where
  quiet : ∀ event ∈ later, event.turns = false
  joined : ∀ k, .began k ∈ later → .joined k ticket ∈ later

/-- **All who come while a fetch can be joined join it.** -/
theorem Attended.gathering {c : TimedCache ε α} {past : List (Duration × Event ε α)}
    (h : Attended c past) {t : Nat} (hknown : t < c.slot.issued) (more : List (Act ε α))
    (hjoin : Joinable (seen (past ++ (c.runFrom more).2)) t) : Gathering t (seen (c.runFrom more).2) := by
  refine (h.runFrom_induct (P := fun _ later => Joinable (seen (past ++ later)) t →
    Gathering t (seen later)) (fun _ => ⟨nofun, nofun⟩) ?_ more).2 hjoin
  intro mid later c' events hmid hissued ih m
  have hmidknown : t < mid.slot.issued := Nat.lt_of_lt_of_le hknown hissued
  rw [← List.append_assoc, seen_append, seen_stamped, seen_append later, seen_stamped]
  rintro ⟨hlatest, hu⟩
  obtain ⟨hbefore, hquiet⟩ := m.latest hmidknown hlatest
  have hjoin : Joinable (seen (past ++ later)) t := ⟨hbefore, hu.of_append⟩
  obtain ⟨hpeek, hflight⟩ := hmid.kept.shelf.joinable_iff.mp hjoin
  have hgather := ih hjoin
  constructor
  · intro event hmem
    exact (List.mem_append.mp hmem).elim (hgather.quiet event) (hquiet event)
  · intro k hmem
    rcases List.mem_append.mp hmem with hmem | hmem
    · exact List.mem_append_left _ (hgather.joined k hmem)
    · refine List.mem_append_right _ ?_
      cases m with
      | served value hv =>
        rw [hpeek] at hv
        cases hv
      | joined s hv hp =>
        rw [hflight] at hp
        cases hp
        simpa using hmem
      | opened hv hp => cases hp _ hflight
      | called | answered | finished | dropped | invalidated => simp at hmem
      | passed => cases hmem

/-- The refresh of a fetch is called once. -/
theorem InTurn.count_le_one {past : List (Event ε α)} (h : InTurn past) (t : Nat) :
    (calls past).count t ≤ 1 := by
  have hnodup : (calls past).Nodup :=
    h.increasing.imp fun hlt heq => absurd (heq ▸ hlt) (Nat.lt_irrefl _)
  exact List.nodup_iff_count.mp hnodup t

/-! ### Whoever comes is served or waits -/

theorem placed_run (ttl : Duration) (acts : List (Act ε α)) :
    ∀ k, .began k ∈ seen (run ttl acts).2 →
      (∃ v, .served k v ∈ seen (run ttl acts).2 ∧ .returned k (.ok v) ∈ seen (run ttl acts).2) ∨
        ∃ t, Awaits (seen (run ttl acts).2) k t := by
  refine runFrom_induct_seen (P := fun _ past => ∀ k, .began k ∈ past →
    (∃ v, .served k v ∈ past ∧ .returned k (.ok v) ∈ past) ∨ ∃ t, Awaits past k t) nofun ?_ acts
  intro c past c' events ih m k hmem
  rcases List.mem_append.mp hmem with hmem | hmem
  · exact (ih k hmem).imp
      (fun ⟨v, hv, hr⟩ => ⟨v, List.mem_append_left _ hv, List.mem_append_left _ hr⟩)
      fun ⟨t, ht⟩ => ⟨t, ht.append events⟩
  · suffices (∃ v, .served k v ∈ events ∧ .returned k (.ok v) ∈ events) ∨ ∃ t, Awaits events k t from
      this.imp (fun ⟨v, hv, hr⟩ => ⟨v, List.mem_append_right _ hv, List.mem_append_right _ hr⟩)
        fun ⟨t, ht⟩ => ⟨t, awaits_append.mpr (Or.inr ht)⟩
    cases m with
    | served value hv =>
      obtain rfl : k = c.callers.length := by simpa using hmem
      exact Or.inl ⟨value, by simp⟩
    | joined t hv hp => exact Or.inr ⟨t, Or.inl (by simpa using hmem)⟩
    | opened hv hp =>
      obtain rfl : k = c.callers.length := by simpa using hmem
      exact Or.inr ⟨_, Or.inr ⟨_, List.mem_cons_of_mem _ List.mem_cons_self⟩⟩
    | called | answered | finished | dropped | invalidated => simp at hmem
    | passed => cases hmem

/-! ### Taking results -/

section Take

variable {c d : TimedCache ε α} {i k t : Nat} {r : Except ε α} {event : Event ε α}

theorem finish_of_settled (hi : c.callers[i]? = some (.waiting t))
    (hs : stageOf c.flights t = some (.settled r)) :
    c.finish i =
      ({ c with
          slot := c.slot.conclude t r c.now
          callers := c.callers.set i (.returned r) }, [.returned i r]) := by
  rw [finish, hi]
  dsimp only
  rw [(result?_eq_some_iff c t r).mpr hs]

theorem finish_of_told (h : event ∈ (c.finish i).2) :
    ∃ (t : Nat) (r : Except ε α), event = .returned i r ∧ c.callers[i]? = some (.waiting t) ∧
      (c.finish i).1.slot = c.slot.conclude t r c.now := by
  unfold finish at h ⊢
  split at h
  · rename_i t ht
    split at h
    · rename_i r hr
      exact ⟨t, r, List.mem_singleton.mp h, ht, rfl⟩
    · cases h
  · cases h

theorem findIdx?_waiting {awaits : Caller ε α → Bool}
    (waits : ∀ caller, awaits caller = true ↔ caller = .waiting t) :
    c.callers.findIdx? awaits = some i ↔
      c.callers[i]? = some (.waiting t) ∧ ∀ j < i, c.callers[j]? ≠ some (.waiting t) := by
  rw [List.findIdx?_eq_some_iff_getElem]
  constructor
  · rintro ⟨hlt, hi, hbefore⟩
    refine ⟨by rw [List.getElem?_eq_getElem hlt, (waits _).mp hi], fun j hj hwaits => ?_⟩
    obtain ⟨hlt', heq⟩ := List.getElem?_eq_some_iff.mp hwaits
    exact hbefore j hj ((waits _).mpr heq)
  · rintro ⟨hi, hbefore⟩
    obtain ⟨hlt, heq⟩ := List.getElem?_eq_some_iff.mp hi
    refine ⟨hlt, (waits _).mpr heq, fun j hj hwaits => hbefore j hj ?_⟩
    rw [List.getElem?_eq_getElem (Nat.lt_trans hj hlt), (waits _).mp hwaits]

theorem firstWaiter?_eq_some_iff : c.firstWaiter? t = some i ↔
    c.callers[i]? = some (.waiting t) ∧ ∀ j < i, c.callers[j]? ≠ some (.waiting t) := by
  apply findIdx?_waiting
  intro caller
  cases caller <;> simp

theorem exists_firstWaiter (h : c.callers[k]? = some (.waiting t)) :
    ∃ i, c.firstWaiter? t = some i ∧ c.callers[i]? = some (.waiting t) := by
  have hsome : (c.firstWaiter? t).isSome := by
    rw [firstWaiter?, List.findIdx?_isSome, List.any_eq_true]
    exact ⟨.waiting t, List.mem_of_getElem? h, by simp⟩
  obtain ⟨i, hi⟩ := Option.isSome_iff_exists.mp hsome
  exact ⟨i, hi, (firstWaiter?_eq_some_iff.mp hi).1⟩

/-- The first of those who wait for the fetch takes its result. -/
def takeFirst (t : Nat) (c : TimedCache ε α) : TimedCache ε α × List (Event ε α) :=
  match c.firstWaiter? t with
  | some i => c.finish i
  | none => (c, [])

theorem takeFirst_of_told (h : event ∈ (c.takeFirst t).2) :
    ∃ (i : Nat) (r : Except ε α), event = .returned i r ∧ c.callers[i]? = some (.waiting t) ∧
      (c.takeFirst t).1.slot = c.slot.conclude t r c.now := by
  unfold takeFirst at h ⊢
  split at h
  · rename_i i hi
    obtain ⟨s, r, hevent, hwaits, hslot⟩ := finish_of_told h
    obtain rfl : t = s := by
      rw [(firstWaiter?_eq_some_iff.mp hi).1] at hwaits
      cases hwaits
      rfl
    exact ⟨i, r, hevent, hwaits, hslot⟩
  · cases h

theorem settle_of_unanswered (h : c.answer t r = (c, [])) : c.step (.settle t r) = (c, []) := by
  show c.settle t r = _
  rw [settle, h]

theorem settle_of_answered (h : c.answer t r = (d, [.settled t r])) :
    c.step (.settle t r) = ((d.takeFirst t).1, .settled t r :: (d.takeFirst t).2) := by
  show c.settle t r = _
  rw [settle, h, takeFirst]
  dsimp only
  cases d.firstWaiter? t with
  | some i => rfl
  | none => rfl

end Take

/-! ### What taking a result does to the slot -/

/-- Whoever returns comes just now, or takes the result of its fetch. -/
theorem step_of_returned {c : TimedCache ε α} {act : Act ε α} {k : Nat} {r : Except ε α}
    (h : .returned k r ∈ (c.step act).2) :
    k = c.callers.length ∨
      ∃ t : Nat, c.callers[k]? = some (.waiting t) ∧
        (c.step act).1.slot = c.slot.conclude t r c.now := by
  cases act with
  | get =>
    cases hpeek : c.peek with
    | some value =>
      rw [get_of_peek hpeek] at h
      simp only [List.mem_cons, reduceCtorEq, Event.returned.injEq, List.not_mem_nil, or_false,
        false_or] at h
      exact Or.inl h.1
    | none =>
      obtain ⟨t, -, hjoined | ⟨o, hopened⟩⟩ := get_of_peek_eq_none hpeek
      · simp [hjoined] at h
      · simp [hopened] at h
  | call t =>
    rw [step, call] at h
    split at h
    · split at h <;> simp at h
    · cases h
  | answer t r' =>
    rcases answer_moves t r' c with ha | ⟨ha, -⟩ <;> simp [step, ha] at h
  | settle t r' =>
    rcases answer_moves t r' c with ha | ⟨ha, -⟩
    · rw [settle_of_unanswered ha] at h
      cases h
    · rw [settle_of_answered ha] at h ⊢
      have htold := (List.mem_cons.mp h).resolve_left (by simp)
      obtain ⟨i, r'', hevent, hi, hslot⟩ := takeFirst_of_told htold
      cases hevent
      exact Or.inr ⟨t, hi, hslot⟩
  | finish i =>
    obtain ⟨t, r', hevent, hi, hslot⟩ := finish_of_told h
    cases hevent
    exact Or.inr ⟨t, hi, hslot⟩
  | drop i =>
    rw [step, drop] at h
    split at h <;> simp at h
  | invalidate => simp [step] at h
  | pass d => cases h

namespace Attended

variable {c : TimedCache ε α} {history : List (Duration × Event ε α)} {act : Act ε α} {k t : Nat}
  {r : Except ε α}

theorem slot_of_returned (h : Attended c history) (hawaits : Awaits (seen history) k t)
    (hr : .returned k r ∈ (c.step act).2) : (c.step act).1.slot = c.slot.conclude t r c.now := by
  rcases step_of_returned hr with rfl | ⟨s, hk, hslot⟩
  · exact absurd (h.kept.roll.known _ t hawaits).1 (Nat.lt_irrefl _)
  · rwa [h.kept.roll.alone k s t (h.kept.roll.waiting k s hk) hawaits] at hslot

/-- **The first caller of the newest fetch to return clears the slot**, and stores a value unless the fetch
was overtaken. -/
theorem slot_of_first (h : Attended c history) (hawaits : Awaits (seen history) k t)
    (hr : .returned k r ∈ (c.step act).2) (hlast : t + 1 = c.slot.issued)
    (hu : Untaken (seen history) t) :
    (c.step act).1.slot.inFlight = none ∧
      (∀ value, r = .ok value → Latest (seen history) t →
        (c.step act).1.slot.entry = some { value, fetchedAt := c.now }) ∧
      ((∀ value, r = .ok value → ¬Latest (seen history) t) →
        (c.step act).1.slot.entry = c.slot.entry) := by
  rw [h.slot_of_returned hawaits hr]
  obtain ⟨stale, hflight, hmark⟩ := h.holder hlast hu
  refine ⟨Slot.conclude_inFlight hflight rfl r c.now, ?_, ?_⟩
  · rintro value rfl hlatest
    obtain rfl : stale = false := hmark.mpr hlatest
    simp [Slot.conclude, hflight]
  · intro hno
    refine Slot.conclude_entry_eq (fun hp value hok => ?_) c.now
    rw [hflight] at hp
    cases hp
    exact hno value hok (hmark.mp rfl)

/-- **Every other caller leaves the slot alone.** -/
theorem slot_of_late (h : Attended c history) (hawaits : Awaits (seen history) k t)
    (hr : .returned k r ∈ (c.step act).2)
    (hlate : ¬(t + 1 = c.slot.issued ∧ Untaken (seen history) t)) :
    (c.step act).1.slot = c.slot := by
  rw [h.slot_of_returned hawaits hr]
  refine Slot.conclude_of_ne (fun p hp hpt => hlate ⟨?_, ?_⟩) r c.now
  · rw [h.kept.sound.chained.issued, ← hpt]
    exact h.kept.sound.chained.registered p hp
  · exact hpt ▸ h.registered.flying p hp

/-! ### Fetches that fail -/

/-- As long as the latest fetch gives no value, the entry is as it was. -/
theorem entry_eq (h : Attended c history) (hknown : t < c.slot.issued) (more : List (Act ε α))
    (hlatest : Latest (seen (history ++ (c.runFrom more).2)) t)
    (hfailed : ∀ value, .settled t (.ok value) ∉ seen (history ++ (c.runFrom more).2)) :
    (c.runFrom more).1.slot.entry = c.slot.entry := by
  refine (h.runFrom_induct (P := fun c' later => Latest (seen (history ++ later)) t →
    (∀ value, .settled t (.ok value) ∉ seen (history ++ later)) → c'.slot.entry = c.slot.entry)
    (fun _ _ => rfl) ?_ more).2 hlatest hfailed
  intro mid later c' events hmid hissued ih m
  rw [← List.append_assoc, seen_append, seen_stamped]
  intro hlatest hfailed
  obtain ⟨hbefore, hquiet⟩ := m.latest (Nat.lt_of_lt_of_le hknown hissued) hlatest
  have hunstored : ∀ value, .settled t (.ok value) ∉ seen (history ++ later) := fun value hmem =>
    hfailed value (List.mem_append_left _ hmem)
  rw [← ih hbefore hunstored]
  cases m with
  | served | joined | opened | called | answered | dropped | passed => rfl
  | invalidated => cases hquiet _ (List.mem_singleton.mpr rfl)
  | finished j s r' hj hs =>
    refine Slot.conclude_entry_eq (fun hp value hok => ?_) mid.now
    -- what could be stored is the value of the latest fetch
    have hsame : s = t := (hmid.kept.shelf.joinable_of_inFlight hp).1.unique hbefore
    refine hunstored value ((hmid.kept.sound.logged.settled t _).mpr ?_)
    rw [← hok, ← hsame]
    exact hs

end Attended

/-! ### A fetch that is moved to its end by those who wait for it -/

/-- **Whoever moves the latest fetch to its end returns with its result.** -/
theorem Kept.returned_of_settle {c : TimedCache ε α} {history : List (Duration × Event ε α)}
    (h : Kept c history) {t : Nat} {r : Except ε α} (hlatest : Latest (seen history) t)
    (hs : .settled t r ∈ (c.step (.settle t r)).2) :
    ∃ k, Awaits (seen history) k t ∧ .returned k r ∈ (c.step (.settle t r)).2 := by
  rcases answer_moves t r c with ha | ⟨ha, m⟩
  · rw [settle_of_unanswered ha] at hs
    cases hs
  · obtain ⟨hrunning, hdriven⟩ := m.settles (List.mem_singleton.mpr rfl)
    obtain ⟨j, s, hj, hroot⟩ := isDriven_iff.mp hdriven
    have hlast : t + 1 = c.flights.length := by
      cases h.shelf with
      | bare hnone => exact absurd hlatest (hnone t)
      | pending u hl _ hf =>
        obtain rfl := hl.unique hlatest
        exact h.sound.chained.registered _ hf
      | taken u _ r' hl hsettled =>
        obtain rfl := hl.unique hlatest
        rw [h.sound.logged.settled, hrunning] at hsettled
        cases hsettled
    have hsame : s = t := by
      have hlt : s < c.slot.issued := (h.roll.known j s (h.roll.waiting j s hj)).2
      have hle : s ≤ t := by
        rw [h.sound.chained.issued] at hlt
        omega
      refine (Nat.lt_or_eq_of_le hle).resolve_left fun hlt => ?_
      rw [rootOf_of_settled (h.sound.chained.begun t _ hrunning (by simp) s hlt)] at hroot
      exact Nat.ne_of_lt hlt hroot
    subst hsame
    have hstage : stageOf (c.setStage s (.settled r)).flights s = some (.settled r) := by
      rw [stageOf_setStage (lt_length_of_stageOf hrunning), if_pos rfl]
    obtain ⟨i, hfirst, hi⟩ := exists_firstWaiter (c := c.setStage s (.settled r)) hj
    refine ⟨i, h.roll.waiting i s hi, ?_⟩
    rw [settle_of_answered ha, takeFirst, hfirst]
    dsimp only
    rw [finish_of_settled hi hstage]
    exact List.mem_cons_of_mem _ (List.mem_singleton.mpr rfl)

/-! ### After a failure -/

/-- The next caller after a failure opens a fetch that waits for nothing. -/
theorem Kept.get_of_failed {c : TimedCache ε α} {history : List (Duration × Event ε α)}
    (h : Kept c history) {t : Nat} {error : ε} (hlatest : Latest (seen history) t)
    (hs : .settled t (.error error) ∈ seen history) (htaken : ¬Untaken (seen history) t) :
    (c.step .get).2 =
        [.began c.callers.length, .opened c.callers.length c.slot.issued none] ∧
      ((c.step .get).1.step (.call c.slot.issued)).2 = [.called c.slot.issued] := by
  cases h.shelf with
  | bare hnone => exact absurd hlatest (hnone t)
  | pending s hl hu =>
    obtain rfl := hl.unique hlatest
    exact absurd hu htaken
  | taken s time result hl hsettled _ hflight _ _ hfailed =>
    obtain rfl := hl.unique hlatest
    have hresult : result = .error error := by
      rw [h.sound.logged.settled] at hs hsettled
      rw [hs] at hsettled
      cases hsettled
      rfl
    have hget := get_of_stale (hfailed error hresult) (fun p hp => by rw [hflight] at hp; cases hp)
    have hissued := h.sound.chained.issued
    have hlater := h.move c.get_move
    rw [show c.get = c.step .get from rfl] at hlater
    rw [hget, hflight] at hlater ⊢
    refine ⟨rfl, ?_⟩
    -- all earlier fetches have settled, so that the new one is the first that has not
    have hforemost := foremost_concat (h.sound.chained.idle hflight) none
    rw [← hissued] at hforemost
    rcases hlater.need_of_waiting List.getElem?_concat_length hforemost (Nat.le_refl _) with
      ⟨-, -, hcall⟩ | ⟨hrunning, -⟩
    · exact hcall
    · rw [hissued] at hrunning
      dsimp only at hrunning
      rw [stageOf_append_singleton, if_pos rfl] at hrunning
      cases hrunning

/-- **Callers share fetches.** After any acts on a cache, with any time to live:

* A new caller joins the fetch that was opened last, if nothing was invalidated since and nobody has taken
  its result. If there is none and no fresh value either, it opens one that nobody has waited for.
* Whoever came was served or waits for one fetch, and for no other.
* As long as a fetch can be joined, all who come join it, however many, and nothing else is opened. The only
  refreshes that are called meanwhile are those of this fetch and of earlier ones, none of them twice.
* Whoever waited for a fetch and has returned has done so with the result with which the fetch settled.
* In a prompt run, whoever waits for a fetch that settles, overtaken or not, goes away or returns with its
  result, at the instant at which it settles or, if it came later, at once.
* A caller of the newest fetch that is the first to return clears the slot, and stores the value, if there is
  one, unless the fetch was overtaken. All other callers, those of earlier fetches too, leave the slot alone.
* Whoever moves a fetch to its end that was not overtaken returns with its result there and then.
* When a fetch has failed that was not overtaken, and one of its callers has returned, the next one to come
  opens a fetch that can call its refresh at once, and the entry is as it was before the fetch that failed
  was opened. -/
theorem callers_share_fetches (ttl : Duration) (acts : List (Act ε α)) :
    (∀ t, Joinable (seen (run ttl acts).2) t →
      ((run ttl acts).1.step .get).2 =
        [.began (run ttl acts).1.callers.length, .joined (run ttl acts).1.callers.length t]) ∧
    ((run ttl acts).1.peek = none → (∀ t, ¬Joinable (seen (run ttl acts).2) t) →
      (∃ overtaken, ((run ttl acts).1.step .get).2 = [.began (run ttl acts).1.callers.length,
        .opened (run ttl acts).1.callers.length (run ttl acts).1.slot.issued overtaken]) ∧
      ∀ k, ¬Awaits (seen (run ttl acts).2) k (run ttl acts).1.slot.issued) ∧
    (∀ k, .began k ∈ seen (run ttl acts).2 → (∀ v, .served k v ∉ seen (run ttl acts).2) →
      ∃ t, Awaits (seen (run ttl acts).2) k t ∧ ∀ s, Awaits (seen (run ttl acts).2) k s → s = t) ∧
    (∀ t more, Joinable (seen (run ttl acts).2) t → Joinable (seen (run ttl (acts ++ more)).2) t →
      Gathering t (seen ((run ttl acts).1.runFrom more).2) ∧
      (∀ s, .called s ∈ seen ((run ttl acts).1.runFrom more).2 → s ≤ t) ∧
      ∀ s, (calls (seen (run ttl (acts ++ more)).2)).count s ≤ 1) ∧
    (∀ k t r, Awaits (seen (run ttl acts).2) k t → .returned k r ∈ seen (run ttl acts).2 →
      .settled t r ∈ seen (run ttl acts).2 ∧ ∀ r', .settled t r' ∈ seen (run ttl acts).2 → r' = r) ∧
    (Prompt ttl acts → ∀ k t r time time', AwaitsFrom (run ttl acts).2 k t time →
      (time', .settled t r) ∈ (run ttl acts).2 →
      .dropped k ∈ seen (run ttl acts).2 ∨ (max time time', .returned k r) ∈ (run ttl acts).2) ∧
    (∀ act k t r, Awaits (seen (run ttl acts).2) k t → .returned k r ∈ ((run ttl acts).1.step act).2 →
      (t + 1 = (run ttl acts).1.slot.issued → Untaken (seen (run ttl acts).2) t →
        ((run ttl acts).1.step act).1.slot.inFlight = none ∧
        (∀ value, r = .ok value → Latest (seen (run ttl acts).2) t →
          ((run ttl acts).1.step act).1.slot.entry =
            some { value, fetchedAt := (run ttl acts).1.now }) ∧
        ((∀ value, r = .ok value → ¬Latest (seen (run ttl acts).2) t) →
          ((run ttl acts).1.step act).1.slot.entry = (run ttl acts).1.slot.entry)) ∧
      (¬(t + 1 = (run ttl acts).1.slot.issued ∧ Untaken (seen (run ttl acts).2) t) →
        ((run ttl acts).1.step act).1.slot = (run ttl acts).1.slot)) ∧
    (∀ t r, Latest (seen (run ttl acts).2) t →
      .settled t r ∈ ((run ttl acts).1.step (.settle t r)).2 →
      ∃ k, Awaits (seen (run ttl acts).2) k t ∧
        .returned k r ∈ ((run ttl acts).1.step (.settle t r)).2) ∧
    ∀ t error, Latest (seen (run ttl acts).2) t → .settled t (.error error) ∈ seen (run ttl acts).2 →
      ¬Untaken (seen (run ttl acts).2) t →
      (((run ttl acts).1.step .get).2 = [.began (run ttl acts).1.callers.length,
          .opened (run ttl acts).1.callers.length (run ttl acts).1.slot.issued none] ∧
        (((run ttl acts).1.step .get).1.step (.call (run ttl acts).1.slot.issued)).2 =
          [.called (run ttl acts).1.slot.issued]) ∧
      ∀ pre more k overtaken, acts = pre ++ .get :: more →
        .opened k t overtaken ∈ ((run ttl pre).1.step .get).2 →
        (run ttl acts).1.slot.entry = (run ttl pre).1.slot.entry := by
  have h := attended_run ttl acts
  refine ⟨?_, ?_, ?_, ?_, ?_, ?_, ?_, ?_, ?_⟩
  · intro t hjoin
    obtain ⟨hpeek, hflight⟩ := h.kept.shelf.joinable_iff.mp hjoin
    rw [get_of_joinable hpeek hflight]
  · intro hpeek hno
    rw [get_of_stale hpeek (h.kept.shelf.stale hno)]
    exact ⟨⟨_, rfl⟩, fun k hk => absurd (h.kept.roll.known k _ hk).2 (Nat.lt_irrefl _)⟩
  · intro k hbegan hunserved
    rcases placed_run ttl acts k hbegan with ⟨v, hv, -⟩ | ⟨t, ht⟩
    · exact absurd hv (hunserved v)
    · exact ⟨t, ht, fun s hs => h.kept.roll.alone k s t hs ht⟩
  · intro t more hjoin hlater
    have hend := attended_run ttl (acts ++ more)
    have hrun : run ttl (acts ++ more) = (((run ttl acts).1.runFrom more).1,
      (run ttl acts).2 ++ ((run ttl acts).1.runFrom more).2) := runFrom_append _ acts more
    have hknown : t + 1 = (run ttl acts).1.slot.issued := by
      rw [h.kept.sound.chained.issued]
      exact h.kept.sound.chained.registered _ (h.kept.shelf.joinable_iff.mp hjoin).2
    have hlast : t + 1 = (run ttl (acts ++ more)).1.flights.length :=
      hend.kept.sound.chained.registered _ (hend.kept.shelf.joinable_iff.mp hlater).2
    refine ⟨h.gathering (by omega) more ?_, fun s hs => ?_, hend.kept.sound.inTurn.count_le_one⟩
    · rwa [hrun] at hlater
    · have hcalled : .called s ∈ seen (run ttl (acts ++ more)).2 := by
        rw [hrun, seen_append]
        exact List.mem_append_right _ hs
      obtain ⟨stage, hstage, -⟩ := (hend.kept.sound.logged.called s).mp hcalled
      have hlt := lt_length_of_stageOf hstage
      omega
  · intro k t r hawaits hr
    have hs := h.settled_of_returned hawaits hr
    exact ⟨hs, fun r' hs' => h.settled_unique hs' hs⟩
  · exact fun hprompt k t r time time' hawaits hs => hprompt.returns hawaits hs
  · exact fun act k t r hawaits hr => ⟨h.slot_of_first hawaits hr, h.slot_of_late hawaits hr⟩
  · exact fun t r hlatest hs => h.kept.returned_of_settle hlatest hs
  · intro t error hlatest hs htaken
    refine ⟨h.kept.get_of_failed hlatest hs htaken, ?_⟩
    intro pre more k overtaken heq hopened
    rw [heq, List.append_cons] at h hlatest hs ⊢
    have hthen := attended_run ttl (pre ++ [.get])
    have hrun : run ttl (pre ++ [.get] ++ more) = (((run ttl (pre ++ [.get])).1.runFrom more).1,
      (run ttl (pre ++ [.get])).2 ++ ((run ttl (pre ++ [.get])).1.runFrom more).2) :=
      runFrom_append _ _ more
    have hknown : t < (run ttl (pre ++ [.get])).1.slot.issued := by
      refine (hthen.kept.roll.known k t (Or.inr ⟨overtaken, ?_⟩)).2
      rw [run_concat, seen_append, seen_stamped]
      exact List.mem_append_right _ hopened
    have hfailed : ∀ value, .settled t (.ok value) ∉ seen (run ttl (pre ++ [.get] ++ more)).2 := by
      intro value hok
      cases h.settled_unique hs hok
    rw [hrun] at hlatest hfailed ⊢
    rw [hthen.entry_eq hknown more hlatest hfailed, run_concat]
    exact get_entry _

/-- A caller joins the fetch of another one. It fails after three nanoseconds, for both of them, and the next
caller opens another fetch. -/
theorem failure_shared_by_two :
    Gathering 0 (seen ((run 5 ([.get] : List (Act Unit Nat))).1.runFrom [.get, .call 0, .pass 3]).2) ∧
    (3, .returned 1 (.error ())) ∈
      (run 5 ([.get, .get, .call 0, .pass 3, .settle 0 (.error ()), .finish 1] :
        List (Act Unit Nat))).2 ∧
    ((run 5 ([.get, .get, .call 0, .pass 3, .settle 0 (.error ()), .finish 1] :
        List (Act Unit Nat))).1.step .get).2 = [.began 2, .opened 2 1 none] := by
  have hprompt : Prompt 5 ([.get, .get, .call 0, .pass 3, .settle 0 (.error ()), .finish 1] :
      List (Act Unit Nat)) := by decide
  obtain ⟨-, -, -, hgathers, -⟩ := callers_share_fetches 5 ([.get] : List (Act Unit Nat))
  obtain ⟨-, -, -, -, -, hreturns, -, -, hfails⟩ := callers_share_fetches 5
    ([.get, .get, .call 0, .pass 3, .settle 0 (.error ()), .finish 1] : List (Act Unit Nat))
  refine ⟨?_, ?_, ?_⟩
  · refine (hgathers 0 [.get, .call 0, .pass 3] ⟨?_, ?_⟩ ⟨?_, ?_⟩).1
    · exact ⟨[.began 0], 0, none, [], rfl, by simp⟩
    · show ∀ k r, _ → .returned k r ∉ ([.began 0, .opened 0 0 none] : List (Event Unit Nat))
      simp
    · exact ⟨[.began 0], 0, none, _, rfl, by decide⟩
    · show ∀ k r, _ → .returned k r ∉ ([.began 0, .opened 0 0 none, .began 1, .joined 1 0, .called 0] :
        List (Event Unit Nat))
      simp
  · exact (hreturns hprompt 1 0 (.error ()) 0 3 (Or.inl (by decide)) (by decide)).resolve_left
      (by decide)
  · refine (hfails 0 () ⟨[.began 0], 0, none, _, rfl, by decide⟩ (by decide) ?_).1.1
    exact fun hu => hu 1 (.error ()) (Or.inl (by decide)) (by decide)

end TimedCache

end IntentLoop.Cache
