import Mathlib.Data.List.Induction
import IntentLoop.Proofs.Cache.Keys
import IntentLoop.Proofs.Cache.Readability
/-!
# What becomes of the callers

A caller that waits for a fetch goes on waiting until it takes the result of that fetch or goes away
(`Book`), and it does one of the two once. The fetch in the slot is one of which nobody has taken the
result, and a slot without one means that the result of the newest fetch was taken (`Registered`).

When a caller takes a result that is there for it is not up to the cache. In a prompt run no time passes
while a result is there for somebody who waits for it (`Prompt`), and then every caller that stays returns
at the instant at which its fetch settles, or at which it comes, whichever is later (`Prompt.returns`).
-/

namespace IntentLoop.Cache.TimedCache

variable {ε α : Type}

/-! ### Moves, as a caller sees them -/

section Moves

variable {c c' : TimedCache ε α} {events : List (Event ε α)} {k t : Nat}

theorem Move.keeps (m : Move c c' events) {caller : Caller ε α} (h : c.callers[k]? = some caller)
    (hno : ∀ t, caller ≠ .waiting t) : c'.callers[k]? = some caller := by
  have hlt : k < c.callers.length := (List.getElem?_eq_some_iff.mp h).1
  have other : ∀ {j s : Nat} (caller' : Caller ε α), c.callers[j]? = some (.waiting s) →
      (c.callers.set j caller')[k]? = some caller := by
    intro j s caller' hj
    rw [List.getElem?_set_ne ?_, h]
    rintro rfl
    exact hno s (Option.some.inj (h.symm.trans hj))
  cases m with
  | served | joined | opened => exact (List.getElem?_append_left hlt).trans h
  | called | answered | invalidated | passed => exact h
  | finished j s r hj _ => exact other (.returned r) hj
  | dropped j s hj => exact other .dropped hj

theorem Move.waits (m : Move c c' events) (h : c.callers[k]? = some (.waiting t)) :
    c'.callers[k]? = some (.waiting t) ∨ .dropped k ∈ events ∨
      ∃ r, .returned k r ∈ events ∧ stageOf c.flights t = some (.settled r) := by
  have hlt : k < c.callers.length := (List.getElem?_eq_some_iff.mp h).1
  cases m with
  | served | joined | opened => exact Or.inl ((List.getElem?_append_left hlt).trans h)
  | called | answered | invalidated | passed => exact Or.inl h
  | finished j s r hj hs =>
    by_cases hjk : j = k
    · subst hjk
      rw [h] at hj
      cases hj
      exact Or.inr (Or.inr ⟨r, List.mem_singleton.mpr rfl, hs⟩)
    · exact Or.inl ((List.getElem?_set_ne hjk).trans h)
  | dropped j s hj =>
    by_cases hjk : j = k
    · exact Or.inr (Or.inl (List.mem_singleton.mpr (congrArg Event.dropped hjk.symm)))
    · exact Or.inl ((List.getElem?_set_ne hjk).trans h)

theorem Move.returns (m : Move c c' events) {r : Except ε α} (h : .returned k r ∈ events) :
    c'.callers[k]? = some (.returned r) ∧
      (k = c.callers.length ∨ ∃ t, c.callers[k]? = some (.waiting t)) := by
  cases m with
  | served value hv =>
    obtain ⟨rfl, rfl⟩ : k = c.callers.length ∧ r = .ok value := by simpa using h
    exact ⟨List.getElem?_concat_length, Or.inl rfl⟩
  | joined | opened => simp at h
  | called | answered | dropped | invalidated => simp at h
  | passed => cases h
  | finished j s r' hj hs =>
    cases List.mem_singleton.mp h
    exact ⟨List.getElem?_set_self (List.getElem?_eq_some_iff.mp hj).1, Or.inr ⟨s, hj⟩⟩

theorem Move.drops (m : Move c c' events) (h : .dropped k ∈ events) :
    c'.callers[k]? = some .dropped := by
  cases m with
  | served | joined | opened | called | answered | finished | invalidated => simp at h
  | passed => cases h
  | dropped j s hj =>
    cases List.mem_singleton.mp h
    exact List.getElem?_set_self (List.getElem?_eq_some_iff.mp hj).1

theorem Move.comes (m : Move c c' events) (h : Awaits events k t) :
    k = c.callers.length ∧ c'.callers[k]? = some (.waiting t) := by
  cases m with
  | joined s hv hp =>
    obtain ⟨rfl, rfl⟩ : k = c.callers.length ∧ t = s := by simpa [Awaits] using h
    exact ⟨rfl, List.getElem?_concat_length⟩
  | opened hv hp =>
    obtain ⟨rfl, rfl⟩ : k = c.callers.length ∧ t = c.slot.issued := by simpa [Awaits] using h
    exact ⟨rfl, List.getElem?_concat_length⟩
  | served | called | answered | finished | dropped | invalidated | passed => simp [Awaits] at h

end Moves

/-! ### The book -/

/-- What has become of the callers, as it was told. -/
structure Book (c : TimedCache ε α) (history : List (Duration × Event ε α)) : Prop where
  returned : ∀ k r, .returned k r ∈ seen history → c.callers[k]? = some (.returned r)
  dropped : ∀ k, .dropped k ∈ seen history → c.callers[k]? = some .dropped
  awaiting : ∀ k t, Awaits (seen history) k t → c.callers[k]? = some (.waiting t) ∨
    .dropped k ∈ seen history ∨ ∃ r, .returned k r ∈ seen history ∧ .settled t r ∈ seen history
  once : ∀ k time r time' r', (time, .returned k r) ∈ history → (time', .returned k r') ∈ history →
    time = time' ∧ r = r'
  elapsed : ∀ told ∈ history, told.1 ≤ c.now

theorem mem_seen {history : List (Duration × Event ε α)} {event : Event ε α} :
    event ∈ seen history ↔ ∃ time, (time, event) ∈ history := by
  unfold seen
  rw [List.mem_map]
  constructor
  · rintro ⟨⟨time, _⟩, hmem, rfl⟩
    exact ⟨time, hmem⟩
  · rintro ⟨time, hmem⟩
    exact ⟨_, hmem, rfl⟩

theorem mem_stamped {events : List (Event ε α)} {now time : Duration} {event : Event ε α} :
    (time, event) ∈ events.map (now, ·) ↔ time = now ∧ event ∈ events := by
  rw [List.mem_map]
  constructor
  · rintro ⟨event, hmem, heq⟩
    cases heq
    exact ⟨rfl, hmem⟩
  · rintro ⟨rfl, hmem⟩
    exact ⟨event, hmem, rfl⟩

namespace Book

variable {c c' : TimedCache ε α} {history : List (Duration × Event ε α)} {events : List (Event ε α)}

theorem new (ttl now : Duration) : Book (TimedCache.new ttl now : TimedCache ε α) [] where
  returned := nofun
  dropped := nofun
  awaiting := by rintro k t (h | ⟨o, h⟩) <;> cases h
  once := nofun
  elapsed := nofun

theorem move (h : Book c history) (hsound : Sound c (seen history)) (hroll : Roll c (seen history))
    (m : Move c c' events) : Book c' (history ++ events.map (c.now, ·)) := by
  have hseen : seen (history ++ events.map (c.now, ·)) = seen history ++ events := by
    rw [seen_append, seen_stamped]
  constructor
  case returned =>
    intro k r hmem
    rw [hseen] at hmem
    rcases List.mem_append.mp hmem with hmem | hmem
    · exact m.keeps (h.returned k r hmem) nofun
    · exact (m.returns hmem).1
  case dropped =>
    intro k hmem
    rw [hseen] at hmem
    rcases List.mem_append.mp hmem with hmem | hmem
    · exact m.keeps (h.dropped k hmem) nofun
    · exact m.drops hmem
  case awaiting =>
    intro k t hawaits
    rw [hseen] at hawaits ⊢
    rcases awaits_append.mp hawaits with hawaits | hawaits
    · rcases h.awaiting k t hawaits with hk | hgone | ⟨r, hr, hs⟩
      · rcases m.waits hk with hk | hgone | ⟨r, hr, hs⟩
        · exact Or.inl hk
        · exact Or.inr (Or.inl (List.mem_append_right _ hgone))
        · exact Or.inr (Or.inr ⟨r, List.mem_append_right _ hr,
            List.mem_append_left _ ((hsound.logged.settled t r).mpr hs)⟩)
      · exact Or.inr (Or.inl (List.mem_append_left _ hgone))
      · exact Or.inr (Or.inr ⟨r, List.mem_append_left _ hr, List.mem_append_left _ hs⟩)
    · exact Or.inl (m.comes hawaits).2
  case once =>
    -- who has returned neither waits nor comes
    have again : ∀ {k time r r'}, (time, .returned k r) ∈ history → .returned k r' ∉ events := by
      intro k time r r' hold hnew
      have hk := h.returned k r (mem_seen.mpr ⟨time, hold⟩)
      rcases (m.returns hnew).2 with rfl | ⟨t, ht⟩
      · exact absurd (hroll.returned _ r (mem_seen.mpr ⟨time, hold⟩)) (Nat.lt_irrefl _)
      · rw [hk] at ht
        cases ht
    intro k time r time' r' hmem hmem'
    rcases List.mem_append.mp hmem with hmem | hmem <;>
      rcases List.mem_append.mp hmem' with hmem' | hmem'
    · exact h.once k time r time' r' hmem hmem'
    · exact absurd (mem_stamped.mp hmem').2 (again hmem)
    · exact absurd (mem_stamped.mp hmem).2 (again hmem')
    · obtain ⟨rfl, hnew⟩ := mem_stamped.mp hmem
      obtain ⟨rfl, hnew'⟩ := mem_stamped.mp hmem'
      have hsame := (m.returns hnew).1.symm.trans (m.returns hnew').1
      cases hsame
      exact ⟨rfl, rfl⟩
  case elapsed =>
    rintro ⟨time, event⟩ hmem
    rcases List.mem_append.mp hmem with hmem | hmem
    · exact Nat.le_trans (h.elapsed _ hmem) m.now_le
    · rw [(mem_stamped.mp hmem).1]
      exact m.now_le

end Book

/-! ### The slot and the callers -/

theorem Untaken.of_append {past more : List (Event ε α)} {t : Nat} (h : Untaken (past ++ more) t) :
    Untaken past t :=
  fun k r hawaits hmem => h k r (hawaits.append more) (List.mem_append_left more hmem)

/-- The fetch in the slot is one whose result nobody has taken. -/
structure Registered (c : TimedCache ε α) (past : List (Event ε α)) : Prop where
  flying : ∀ p, c.slot.inFlight = some p → Untaken past p.ticket
  landed : c.slot.inFlight = none → ∀ t, t + 1 = c.slot.issued → ¬Untaken past t

namespace Registered

variable {c c' : TimedCache ε α} {past events : List (Event ε α)}

theorem new (ttl now : Duration) : Registered (TimedCache.new ttl now : TimedCache ε α) [] where
  flying := nofun
  landed := by
    intro _ t ht
    cases ht

/-- The slot keeps its fetch, and nobody takes its result. -/
theorem still (h : Registered c past)
    (hflight : c'.slot.inFlight.map (·.ticket) = c.slot.inFlight.map (·.ticket))
    (hissued : c'.slot.issued = c.slot.issued)
    (huntaken : ∀ p, c.slot.inFlight = some p → Untaken past p.ticket →
      Untaken (past ++ events) p.ticket) : Registered c' (past ++ events) where
  flying := by
    intro p hp
    have hticket : c.slot.inFlight.map (·.ticket) = some p.ticket := by
      rw [← hflight, hp]
      rfl
    obtain ⟨q, hq, hqp⟩ := Option.map_eq_some_iff.mp hticket
    rw [← hqp]
    exact huntaken q hq (h.flying q hq)
  landed := by
    intro hp t ht
    have hnone : c.slot.inFlight = none := by
      rw [hp] at hflight
      exact Option.map_eq_none_iff.mp hflight.symm
    exact fun hu => h.landed hnone t (ht.trans hissued) hu.of_append

theorem move (h : Registered c past) (hchained : Chained c.flights c.slot) (hroll : Roll c past)
    (m : Move c c' events) : Registered c' (past ++ events) := by
  cases m with
  | served value hv =>
    refine h.still rfl rfl fun p _ hu => hu.append (by simp [Awaits]) ?_
    intro k r hmem hk
    obtain ⟨rfl, -⟩ : k = c.callers.length ∧ r = .ok value := by simpa using hmem
    exact absurd (hroll.known _ _ hk).1 (Nat.lt_irrefl _)
  | joined t hv hp =>
    refine h.still rfl rfl fun p _ hu => hu.append ?_ (by simp)
    intro k hk r hmem
    obtain ⟨rfl, -⟩ : k = c.callers.length ∧ p.ticket = t := by simpa [Awaits] using hk
    exact absurd (hroll.returned _ r (by simpa using hmem)) (Nat.lt_irrefl _)
  | opened hv hp =>
    constructor
    case flying =>
      intro p hp k r hk hmem
      cases hp
      rcases awaits_append.mp hk with hk | hk
      · exact absurd (hroll.known k _ hk).2 (Nat.lt_irrefl _)
      · obtain rfl : k = c.callers.length := by simpa [Awaits] using hk
        exact absurd (hroll.returned _ r (by simpa using hmem)) (Nat.lt_irrefl _)
    case landed =>
      intro hp
      cases hp
  | called t hs hd => exact h.still rfl rfl fun p _ hu => hu.append (by simp [Awaits]) (by simp)
  | answered t r hs hd => exact h.still rfl rfl fun p _ hu => hu.append (by simp [Awaits]) (by simp)
  | finished k t r hc hs =>
    have hawaits := hroll.waiting k t hc
    by_cases hp : ∃ p, c.slot.inFlight = some p ∧ p.ticket = t
    · obtain ⟨p, hp, rfl⟩ := hp
      constructor
      case flying =>
        intro q hq
        rw [Slot.conclude_inFlight hp rfl] at hq
        cases hq
      case landed =>
        intro _ u hu hun
        -- the newest fetch is the one whose result was taken just now
        rw [Slot.conclude_issued, hchained.issued, ← hchained.registered p hp] at hu
        obtain rfl : u = p.ticket := Nat.succ.inj hu
        exact hun k r (hawaits.append _) (List.mem_append_right _ (List.mem_singleton.mpr rfl))
    · have hne : ∀ p, c.slot.inFlight = some p → p.ticket ≠ t := fun p h1 h2 => hp ⟨p, h1, h2⟩
      refine h.still (by rw [Slot.conclude_of_ne hne]) (Slot.conclude_issued ..) fun p hp hu => ?_
      refine hu.append (by simp [Awaits]) fun j r' hmem hj => ?_
      cases List.mem_singleton.mp hmem
      exact hne p hp (hroll.alone k _ _ hj hawaits)
  | dropped k t hc => exact h.still rfl rfl fun p _ hu => hu.append (by simp [Awaits]) (by simp)
  | invalidated =>
    refine h.still ?_ rfl fun p _ hu => hu.append (by simp [Awaits]) (by simp)
    show (c.slot.inFlight.map _).map _ = _
    rw [Option.map_map]
    rfl
  | passed time => exact h.still rfl rfl fun p _ hu => hu.append (by simp [Awaits]) (by simp)

end Registered

/-! ### Runs -/

/-- What holds of a cache, of its callers and of all that was told of it. -/
structure Attended (c : TimedCache ε α) (history : List (Duration × Event ε α)) : Prop where
  kept : Kept c history
  book : Book c history
  registered : Registered c (seen history)

namespace Attended

variable {c c' : TimedCache ε α} {history : List (Duration × Event ε α)} {events : List (Event ε α)}

theorem move (h : Attended c history) (m : Move c c' events) :
    Attended c' (history ++ events.map (c.now, ·)) where
  kept := h.kept.move m
  book := h.book.move h.kept.sound h.kept.roll m
  registered := by
    rw [seen_append, seen_stamped]
    exact h.registered.move h.kept.sound.chained h.kept.roll m

theorem settled_of_returned (h : Attended c history) {k t : Nat} {r : Except ε α}
    (hawaits : Awaits (seen history) k t) (hr : .returned k r ∈ seen history) :
    .settled t r ∈ seen history := by
  have hk := h.book.returned k r hr
  rcases h.book.awaiting k t hawaits with hwaits | hgone | ⟨r', hr', hs⟩
  · rw [hk] at hwaits
    cases hwaits
  · rw [h.book.dropped k hgone] at hk
    cases hk
  · rw [h.book.returned k r' hr'] at hk
    cases hk
    exact hs

theorem unsettled (h : Attended c history) {t : Nat} (hu : ∀ r, .settled t r ∉ seen history) :
    ¬Settled c.flights t :=
  fun ⟨r, hr⟩ => hu r ((h.kept.sound.logged.settled t r).mpr hr)

theorem settled_unique (h : Attended c history) {t : Nat} {r r' : Except ε α}
    (hs : .settled t r ∈ seen history) (hs' : .settled t r' ∈ seen history) : r = r' := by
  rw [h.kept.sound.logged.settled] at hs hs'
  rw [hs] at hs'
  cases hs'
  rfl

/-- The newest fetch is in the slot until somebody takes its result, with a mark if it was overtaken. -/
theorem holder (h : Attended c history) {t : Nat} (hlast : t + 1 = c.slot.issued)
    (hu : Untaken (seen history) t) :
    ∃ stale, c.slot.inFlight = some { ticket := t, stale } ∧
      (stale = false ↔ Latest (seen history) t) := by
  cases hp : c.slot.inFlight with
  | none => exact absurd hu (h.registered.landed hp t hlast)
  | some p =>
    obtain ⟨ticket, stale⟩ := p
    have hticket : ticket + 1 = c.flights.length := h.kept.sound.chained.registered _ hp
    rw [← h.kept.sound.chained.issued, ← hlast] at hticket
    obtain rfl : ticket = t := Nat.succ.inj hticket
    refine ⟨stale, rfl, ?_⟩
    cases h.kept.shelf with
    | bare hnone _ hstale =>
      have hmarked : stale = true := hstale _ hp
      exact iff_of_false (by simp [hmarked]) (hnone ticket)
    | pending s hl _ hf =>
      rw [hp] at hf
      cases hf
      exact iff_of_true rfl hl
    | taken _ _ _ _ _ _ hf =>
      rw [hp] at hf
      cases hf

/-- What every move keeps from here on holds after a run from here. -/
theorem runFrom_induct (h : Attended c history)
    {P : TimedCache ε α → List (Duration × Event ε α) → Prop} (start : P c [])
    (move : ∀ {mid later c' events}, Attended mid (history ++ later) →
      c.slot.issued ≤ mid.slot.issued → P mid later → Move mid c' events →
      P c' (later ++ events.map (mid.now, ·)))
    (more : List (Act ε α)) :
    Attended (c.runFrom more).1 (history ++ (c.runFrom more).2) ∧
      P (c.runFrom more).1 (c.runFrom more).2 := by
  have hrun := TimedCache.runFrom_induct (P := fun c' later =>
    Attended c' (history ++ later) ∧ c.slot.issued ≤ c'.slot.issued ∧ P c' later)
    ⟨by rwa [List.append_nil], Nat.le_refl _, start⟩ ?_ more
  · exact ⟨hrun.1, hrun.2.2⟩
  · rintro mid later c' events ⟨hmid, hissued, hP⟩ m
    refine ⟨?_, Nat.le_trans hissued m.issues.1, move hmid hissued hP m⟩
    rw [← List.append_assoc]
    exact hmid.move m

theorem runFrom (h : Attended c history) (more : List (Act ε α)) :
    Attended (c.runFrom more).1 (history ++ (c.runFrom more).2) :=
  (h.runFrom_induct (P := fun _ _ => True) trivial (fun _ _ _ _ => trivial) more).1

theorem step (h : Attended c history) (act : Act ε α) :
    Attended (c.step act).1 (history ++ (c.step act).2.map (c.now, ·)) := h.runFrom [act]

end Attended

theorem attended_run (ttl : Duration) (acts : List (Act ε α)) :
    Attended (run ttl acts).1 (run ttl acts).2 :=
  runFrom_induct (P := Attended) ⟨kept_run ttl [], .new ttl 0, .new ttl 0⟩ Attended.move acts

theorem run_concat (ttl : Duration) (acts : List (Act ε α)) (act : Act ε α) :
    run ttl (acts ++ [act]) = (((run ttl acts).1.step act).1,
      (run ttl acts).2 ++ ((run ttl acts).1.step act).2.map ((run ttl acts).1.now, ·)) := by
  rw [run, runFrom_append, runFrom_cons]
  show (_, _ ++ (_ ++ [])) = _
  rw [List.append_nil]
  rfl

/-! ### Runs that are prompt -/

/-- The caller came at this instant to wait for the fetch. -/
def AwaitsFrom (history : List (Duration × Event ε α)) (caller ticket : Nat) (time : Duration) : Prop :=
  (time, .joined caller ticket) ∈ history ∨
    ∃ overtaken, (time, .opened caller ticket overtaken) ∈ history

/-- Nobody waits for a result that is there. -/
def Rested (c : TimedCache ε α) : Prop :=
  ∀ k t : Nat, c.callers[k]? = some (.waiting t) → c.result? t = none

/-- No time passes while a result is there for somebody who waits for it. -/
def Brisk (ttl : Duration) (acts : List (Act ε α)) : Prop :=
  ∀ before d after, acts = before ++ .pass d :: after → Rested (run ttl before).1

/-- No time passes, and the run does not stop, while a result is there for somebody who waits for it. -/
def Prompt (ttl : Duration) (acts : List (Act ε α)) : Prop :=
  Brisk ttl acts ∧ Rested (run ttl acts).1

theorem rested_iff {c : TimedCache ε α} :
    Rested c ↔ ∀ caller ∈ c.callers, match caller with
      | .waiting t => c.result? t = none
      | .returned _ | .dropped => True := by
  constructor
  · intro h caller hmem
    obtain ⟨k, hk⟩ := List.mem_iff_getElem?.mp hmem
    cases caller with
    | waiting t => exact h k t hk
    | returned r => trivial
    | dropped => trivial
  · exact fun h k t hk => h _ (List.mem_of_getElem? hk)

theorem brisk_iff {ttl : Duration} {acts : List (Act ε α)} :
    Brisk ttl acts ↔ ∀ i < acts.length, acts[i]?.any KeyedCache.isPassing = true →
      Rested (run ttl (acts.take i)).1 := by
  constructor
  · intro h i hi hpass
    rw [List.getElem?_eq_getElem hi] at hpass
    cases hact : acts[i] with
    | pass d =>
      refine h (acts.take i) d (acts.drop (i + 1)) ?_
      rw [← hact, ← List.drop_eq_getElem_cons hi, List.take_append_drop]
    | get | call | answer | settle | finish | drop | invalidate =>
      rw [hact] at hpass
      cases hpass
  · rintro h before d after rfl
    have hrest := h before.length (by simp) (by simp [KeyedCache.isPassing])
    rwa [List.take_left] at hrest

instance (c : TimedCache ε α) : Decidable (Rested c) :=
  have (caller : Caller ε α) : Decidable (match caller with
      | .waiting t => c.result? t = none
      | .returned _ | .dropped => True) :=
    match caller with
    | .waiting t => decidable_of_iff ((c.result? t).isNone = true) Option.isNone_iff_eq_none
    | .returned _ | .dropped => instDecidableTrue
  decidable_of_iff _ rested_iff.symm

instance (ttl : Duration) (acts : List (Act ε α)) : Decidable (Prompt ttl acts) :=
  have : Decidable (Brisk ttl acts) := decidable_of_iff _ brisk_iff.symm
  inferInstanceAs (Decidable (_ ∧ _))

/-- Whoever waits for a fetch that has settled goes away, or returns when both have happened, or is to
do so still and may, with no time having passed. -/
def Punctual (c : TimedCache ε α) (history : List (Duration × Event ε α)) : Prop :=
  ∀ k t r time time', AwaitsFrom history k t time → (time', .settled t r) ∈ history →
    .dropped k ∈ seen history ∨ (max time time', .returned k r) ∈ history ∨
      c.callers[k]? = some (.waiting t) ∧ c.now = max time time'

theorem AwaitsFrom.awaits {history : List (Duration × Event ε α)} {k t : Nat} {time : Duration}
    (h : AwaitsFrom history k t time) : Awaits (seen history) k t :=
  h.imp (fun hmem => mem_seen.mpr ⟨time, hmem⟩) fun ⟨o, hmem⟩ => ⟨o, mem_seen.mpr ⟨time, hmem⟩⟩

theorem awaitsFrom_append {past more : List (Duration × Event ε α)} {k t : Nat} {time : Duration} :
    AwaitsFrom (past ++ more) k t time ↔ AwaitsFrom past k t time ∨ AwaitsFrom more k t time := by
  simp only [AwaitsFrom, List.mem_append, exists_or]
  exact or_or_or_comm

theorem awaitsFrom_stamped {events : List (Event ε α)} {now time : Duration} {k t : Nat} :
    AwaitsFrom (events.map (now, ·)) k t time ↔ time = now ∧ Awaits events k t := by
  simp only [AwaitsFrom, Awaits, mem_stamped, exists_and_left, and_or_left]

theorem Move.settles {c c' : TimedCache ε α} {events : List (Event ε α)} (m : Move c c' events)
    {t : Nat} {r : Except ε α} (h : .settled t r ∈ events) :
    stageOf c.flights t = some .running ∧ c.isDriven t := by
  cases m with
  | answered s r' hs hd =>
    cases List.mem_singleton.mp h
    exact ⟨hs, hd⟩
  | served | joined | opened | called | finished | dropped | invalidated => simp at h
  | passed => cases h

namespace Punctual

variable {c c' : TimedCache ε α} {history : List (Duration × Event ε α)} {events : List (Event ε α)}

theorem new (ttl now : Duration) : Punctual (TimedCache.new ttl now : TimedCache ε α) [] := by
  rintro k t r time time' (h | ⟨o, h⟩) <;> cases h

theorem move (h : Punctual c history) (hall : Attended c history) (m : Move c c' events)
    (hnow : c'.now = c.now) : Punctual c' (history ++ events.map (c.now, ·)) := by
  have hseen : seen (history ++ events.map (c.now, ·)) = seen history ++ events := by
    rw [seen_append, seen_stamped]
  have hpast : ∀ {time event}, (time, event) ∈ history → time ≤ c.now := fun hmem =>
    hall.book.elapsed _ hmem
  intro k t r time time' hawaits hsettled
  rw [hseen]
  have hby : time' ≤ c.now :=
    (List.mem_append.mp hsettled).elim hpast fun hnew => Nat.le_of_eq (mem_stamped.mp hnew).1
  rcases awaitsFrom_append.mp hawaits with hawaits | hawaits
  · have hsince : time ≤ c.now := hawaits.elim hpast fun ⟨o, hmem⟩ => hpast hmem
    rcases List.mem_append.mp hsettled with hsettled | hsettled
    · rcases h k t r time time' hawaits hsettled with hgone | hback | ⟨hk, hmax⟩
      · exact Or.inl (List.mem_append_left _ hgone)
      · exact Or.inr (Or.inl (List.mem_append_left _ hback))
      · rcases m.waits hk with hk | hgone | ⟨r', hback, hs⟩
        · exact Or.inr (Or.inr ⟨hk, hnow.trans hmax⟩)
        · exact Or.inl (List.mem_append_right _ hgone)
        · rw [(hall.kept.sound.logged.settled t r).mp (mem_seen.mpr ⟨time', hsettled⟩)] at hs
          cases hs
          exact Or.inr (Or.inl (List.mem_append_right _ (mem_stamped.mpr ⟨hmax.symm, hback⟩)))
    · -- the fetch settles while the caller waits for it
      obtain ⟨rfl, hsettles⟩ := mem_stamped.mp hsettled
      have hrunning := (m.settles hsettles).1
      have unsettled : ∀ {r'}, stageOf c.flights t ≠ some (.settled r') := by
        intro r' hs
        rw [hrunning] at hs
        cases hs
      rcases hall.book.awaiting k t hawaits.awaits with hk | hgone | ⟨r', -, hs⟩
      · rcases m.waits hk with hk | hgone | ⟨r', -, hs⟩
        · exact Or.inr (Or.inr ⟨hk, hnow.trans (Nat.max_eq_right hsince).symm⟩)
        · exact Or.inl (List.mem_append_right _ hgone)
        · exact absurd hs unsettled
      · exact Or.inl (List.mem_append_left _ hgone)
      · exact absurd ((hall.kept.sound.logged.settled t r').mp hs) unsettled
  · obtain ⟨rfl, hcomes⟩ := awaitsFrom_stamped.mp hawaits
    exact Or.inr (Or.inr ⟨(m.comes hcomes).2, hnow.trans (Nat.max_eq_left hby).symm⟩)

theorem moves (h : Punctual c history) (hall : Attended c history) (ms : Moves c c' events)
    (hnow : c'.now = c.now) :
    Punctual c' (history ++ events.map (c.now, ·)) ∧
      Attended c' (history ++ events.map (c.now, ·)) := by
  induction ms with
  | none =>
    rw [List.map_nil, List.append_nil]
    exact ⟨h, hall⟩
  | more _ same last ih =>
    rw [List.map_append, ← List.append_assoc, ← same]
    rw [← same] at ih hnow
    obtain ⟨hmid, hallmid⟩ := ih rfl
    exact ⟨hmid.move hallmid last hnow, hallmid.move last⟩

/-- When nobody waits for a result that is there, everybody who waits for what has settled is gone or
has returned. -/
theorem of_rested (h : Punctual c history) (hall : Attended c history) (hrest : Rested c) {k t : Nat}
    {r : Except ε α} {time time' : Duration} (hawaits : AwaitsFrom history k t time)
    (hsettled : (time', .settled t r) ∈ history) :
    .dropped k ∈ seen history ∨ (max time time', .returned k r) ∈ history := by
  rcases h k t r time time' hawaits hsettled with hgone | hback | ⟨hk, -⟩
  · exact Or.inl hgone
  · exact Or.inr hback
  · have hs := (hall.kept.sound.logged.settled t r).mp (mem_seen.mpr ⟨time', hsettled⟩)
    rw [← result?_eq_some_iff, hrest k t hk] at hs
    cases hs

end Punctual

/-- **In a run in which no time passes while a result is there for somebody, everybody is punctual.** -/
theorem punctual_run {ttl : Duration} {acts : List (Act ε α)} (hbrisk : Brisk ttl acts) :
    Punctual (run ttl acts).1 (run ttl acts).2 := by
  induction acts using List.reverseRecOn with
  | nil => exact .new ttl 0
  | append_singleton acts act ih =>
    have hbefore : Punctual (run ttl acts).1 (run ttl acts).2 := by
      refine ih fun before d after heq => hbrisk before d (after ++ [act]) ?_
      rw [heq, List.append_assoc, List.cons_append]
    have hall := attended_run ttl acts
    rw [run_concat]
    cases hpass : KeyedCache.isPassing act with
    | false => exact (hbefore.moves hall (step_moves _ act) (step_now _ hpass)).1
    | true =>
      cases act with
      | pass d =>
        have hrest : Rested (run ttl acts).1 := hbrisk acts d [] rfl
        rw [show ((run ttl acts).1.step (.pass d)).2 = [] from rfl, List.map_nil, List.append_nil]
        intro k t r time time' hawaits hsettled
        exact (hbefore.of_rested hall hrest hawaits hsettled).imp_right Or.inl
      | get | call | answer | settle | finish | drop | invalidate => cases hpass

/-- **In a prompt run, whoever waits for a fetch that settles goes away, or returns with its result at
the instant at which it settles, or came later and returns at once.** -/
theorem Prompt.returns {ttl : Duration} {acts : List (Act ε α)} (h : Prompt ttl acts) {k t : Nat}
    {r : Except ε α} {time time' : Duration} (hawaits : AwaitsFrom (run ttl acts).2 k t time)
    (hsettled : (time', .settled t r) ∈ (run ttl acts).2) :
    .dropped k ∈ seen (run ttl acts).2 ∨ (max time time', .returned k r) ∈ (run ttl acts).2 :=
  (punctual_run h.1).of_rested (attended_run ttl acts) h.2 hawaits hsettled

end IntentLoop.Cache.TimedCache
