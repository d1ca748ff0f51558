import IntentLoop.Proofs.Cache.Sharing
/-!
# The fetch in the slot

A cache never has a fetch under way and a value to show at once. As long as there is a fetch in the slot,
overtaken or not, nothing can be read and nothing is stored (`entry_while_inFlight`): a fetch is opened only
by a caller that finds no fresh entry, an entry only grows older, and whoever stores one takes the fetch out
of the slot at the same time. What an act can make of the slot at all is listed in `SlotMove`.

The fetch in the slot is the one that was opened last. It may wait for the one that it overtook, this one
for the one before, and so on; that chain (`Trail`) passes through every fetch that has not settled, since a
fetch behind such a one cannot have called its refresh and waits for just that one (`Chained.held_behind`).
So a refresh that runs is always on the trail of the fetch in the slot, and whatever it reads of the cache
meanwhile it finds empty (`slot_holds_back`).
-/

namespace IntentLoop.Cache

variable {ε α : Type}

/-! ### The chain behind a fetch -/

/-- The fetch was opened and has not settled. -/
def Unfinished (fs : List (Flight ε α)) (ticket : Nat) : Prop := ticket < fs.length ∧ ¬Settled fs ticket

/-- The fetches that stand between a fetch and its refresh, and the fetch itself: one whose refresh has not
been called waits for the one that it overtook until that has settled. -/
inductive Trail (fs : List (Flight ε α)) (ticket : Nat) : Nat → Prop
  | self : Trail fs ticket ticket
  | back {later earlier : Nat} (trail : Trail fs ticket later) (hheld : stageOf fs later = some .held)
      (hovertook : overtakenBy fs later = some (some earlier)) (hwaits : ¬Settled fs earlier) :
      Trail fs ticket earlier

namespace Chained

variable {c : TimedCache ε α}

theorem held_behind (h : Chained c.flights c.slot) {s : Nat} (hs : ¬Settled c.flights s)
    (hlt : s + 1 < c.flights.length) :
    stageOf c.flights (s + 1) = some .held ∧ overtakenBy c.flights (s + 1) = some (some s) := by
  have hf : c.flights[s + 1]? = some c.flights[s + 1] := List.getElem?_eq_getElem hlt
  have hstage := stageOf_of_getElem? hf
  have hovertaken : overtakenBy c.flights (s + 1) = some c.flights[s + 1].overtaken := by
    rw [overtakenBy, hf, Option.map_some]
  constructor
  · by_cases hheld : c.flights[s + 1].stage = .held
    · rw [hstage, hheld]
    · exact absurd (h.begun (s + 1) _ hstage hheld s (Nat.lt_succ_self s)) hs
  · cases ho : c.flights[s + 1].overtaken with
    | none => exact absurd (h.free (s + 1) (ho ▸ hovertaken) s (Nat.lt_succ_self s)) hs
    | some e =>
      rw [ho] at hovertaken
      have hes : e + 1 = s + 1 := h.waits (s + 1) e hovertaken
      obtain rfl : e = s := by omega
      exact hovertaken

/-- The trail of a fetch passes through all earlier ones that have not settled. -/
theorem trail (h : Chained c.flights c.slot) {s t : Nat} (hs : ¬Settled c.flights s) (hst : s ≤ t)
    (ht : t < c.flights.length) : Trail c.flights t s := by
  obtain ⟨d, rfl⟩ := Nat.exists_eq_add_of_le hst
  -- from the fetch back towards `s`, one fetch at a time
  induction d generalizing s with
  | zero => exact .self
  | succ d ih =>
    have hnext : ¬Settled c.flights (s + 1) := fun hsettled =>
      hs (h.settled_of_le hsettled (Nat.le_succ s))
    have hsum : s + (d + 1) = s + 1 + d := by omega
    rw [hsum] at ht ⊢
    obtain ⟨hheld, hovertook⟩ := h.held_behind hs (by omega)
    exact .back (ih hnext (Nat.le_add_right _ _) ht) hheld hovertook hs

/-- **All fetches that have not settled are on the trail of the one in the slot.** -/
theorem trail_of_unfinished (h : Chained c.flights c.slot) {p : Pending}
    (hp : c.slot.inFlight = some p) {t : Nat} (ht : Unfinished c.flights t) :
    Trail c.flights p.ticket t := by
  have hlast := h.registered p hp
  exact h.trail ht.2 (by have := ht.1; omega) (by omega)

theorem exists_inFlight (h : Chained c.flights c.slot) {t : Nat} (ht : Unfinished c.flights t) :
    ∃ p, c.slot.inFlight = some p := by
  cases hp : c.slot.inFlight with
  | none => exact absurd (h.idle hp t ht.1) ht.2
  | some p => exact ⟨p, rfl⟩

end Chained

/-! ### What acts make of the slot -/

theorem Slot.conclude_eq_self {ticket : Nat} {s : Slot α} {result : Except ε α} {now : Duration}
    (h : (s.conclude ticket result now).inFlight ≠ none) : s.conclude ticket result now = s := by
  refine conclude_of_ne (fun p hp hticket => h ?_) result now
  exact conclude_inFlight hp hticket result now

namespace TimedCache

/-- What an act can make of the slot. -/
inductive SlotMove (ε : Type) (now : Duration) (s : Slot α) : Slot α → Prop
  | idle : SlotMove ε now s s
  | opened : SlotMove ε now s
      { s with inFlight := some { ticket := s.issued, stale := false }, issued := s.issued + 1 }
  | concluded (ticket : Nat) (result : Except ε α) : SlotMove ε now s (s.conclude ticket result now)
  | invalidated : SlotMove ε now s s.invalidate

theorem SlotMove.entry {now : Duration} {s s' : Slot α} (h : SlotMove ε now s s')
    (hp : s'.inFlight ≠ none) : s'.entry = s.entry ∨ s'.entry = none := by
  cases h with
  | idle | opened => exact Or.inl rfl
  | concluded t r => exact Or.inl (congrArg Slot.entry (Slot.conclude_eq_self hp))
  | invalidated => exact Or.inr rfl

variable {c : TimedCache ε α}

theorem finish_slotMove (k : Nat) (c : TimedCache ε α) : SlotMove ε c.now c.slot (c.finish k).1.slot := by
  unfold finish
  split
  · split
    · exact .concluded _ _
    · exact .idle
  · exact .idle

theorem takeFirst_slotMove (t : Nat) (c : TimedCache ε α) :
    SlotMove ε c.now c.slot (c.takeFirst t).1.slot := by
  unfold takeFirst
  split
  · exact finish_slotMove _ c
  · exact .idle

/-- **An act leaves the slot alone, registers a fetch in it, takes one out or invalidates it.** -/
theorem step_slotMove (c : TimedCache ε α) (act : Act ε α) :
    SlotMove ε c.now c.slot (c.step act).1.slot := by
  cases act with
  | get =>
    cases hpeek : c.peek with
    | some value =>
      rw [get_of_fresh hpeek]
      exact .idle
    | none =>
      rcases c.slot.joined_or_stale with ⟨t, hp⟩ | hstale
      · rw [get_of_joinable hpeek hp]
        exact .idle
      · rw [get_of_stale hpeek hstale]
        exact .opened
  | call t =>
    show SlotMove ε c.now c.slot (c.call t).1.slot
    unfold call
    repeat' split
    all_goals exact .idle
  | answer t r =>
    show SlotMove ε c.now c.slot (c.answer t r).1.slot
    rcases answer_moves t r c with ha | ⟨ha, -⟩
    · rw [ha]
      exact .idle
    · rw [ha]
      exact .idle
  | settle t r =>
    rcases answer_moves t r c with ha | ⟨ha, -⟩
    · rw [settle_of_unanswered ha]
      exact .idle
    · rw [settle_of_answered ha]
      exact takeFirst_slotMove t (c.setStage t (.settled r))
  | finish k => exact finish_slotMove k c
  | drop k =>
    show SlotMove ε c.now c.slot (c.drop k).1.slot
    unfold drop
    split
    all_goals exact .idle
  | invalidate => exact .invalidated
  | pass time => exact .idle

/-! ### What can be read beside a fetch -/

/-- There is no fresh entry. -/
def Exhausted (c : TimedCache ε α) : Prop :=
  ∀ entry, c.slot.entry = some entry → entry.isFresh c.ttl c.now = false

theorem peek_eq_none_iff : c.peek = none ↔ c.Exhausted := by
  unfold peek Slot.peek Exhausted
  rw [Option.map_eq_none_iff, Option.filter_eq_none_iff]
  simp only [Bool.not_eq_true]

/-- While there is a fetch in the slot, nothing can be read. -/
theorem Shelf.peek_eq_none {history : List (Duration × Event ε α)} (h : Shelf c history)
    (hp : c.slot.inFlight ≠ none) : c.peek = none := by
  cases h with
  | bare _ hentry _ => exact peek_eq_none_of_entry hentry c.ttl c.now
  | pending _ _ _ _ hpeek => exact hpeek
  | taken _ _ _ _ _ _ hflight => exact absurd hflight hp

theorem peek_of_served {act : Act ε α} {k : Nat} {value : α} (h : .served k value ∈ (c.step act).2) :
    c.peek = some value := by
  cases act with
  | get =>
    cases hpeek : c.peek with
    | some stored =>
      rw [get_of_peek hpeek] at h
      simp only [List.mem_cons, Event.served.injEq, reduceCtorEq, List.not_mem_nil, or_false,
        false_or] at h
      rw [h.2]
    | none =>
      obtain ⟨ticket, -, hjoined | ⟨overtaken, hopened⟩⟩ := get_of_peek_eq_none hpeek
      · rw [hjoined] at h
        simp at h
      · rw [hopened] at h
        simp at h
  | call t =>
    replace h : .served k value ∈ (c.call t).2 := h
    unfold call at h
    repeat' split at h
    all_goals simp at h
  | answer t r =>
    replace h : .served k value ∈ (c.answer t r).2 := h
    rcases answer_moves t r c with ha | ⟨ha, -⟩
    · rw [ha] at h
      cases h
    · rw [ha] at h
      simp at h
  | settle t r =>
    rcases answer_moves t r c with ha | ⟨ha, -⟩
    · rw [settle_of_unanswered ha] at h
      cases h
    · rw [settle_of_answered ha] at h
      rcases List.mem_cons.mp h with hevent | htold
      · cases hevent
      · obtain ⟨i, taken, hevent, -⟩ := takeFirst_of_told htold
        cases hevent
  | finish i =>
    obtain ⟨t, taken, hevent, -⟩ := finish_of_told h
    cases hevent
  | drop i =>
    replace h : .served k value ∈ (c.drop i).2 := h
    unfold drop at h
    split at h
    all_goals simp at h
  | invalidate => simp [step] at h
  | pass time => cases h

/-- **No entry is stored beside a fetch.** As long as the slot is not left empty, its entry is the one that
was there before, unless it was invalidated. -/
theorem entry_while_inFlight (ttl : Duration) (acts more : List (Act ε α))
    (h : ∀ before, before <+: more → (run ttl (acts ++ before)).1.slot.inFlight ≠ none) :
    (run ttl (acts ++ more)).1.slot.entry = (run ttl acts).1.slot.entry ∨
      (run ttl (acts ++ more)).1.slot.entry = none := by
  induction more using List.reverseRecOn with
  | nil =>
    rw [List.append_nil]
    exact Or.inl rfl
  | append_singleton more act ih =>
    have hlast := h (more ++ [act]) (List.prefix_refl _)
    rw [← List.append_assoc, run_concat] at hlast ⊢
    have hbefore := ih fun before hprior => h before (hprior.trans (List.prefix_append more [act]))
    rcases (step_slotMove (run ttl (acts ++ more)).1 act).entry hlast with hsame | hnone
    · dsimp only
      rwa [hsame]
    · exact Or.inr hnone

/-- **A fetch in the slot holds everything back.** After any acts on a cache:

* If there is a fetch in the slot, overtaken or not, then there is no fresh entry, the fetch is the one that
  was opened last, and all fetches that have not settled are on its trail.
* If there is none, then all fetches have settled.
* Whatever is done next, as long as the slot is not left empty there is no fresh entry, and none is stored.
* While a refresh has been called and has not answered, its fetch is on the trail of the one in the slot, a
  peek finds nothing, whoever makes it, and nobody who comes is served without a fetch. -/
theorem slot_holds_back (ttl : Duration) (acts : List (Act ε α)) :
    (∀ p, (run ttl acts).1.slot.inFlight = some p →
      (run ttl acts).1.Exhausted ∧ p.ticket + 1 = (run ttl acts).1.slot.issued ∧
      ∀ t, Unfinished (run ttl acts).1.flights t → Trail (run ttl acts).1.flights p.ticket t) ∧
    ((run ttl acts).1.slot.inFlight = none → ∀ t, ¬Unfinished (run ttl acts).1.flights t) ∧
    (∀ more,
      (∀ before, before <+: more → (run ttl (acts ++ before)).1.slot.inFlight ≠ none) →
      (run ttl (acts ++ more)).1.Exhausted ∧
      ((run ttl (acts ++ more)).1.slot.entry = (run ttl acts).1.slot.entry ∨
        (run ttl (acts ++ more)).1.slot.entry = none)) ∧
    ∀ t, Unanswered (seen (run ttl acts).2) t →
      (∃ p, (run ttl acts).1.slot.inFlight = some p ∧ Trail (run ttl acts).1.flights p.ticket t) ∧
      (run ttl acts).1.peek = none ∧
      ∀ act k value, .served k value ∉ ((run ttl acts).1.step act).2 := by
  have h := kept_run ttl acts
  have hchained := h.sound.chained
  have hpeek : ∀ acts : List (Act ε α), (run ttl acts).1.slot.inFlight ≠ none →
      (run ttl acts).1.peek = none := fun acts => (kept_run ttl acts).shelf.peek_eq_none
  refine ⟨?_, ?_, ?_, ?_⟩
  · intro p hp
    refine ⟨peek_eq_none_iff.mp (hpeek acts (by simp [hp])), ?_,
      fun t => hchained.trail_of_unfinished hp⟩
    rw [hchained.issued]
    exact hchained.registered p hp
  · intro hnone t ht
    exact ht.2 (hchained.idle hnone t ht.1)
  · intro more hmore
    exact ⟨peek_eq_none_iff.mp (hpeek (acts ++ more) (hmore more (List.prefix_refl more))),
      entry_while_inFlight ttl acts more hmore⟩
  · intro t ht
    have hrunning := (h.sound.unanswered_iff t).mp ht
    have hunfinished : Unfinished (run ttl acts).1.flights t := by
      refine ⟨lt_length_of_stageOf hrunning, ?_⟩
      rintro ⟨r, hr⟩
      rw [hrunning] at hr
      cases hr
    obtain ⟨p, hp⟩ := hchained.exists_inFlight hunfinished
    have hnone := hpeek acts (by simp [hp])
    refine ⟨⟨p, hp, hchained.trail_of_unfinished hp hunfinished⟩, hnone, ?_⟩
    intro act k value hserved
    rw [peek_of_served hserved] at hnone
    cases hnone

-- an entry that has grown too old is still there while the next refresh runs, and cannot be read
example :
    (run 5 ([.get, .call 0, .settle 0 (.ok 7), .pass 5, .get, .call 1] : List (Act Unit Nat))).1.slot =
      { entry := some { value := 7, fetchedAt := 0 }, inFlight := some { ticket := 1, stale := false }
        issued := 2 } := by decide

end TimedCache

end IntentLoop.Cache
