import IntentLoop.Proofs.Cache.SingleFlight
/-!
# What can be read, and for how long

A reader of a cache finds the value of one fetch only: the one that was opened last, unless something
was invalidated since (`Latest`). Its value can be read from the instant at which a caller that waited
for it first took it (`TakenAt`), and for less than the time to live of the cache from then on. This is
said of what was told of a run alone (`Readable`), while a cache keeps an entry, a fetch under way and a
mark on it.

`Shelf` says how the two go together: nothing was opened since the last invalidation; or the latest
fetch is under way and nothing else can be read; or it was taken, and its value, if it gave one, is the
entry. Every move keeps it (`Shelf.move`), for which it has to be known who waits for what (`Roll`). The
main result is `readable_exactly`.
-/

namespace IntentLoop.Cache.TimedCache

variable {ε α : Type}

/-! ### What was told of fetches and of their callers -/

/-- Is a fetch opened, or are all fetches so far invalidated? -/
def Event.turns : Event ε α → Bool
  | .opened _ _ _ | .invalidated => true
  | _ => false

/-- The caller came to wait for the fetch: it opened it or joined it. -/
def Awaits (past : List (Event ε α)) (caller ticket : Nat) : Prop :=
  .joined caller ticket ∈ past ∨ ∃ overtaken, .opened caller ticket overtaken ∈ past

/-- The fetch is the one that was opened last, and nothing was invalidated since. -/
def Latest (past : List (Event ε α)) (ticket : Nat) : Prop :=
  ∃ before caller overtaken after, past = before ++ .opened caller ticket overtaken :: after ∧
    ∀ event ∈ after, event.turns = false

/-- None of the callers of the fetch has returned. -/
def Untaken (past : List (Event ε α)) (ticket : Nat) : Prop :=
  ∀ caller result, Awaits past caller ticket → .returned caller result ∉ past

/-- The first of the callers of the fetch to return did so at this instant and with this result. -/
def TakenAt (history : List (Duration × Event ε α)) (ticket : Nat) (time : Duration)
    (result : Except ε α) : Prop :=
  ∃ before caller after, history = before ++ (time, .returned caller result) :: after ∧
    Awaits (seen before) caller ticket ∧ Untaken (seen before) ticket

/-- By what was told up to `now`, the value can be read: it is what the latest fetch gave, and it was
taken less than `ttl` ago. -/
def Readable (ttl now : Duration) (history : List (Duration × Event ε α)) (value : α) : Prop :=
  ∃ ticket time, Latest (seen history) ticket ∧ .settled ticket (.ok value) ∈ seen history ∧
    TakenAt history ticket time (.ok value) ∧ time ≤ now ∧ now - time < ttl

theorem Awaits.append {past : List (Event ε α)} {caller ticket : Nat} (h : Awaits past caller ticket)
    (more : List (Event ε α)) : Awaits (past ++ more) caller ticket :=
  h.imp (List.mem_append_left more) fun ⟨o, hmem⟩ => ⟨o, List.mem_append_left more hmem⟩

theorem awaits_append {past more : List (Event ε α)} {caller ticket : Nat} :
    Awaits (past ++ more) caller ticket ↔ Awaits past caller ticket ∨ Awaits more caller ticket := by
  simp only [Awaits, List.mem_append, exists_or]
  exact or_or_or_comm

theorem Untaken.append {past events : List (Event ε α)} {ticket : Nat} (h : Untaken past ticket)
    (hnew : ∀ k, Awaits events k ticket → ∀ result, .returned k result ∉ past ++ events)
    (hreturned : ∀ k result, .returned k result ∈ events → ¬Awaits past k ticket) :
    Untaken (past ++ events) ticket := by
  intro k result hawaits hmem
  rcases awaits_append.mp hawaits with hawaits | hawaits
  · rcases List.mem_append.mp hmem with hmem | hmem
    · exact h k result hawaits hmem
    · exact hreturned k result hmem hawaits
  · exact hnew k hawaits result hmem

namespace Latest

variable {past more : List (Event ε α)} {s t : Nat}

theorem of_append (h : Latest (past ++ more) t) :
    Latest past t ∨ ∃ caller overtaken, .opened caller t overtaken ∈ more := by
  obtain ⟨before, k, o, after, heq, hafter⟩ := h
  rcases List.append_eq_append_iff.mp heq with ⟨mid, -, hmore⟩ | ⟨mid, hpast, hrest⟩
  · refine Or.inr ⟨k, o, ?_⟩
    rw [hmore]
    exact List.mem_append_right mid List.mem_cons_self
  · cases mid with
    | nil =>
      refine Or.inr ⟨k, o, ?_⟩
      rw [List.nil_append] at hrest
      rw [← hrest]
      exact List.mem_cons_self
    | cons event mid =>
      obtain ⟨rfl, rfl⟩ := List.cons.inj hrest
      exact Or.inl ⟨before, k, o, mid, hpast, fun other hmem =>
        hafter other (List.mem_append_left _ hmem)⟩

theorem append_iff (h : ∀ event ∈ more, event.turns = false) :
    Latest (past ++ more) t ↔ Latest past t := by
  constructor
  · intro hlatest
    refine hlatest.of_append.resolve_right ?_
    rintro ⟨caller, overtaken, hmem⟩
    cases h _ hmem
  · rintro ⟨before, k, o, after, rfl, hafter⟩
    refine ⟨before, k, o, after ++ more, by simp, ?_⟩
    intro event hmem
    exact (List.mem_append.mp hmem).elim (hafter event) (h event)

theorem unique (hs : Latest past s) (ht : Latest past t) : s = t := by
  obtain ⟨before, k, o, after, rfl, hafter⟩ := hs
  obtain ⟨before', k', o', after', heq, hafter'⟩ := ht
  rcases append_cons_eq_append_cons heq with ⟨-, hsame, -⟩ | ⟨mid, -, rfl⟩ | ⟨mid, -, rfl⟩
  · cases hsame
    rfl
  · cases hafter _ (List.mem_append_right mid List.mem_cons_self)
  · cases hafter' _ (List.mem_append_right mid List.mem_cons_self)

theorem opened (past : List (Event ε α)) (caller ticket : Nat) (overtaken : Option Nat) :
    Latest (past ++ [.began caller, .opened caller ticket overtaken]) ticket :=
  ⟨past ++ [.began caller], caller, overtaken, [], by simp, nofun⟩

theorem not_invalidated (past : List (Event ε α)) (ticket : Nat) :
    ¬Latest (past ++ [.invalidated]) ticket := by
  rintro ⟨before, k, o, after, heq, hafter⟩
  rcases append_cons_eq_append_cons heq with ⟨-, hsame, -⟩ | ⟨mid, -, hnil⟩ | ⟨mid, -, rfl⟩
  · cases hsame
  · exact absurd hnil (by simp)
  · cases hafter _ (List.mem_append_right mid List.mem_cons_self)

end Latest

namespace TakenAt

variable {history : List (Duration × Event ε α)} {ticket : Nat} {time time' : Duration}
  {result result' : Except ε α}

theorem append (h : TakenAt history ticket time result) (more : List (Duration × Event ε α)) :
    TakenAt (history ++ more) ticket time result := by
  obtain ⟨before, caller, after, rfl, hawaits, huntaken⟩ := h
  exact ⟨before, caller, after ++ more, by simp, hawaits, huntaken⟩

theorem unique (h : TakenAt history ticket time result) (h' : TakenAt history ticket time' result') :
    time = time' ∧ result = result' := by
  obtain ⟨before, caller, after, rfl, hawaits, huntaken⟩ := h
  obtain ⟨before', caller', after', heq, hawaits', huntaken'⟩ := h'
  -- what is first has nothing of the kind before it
  have first : ∀ {before before' : List (Duration × Event ε α)} {caller time result mid},
      before' = before ++ (time, .returned caller result) :: mid → Awaits (seen before) caller ticket →
      ¬Untaken (seen before') ticket := by
    rintro before _ caller time result mid rfl hawaits huntaken
    rw [seen_append] at huntaken
    exact huntaken caller result (hawaits.append _) (List.mem_append_right _ List.mem_cons_self)
  rcases append_cons_eq_append_cons heq with ⟨-, hsame, -⟩ | ⟨mid, hmid, -⟩ | ⟨mid, hmid, -⟩
  · cases hsame
    exact ⟨rfl, rfl⟩
  · exact absurd huntaken' (first hmid hawaits)
  · exact absurd huntaken (first hmid hawaits')

theorem not_untaken (h : TakenAt history ticket time result) : ¬Untaken (seen history) ticket := by
  obtain ⟨before, caller, after, rfl, hawaits, -⟩ := h
  rw [seen_append]
  exact fun huntaken =>
    huntaken caller result (hawaits.append _) (List.mem_append_right _ List.mem_cons_self)

end TakenAt

/-! ### Who waits for what -/

/-- The callers of a cache, as they were told of. -/
structure Roll (c : TimedCache ε α) (past : List (Event ε α)) : Prop where
  waiting : ∀ (k t : Nat), c.callers[k]? = some (.waiting t) → Awaits past k t
  known : ∀ k t, Awaits past k t → k < c.callers.length ∧ t < c.slot.issued
  returned : ∀ k result, .returned k result ∈ past → k < c.callers.length
  /-- Nobody waits for two fetches. -/
  alone : ∀ k s t, Awaits past k s → Awaits past k t → s = t

namespace Roll

variable {c c' : TimedCache ε α} {past events : List (Event ε α)}

theorem new (ttl now : Duration) : Roll (TimedCache.new ttl now : TimedCache ε α) [] where
  waiting := nofun
  known := by rintro k t (h | ⟨o, h⟩) <;> cases h
  returned := nofun
  alone := by rintro k s t (h | ⟨o, h⟩) <;> cases h

/-- Who waits after it has waited before. -/
theorem still (h : Roll c past) (hlength : c.callers.length ≤ c'.callers.length)
    (hissued : c'.slot.issued = c.slot.issued)
    (hwaiting : ∀ (k t : Nat), c'.callers[k]? = some (.waiting t) →
      c.callers[k]? = some (.waiting t))
    (hevents : ∀ k t, ¬Awaits events k t)
    (hreturned : ∀ k result, .returned k result ∈ events → k < c'.callers.length) :
    Roll c' (past ++ events) := by
  have hawaits : ∀ k t, Awaits (past ++ events) k t ↔ Awaits past k t := fun k t =>
    awaits_append.trans (or_iff_left (hevents k t))
  refine ⟨?_, ?_, ?_, ?_⟩
  · exact fun k t hk => (hawaits k t).mpr (h.waiting k t (hwaiting k t hk))
  · rw [hissued]
    exact fun k t hk => (h.known k t ((hawaits k t).mp hk)).imp_left (Nat.lt_of_lt_of_le · hlength)
  · intro k result hmem
    rcases List.mem_append.mp hmem with hmem | hmem
    · exact Nat.lt_of_lt_of_le (h.returned k result hmem) hlength
    · exact hreturned k result hmem
  · exact fun k s t hs ht => h.alone k s t ((hawaits k s).mp hs) ((hawaits k t).mp ht)

/-- A caller comes and waits for a fetch. -/
theorem comes (h : Roll c past) {ticket : Nat}
    (hcallers : c'.callers = c.callers ++ [.waiting ticket]) (hissued : c.slot.issued ≤ c'.slot.issued)
    (hticket : ticket < c'.slot.issued)
    (hevents : ∀ k t, Awaits events k t ↔ k = c.callers.length ∧ t = ticket)
    (hreturned : ∀ k result, .returned k result ∉ events) : Roll c' (past ++ events) := by
  have hawaits : ∀ k t, Awaits (past ++ events) k t ↔
      Awaits past k t ∨ k = c.callers.length ∧ t = ticket := fun k t =>
    awaits_append.trans (or_congr_right (hevents k t))
  have hlength : c'.callers.length = c.callers.length + 1 := by
    rw [hcallers, List.length_append, List.length_singleton]
  refine ⟨?_, ?_, ?_, ?_⟩
  · intro k t hk
    rw [hcallers, getElem?_append_singleton] at hk
    rw [hawaits]
    split at hk
    · cases hk
      exact Or.inr ⟨‹_›, rfl⟩
    · exact Or.inl (h.waiting k t hk)
  · intro k t hk
    rcases (hawaits k t).mp hk with hk | ⟨rfl, rfl⟩
    · have := h.known k t hk
      omega
    · omega
  · intro k result hmem
    have hk := h.returned k result ((List.mem_append.mp hmem).resolve_right (hreturned k result))
    omega
  · intro k s t hs ht
    rcases (hawaits k s).mp hs with hs | ⟨hk, rfl⟩
    · rcases (hawaits k t).mp ht with ht | ⟨rfl, -⟩
      · exact h.alone k s t hs ht
      · exact absurd (h.known _ s hs).1 (Nat.lt_irrefl _)
    · rcases (hawaits k t).mp ht with ht | ⟨-, rfl⟩
      · exact absurd (h.known k t ht).1 (hk ▸ Nat.lt_irrefl _)
      · rfl

/-- A caller ends, one way or the other. -/
theorem ends (h : Roll c past) {k : Nat} {caller : Caller ε α} {slot : Slot α}
    (hk : k < c.callers.length) (hcaller : ∀ t, caller ≠ .waiting t)
    (hissued : slot.issued = c.slot.issued) (hevents : ∀ k t, ¬Awaits events k t)
    (hreturned : ∀ j result, .returned j result ∈ events → j = k) :
    Roll { c with slot, callers := c.callers.set k caller } (past ++ events) := by
  have hlength : (c.callers.set k caller).length = c.callers.length := List.length_set
  refine h.still (Nat.le_of_eq hlength.symm) hissued ?_ hevents ?_
  · intro j t hj
    rw [List.getElem?_set] at hj
    split at hj
    · exact absurd (Option.some.inj hj) (hcaller t)
    · exact hj
  · intro j result hmem
    rw [hreturned j result hmem]
    exact hlength.symm ▸ hk

theorem move (h : Roll c past) (hchained : Chained c.flights c.slot) (m : Move c c' events) :
    Roll c' (past ++ events) := by
  cases m with
  | served value hv =>
    refine h.still ?_ rfl ?_ (by simp [Awaits]) ?_
    · simp
    · intro k t hk
      rw [getElem?_append_singleton] at hk
      split at hk
      · cases hk
      · exact hk
    · simp
  | joined t hv hp =>
    have hticket : t < c.slot.issued := by
      have hlast : t + 1 = c.flights.length := hchained.registered _ hp
      rw [hchained.issued]
      omega
    exact h.comes rfl (Nat.le_refl _) hticket (by simp [Awaits]) (by simp)
  | opened hv hp =>
    exact h.comes rfl (Nat.le_succ _) (Nat.lt_succ_self _) (by simp [Awaits]) (by simp)
  | called t hs hd =>
    exact h.still (Nat.le_refl _) rfl (fun _ _ => id) (by simp [Awaits]) (by simp)
  | answered t r hs hd =>
    exact h.still (Nat.le_refl _) rfl (fun _ _ => id) (by simp [Awaits]) (by simp)
  | finished k t r hc hs =>
    exact h.ends (List.getElem?_eq_some_iff.mp hc).1 nofun (Slot.conclude_issued t r c.now c.slot)
      (by simp [Awaits]) (by simp)
  | dropped k t hc =>
    exact h.ends (List.getElem?_eq_some_iff.mp hc).1 nofun rfl (by simp [Awaits]) (by simp)
  | invalidated => exact h.still (Nat.le_refl _) rfl (fun _ _ => id) (by simp [Awaits]) (by simp)
  | passed time => exact h.still (Nat.le_refl _) rfl (fun _ _ => id) (by simp [Awaits]) (by simp)

end Roll

/-! ### What the slot holds -/

theorem peek_eq_none_of_entry {s : Slot α} (h : s.entry = none) (ttl now : Duration) :
    s.peek ttl now = none := by
  rw [Slot.peek, h]
  rfl

theorem peek_of_entry {s : Slot α} {entry : Entry α} (h : s.entry = some entry) (ttl now : Duration)
    (value : α) : s.peek ttl now = some value ↔ entry.value = value ∧ now - entry.fetchedAt < ttl := by
  have hfresh : entry.isFresh ttl now = true ↔ now - entry.fetchedAt < ttl := decide_eq_true_iff
  unfold Slot.peek
  rw [h, ← hfresh]
  cases hf : entry.isFresh ttl now <;> simp [Option.filter, hf]

theorem peek_eq_none_of_le {s : Slot α} {ttl now later : Duration} (h : s.peek ttl now = none)
    (hle : now ≤ later) : s.peek ttl later = none := by
  cases hs : s.entry with
  | none => exact peek_eq_none_of_entry hs ttl later
  | some entry =>
    refine Option.eq_none_iff_forall_ne_some.mpr fun value hlater => ?_
    obtain ⟨hvalue, hfresh⟩ := (peek_of_entry hs ttl later value).mp hlater
    have hbefore : s.peek ttl now = some value :=
      (peek_of_entry hs ttl now value).mpr
        ⟨hvalue, Nat.lt_of_le_of_lt (Nat.sub_le_sub_right hle _) hfresh⟩
    rw [h] at hbefore
    cases hbefore

/-- What the slot of a cache holds by what was told of it. -/
inductive Shelf (c : TimedCache ε α) (history : List (Duration × Event ε α)) : Prop
  /-- Nothing was opened since the last invalidation, or at all. -/
  | bare (hnone : ∀ ticket, ¬Latest (seen history) ticket) (hentry : c.slot.entry = none)
      (hstale : ∀ p, c.slot.inFlight = some p → p.stale = true)
  /-- The latest fetch has not been taken. -/
  | pending (ticket : Nat) (hlatest : Latest (seen history) ticket)
      (huntaken : Untaken (seen history) ticket)
      (hflight : c.slot.inFlight = some { ticket, stale := false }) (hpeek : c.peek = none)
  /-- The latest fetch has been taken, and has given a value or has failed. -/
  | taken (ticket : Nat) (time : Duration) (result : Except ε α)
      (hlatest : Latest (seen history) ticket) (hsettled : .settled ticket result ∈ seen history)
      (htaken : TakenAt history ticket time result) (hflight : c.slot.inFlight = none)
      (htime : time ≤ c.now)
      (hstored : ∀ value, result = .ok value → c.slot.entry = some { value, fetchedAt := time })
      (hfailed : ∀ error, result = .error error → c.peek = none)

namespace Shelf

variable {c c' : TimedCache ε α} {history : List (Duration × Event ε α)} {events : List (Event ε α)}

/-- The value of the latest fetch can be read for less than the time to live since it was taken. -/
theorem peek_of_taken (h : Shelf c history) {ticket : Nat} {time : Duration} {value : α}
    (hlatest : Latest (seen history) ticket) (htaken : TakenAt history ticket time (.ok value))
    (v : α) : c.peek = some v ↔ value = v ∧ c.now - time < c.ttl := by
  cases h with
  | bare hnone => exact absurd hlatest (hnone ticket)
  | pending t hl hu =>
    obtain rfl := hl.unique hlatest
    exact absurd hu htaken.not_untaken
  | taken t time' result hl _ ht _ _ hstored _ =>
    obtain rfl := hl.unique hlatest
    obtain ⟨rfl, rfl⟩ := ht.unique htaken
    exact peek_of_entry (hstored value rfl) c.ttl c.now v

/-- **What can be read is what is readable by what was told.** -/
theorem peek_iff (h : Shelf c history) (value : α) :
    c.peek = some value ↔ Readable c.ttl c.now history value := by
  constructor
  · intro hpeek
    cases h with
    | bare hnone hentry _ =>
      rw [TimedCache.peek, peek_eq_none_of_entry hentry] at hpeek
      cases hpeek
    | pending ticket hlatest huntaken _ hnone =>
      rw [hnone] at hpeek
      cases hpeek
    | taken ticket time result hlatest hsettled htaken _ htime hstored hfailed =>
      cases result with
      | ok stored =>
        obtain ⟨rfl, hfresh⟩ := (peek_of_entry (hstored stored rfl) c.ttl c.now value).mp hpeek
        exact ⟨ticket, time, hlatest, hsettled, htaken, htime, hfresh⟩
      | error error =>
        rw [hfailed error rfl] at hpeek
        cases hpeek
  · rintro ⟨ticket, time, hlatest, -, htaken, -, hfresh⟩
    exact (h.peek_of_taken hlatest htaken value).mpr ⟨rfl, hfresh⟩

theorem still (h : Shelf c history) {time : Duration} (hslot : c'.slot = c.slot)
    (httl : c'.ttl = c.ttl) (hnow : c.now ≤ c'.now)
    (hturns : ∀ event ∈ events, event.turns = false)
    (huntaken : ∀ t, c.slot.inFlight = some { ticket := t, stale := false } →
      Untaken (seen history) t → Untaken (seen history ++ events) t) :
    Shelf c' (history ++ events.map (time, ·)) := by
  have hseen : seen (history ++ events.map (time, ·)) = seen history ++ events := by
    rw [seen_append, seen_stamped]
  have hlatest : ∀ t, Latest (seen (history ++ events.map (time, ·))) t ↔ Latest (seen history) t := by
    intro t
    rw [hseen]
    exact Latest.append_iff hturns
  have hpeek : c.peek = none → c'.peek = none := by
    unfold TimedCache.peek
    rw [hslot, httl]
    exact fun hnone => peek_eq_none_of_le hnone hnow
  cases h with
  | bare hnone hentry hstale =>
    refine .bare (fun t => mt (hlatest t).mp (hnone t)) ?_ ?_
    · rw [hslot]
      exact hentry
    · rw [hslot]
      exact hstale
  | pending ticket hl hu hf hp =>
    refine .pending ticket ((hlatest ticket).mpr hl) ?_ ?_ (hpeek hp)
    · rw [hseen]
      exact huntaken ticket hf hu
    · rw [hslot]
      exact hf
  | taken ticket taken result hl hs ht hf htime hstored hfailed =>
    refine .taken ticket taken result ((hlatest ticket).mpr hl) ?_ (ht.append _) ?_
      (Nat.le_trans htime hnow) ?_ fun error herror => hpeek (hfailed error herror)
    · rw [hseen]
      exact List.mem_append_left events hs
    · rw [hslot]
      exact hf
    · rw [hslot]
      exact hstored

/-- A caller takes the result of the fetch that it waits for. -/
theorem finished (h : Shelf c history) (hroll : Roll c (seen history)) {k t : Nat}
    {result : Except ε α} (hk : c.callers[k]? = some (.waiting t))
    (hs : .settled t result ∈ seen history) :
    Shelf
      { c with
        slot := c.slot.conclude t result c.now
        callers := c.callers.set k (.returned result) }
      (history ++ [(c.now, .returned k result)]) := by
  have hawaits : Awaits (seen history) k t := hroll.waiting k t hk
  have hlatest : ∀ p, Latest (seen (history ++ [(c.now, .returned k result)])) p ↔
      Latest (seen history) p := by
    intro p
    rw [seen_append]
    exact Latest.append_iff (by simp [seen, Event.turns])
  -- a caller of a fetch that is not in the slot changes nothing
  have other : (∀ p, c.slot.inFlight = some p → p.ticket ≠ t) →
      Shelf
        { c with
          slot := c.slot.conclude t result c.now
          callers := c.callers.set k (.returned result) }
        (history ++ [(c.now, .returned k result)]) := by
    intro hother
    show Shelf _ (history ++ [Event.returned k result].map (c.now, ·))
    refine h.still (Slot.conclude_of_ne hother result c.now) rfl (Nat.le_refl _)
      (by simp [Event.turns]) ?_
    intro p hp huntaken
    refine huntaken.append (by simp [Awaits]) ?_
    intro j r hmem hj
    cases List.mem_singleton.mp hmem
    exact hother _ hp (hroll.alone k p t hj hawaits)
  cases h with
  | bare hnone hentry hstale =>
    refine .bare (fun p => mt (hlatest p).mp (hnone p)) ?_ ?_
    · refine Option.eq_none_iff_forall_ne_some.mpr fun entry hstored => ?_
      rcases Slot.conclude_entry hstored with hbefore | ⟨hflight, -⟩
      · rw [hentry] at hbefore
        cases hbefore
      · cases hstale _ hflight
    · exact fun p hp => hstale p (Slot.inFlight_of_conclude hp)
  | pending p hl hu hf hp =>
    by_cases hpt : p = t
    · subst hpt
      refine .taken p c.now result ((hlatest p).mpr hl) ?_ ?_ (Slot.conclude_inFlight hf rfl result _)
        (Nat.le_refl _) ?_ ?_
      · rw [seen_append]
        exact List.mem_append_left _ hs
      · exact ⟨history, k, [], rfl, hawaits, hu⟩
      · rintro value rfl
        simp [Slot.conclude, hf]
      · rintro error rfl
        have hentry : (c.slot.conclude p (.error error) c.now).entry = c.slot.entry := by
          simp [Slot.conclude, hf]
        unfold TimedCache.peek Slot.peek at hp ⊢
        rw [hentry]
        exact hp
    · refine other fun q hq hqt => ?_
      rw [hf] at hq
      cases hq
      exact hpt hqt
  | taken p time taken hl _ _ hf =>
    refine other fun q hq => ?_
    rw [hf] at hq
    cases hq

/-- **Every move keeps what can be read in step with what is told.** -/
theorem move (h : Shelf c history) (hroll : Roll c (seen history)) (hsound : Sound c (seen history))
    (m : Move c c' events) : Shelf c' (history ++ events.map (c.now, ·)) := by
  cases m with
  | served value hv =>
    refine h.still rfl rfl (Nat.le_refl _) (by simp [Event.turns]) fun t _ hu => ?_
    refine hu.append (by simp [Awaits]) ?_
    intro k r hmem hk
    have hlt := (hroll.known k t hk).1
    simp only [List.mem_cons, Event.returned.injEq, reduceCtorEq, List.not_mem_nil, or_false,
      false_or] at hmem
    omega
  | joined t hv hp =>
    refine h.still rfl rfl (Nat.le_refl _) (by simp [Event.turns]) fun s _ hu => ?_
    refine hu.append ?_ (by simp)
    intro k hk r hmem
    obtain ⟨rfl, -⟩ : k = c.callers.length ∧ s = t := by simpa [Awaits] using hk
    exact absurd (hroll.returned _ r (by simpa using hmem)) (Nat.lt_irrefl _)
  | opened hv hp =>
    have hseen := seen_append history
      ([.began c.callers.length, .opened c.callers.length c.slot.issued
        (c.slot.inFlight.map (·.ticket))].map (c.now, ·))
    rw [seen_stamped] at hseen
    refine .pending c.slot.issued ?_ ?_ rfl hv
    · rw [hseen]
      exact Latest.opened _ _ _ _
    · rw [hseen]
      rintro k r hk hmem
      rcases awaits_append.mp hk with hk | hk
      · exact absurd (hroll.known k _ hk).2 (Nat.lt_irrefl _)
      · obtain rfl : k = c.callers.length := by simpa [Awaits] using hk
        exact absurd (hroll.returned _ r (by simpa using hmem)) (Nat.lt_irrefl _)
  | called t hs hd =>
    exact h.still rfl rfl (Nat.le_refl _) (by simp [Event.turns]) fun s _ hu =>
      hu.append (by simp [Awaits]) (by simp)
  | answered t r hs hd =>
    exact h.still rfl rfl (Nat.le_refl _) (by simp [Event.turns]) fun s _ hu =>
      hu.append (by simp [Awaits]) (by simp)
  | finished k t r hc hs => exact h.finished hroll hc ((hsound.logged.settled t r).mpr hs)
  | dropped k t hc =>
    exact h.still rfl rfl (Nat.le_refl _) (by simp [Event.turns]) fun s _ hu =>
      hu.append (by simp [Awaits]) (by simp)
  | invalidated =>
    refine .bare ?_ rfl ?_
    · intro t
      rw [seen_append]
      exact Latest.not_invalidated _ t
    · intro p hp
      obtain ⟨q, -, rfl⟩ := Option.map_eq_some_iff.mp hp
      rfl
  | passed time =>
    exact h.still rfl rfl (Nat.le_add_right _ _) (by simp) fun s _ hu =>
      hu.append (by simp [Awaits]) (by simp)

end Shelf

/-! ### Runs -/

theorem Move.ttl {c c' : TimedCache ε α} {events : List (Event ε α)} (m : Move c c' events) :
    c'.ttl = c.ttl := by
  cases m <;> rfl

theorem Move.now_le {c c' : TimedCache ε α} {events : List (Event ε α)} (m : Move c c' events) :
    c.now ≤ c'.now := by
  cases m with
  | passed time => exact Nat.le_add_right c.now time
  | served | joined | opened | called | answered | finished | dropped | invalidated =>
    exact Nat.le_refl c.now

theorem Move.issues {c c' : TimedCache ε α} {events : List (Event ε α)} (m : Move c c' events) :
    c.slot.issued ≤ c'.slot.issued ∧
      ∀ k t overtaken, .opened k t overtaken ∈ events → t = c.slot.issued := by
  cases m with
  | opened hv hp =>
    refine ⟨Nat.le_succ _, fun k t overtaken hmem => ?_⟩
    rcases List.mem_cons.mp hmem with hmem | hmem
    · cases hmem
    · cases List.mem_singleton.mp hmem
      rfl
  | finished k t r hc hs => exact ⟨Nat.le_of_eq (Slot.conclude_issued t r c.now c.slot).symm, by simp⟩
  | served | joined | called | answered | dropped | invalidated | passed =>
    exact ⟨Nat.le_refl _, by simp⟩

/-- A cache goes on from another one. -/
structure Since (c c' : TimedCache ε α) (later : List (Event ε α)) : Prop where
  ttl : c'.ttl = c.ttl
  now : c.now ≤ c'.now
  issued : c.slot.issued ≤ c'.slot.issued
  opened : ∀ k t overtaken, .opened k t overtaken ∈ later → c.slot.issued ≤ t

theorem since_runFrom (c : TimedCache ε α) (acts : List (Act ε α)) :
    Since c (c.runFrom acts).1 (seen (c.runFrom acts).2) := by
  refine runFrom_induct_seen (P := Since c) ⟨rfl, Nat.le_refl _, Nat.le_refl _, nofun⟩ ?_ acts
  intro mid later c' events h m
  refine ⟨m.ttl.trans h.ttl, Nat.le_trans h.now m.now_le, Nat.le_trans h.issued m.issues.1, ?_⟩
  intro k t overtaken hmem
  rcases List.mem_append.mp hmem with hmem | hmem
  · exact h.opened k t overtaken hmem
  · rw [m.issues.2 k t overtaken hmem]
    exact h.issued

/-- What holds of a cache and of all that was told of it. -/
structure Kept (c : TimedCache ε α) (history : List (Duration × Event ε α)) : Prop where
  sound : Sound c (seen history)
  roll : Roll c (seen history)
  shelf : Shelf c history

theorem Kept.move {c c' : TimedCache ε α} {history : List (Duration × Event ε α)}
    {events : List (Event ε α)} (h : Kept c history) (m : Move c c' events) :
    Kept c' (history ++ events.map (c.now, ·)) where
  sound := by
    rw [seen_append, seen_stamped]
    exact h.sound.move m
  roll := by
    rw [seen_append, seen_stamped]
    exact h.roll.move h.sound.chained m
  shelf := h.shelf.move h.roll h.sound m

theorem kept_run (ttl : Duration) (acts : List (Act ε α)) :
    Kept (run ttl acts).1 (run ttl acts).2 := by
  refine runFrom_induct (P := Kept) ⟨.new ttl 0, .new ttl 0, .bare ?_ rfl nofun⟩ Kept.move acts
  rintro t ⟨before, k, o, after, heq, -⟩
  exact absurd heq (by simp [seen])

/-- **What can be read again was taken since.** -/
theorem Kept.taken_since {c : TimedCache ε α} {past : List (Duration × Event ε α)} (h : Kept c past)
    {more : List (Act ε α)} (hlater : Kept (c.runFrom more).1 (past ++ (c.runFrom more).2)) {value : α}
    (hnone : c.peek = none) (hsome : (c.runFrom more).1.peek = some value) :
    ∃ ticket caller time, Latest (seen (past ++ (c.runFrom more).2)) ticket ∧
      .settled ticket (.ok value) ∈ seen (past ++ (c.runFrom more).2) ∧
      Awaits (seen (past ++ (c.runFrom more).2)) caller ticket ∧
      (time, .returned caller (.ok value)) ∈ (c.runFrom more).2 := by
  have hsince := since_runFrom c more
  generalize (c.runFrom more).1 = c', (c.runFrom more).2 = later at *
  obtain ⟨ticket, time, hlatest, hsettled, ⟨before, caller, after, heq, hawaits, huntaken⟩, -, hfresh⟩ :=
    (hlater.shelf.peek_iff value).mp hsome
  have hwaited : Awaits (seen (past ++ later)) caller ticket := by
    rw [heq, seen_append]
    exact hawaits.append _
  refine ⟨ticket, caller, time, hlatest, hsettled, hwaited, ?_⟩
  rcases List.append_eq_append_iff.mp heq with ⟨mid, -, hrest⟩ | ⟨mid, hpast, hrest⟩
  · rw [hrest]
    exact List.mem_append_right mid List.mem_cons_self
  · cases mid with
    | nil =>
      rw [List.nil_append] at hrest
      rw [← hrest]
      exact List.mem_cons_self
    | cons first mid =>
      -- had it been taken before, it could have been read
      obtain ⟨rfl, -⟩ := List.cons.inj hrest
      have htaken : TakenAt past ticket time (.ok value) :=
        ⟨before, caller, mid, hpast, hawaits, huntaken⟩
      have hknown : ticket < c.slot.issued := by
        refine (h.roll.known caller ticket ?_).2
        rw [hpast, seen_append]
        exact hawaits.append _
      have hbefore : Latest (seen past) ticket := by
        rw [seen_append] at hlatest
        refine hlatest.of_append.resolve_right ?_
        rintro ⟨k, overtaken, hmem⟩
        exact absurd (hsince.opened k ticket overtaken hmem) (Nat.not_le_of_lt hknown)
      have hread : c.peek = some value := by
        refine (h.shelf.peek_of_taken hbefore htaken value).mpr ⟨rfl, ?_⟩
        rw [← hsince.ttl]
        exact Nat.lt_of_le_of_lt (Nat.sub_le_sub_right hsince.now time) hfresh
      rw [hnone] at hread
      cases hread

/-! ### A new caller -/

theorem get_of_peek {c : TimedCache ε α} {value : α} (h : c.peek = some value) :
    (c.step .get).2 = [.began c.callers.length, .served c.callers.length value,
      .returned c.callers.length (.ok value)] := by
  have hpeek : c.slot.peek c.ttl c.now = some value := h
  show c.get.2 = _
  unfold get Slot.serve
  rw [hpeek]

/-- A caller that finds none waits for a fetch. -/
theorem get_of_peek_eq_none {c : TimedCache ε α} (h : c.peek = none) :
    ∃ ticket, (c.step .get).1.callers = c.callers ++ [.waiting ticket] ∧
      ((c.step .get).2 = [.began c.callers.length, .joined c.callers.length ticket] ∨
        ∃ overtaken, (c.step .get).2 =
          [.began c.callers.length, .opened c.callers.length ticket overtaken]) := by
  have hpeek : c.slot.peek c.ttl c.now = none := h
  show ∃ ticket, c.get.1.callers = _ ∧ (c.get.2 = _ ∨ ∃ overtaken, c.get.2 = _)
  unfold get Slot.serve
  rw [hpeek]
  cases c.slot.inFlight with
  | none => exact ⟨_, rfl, Or.inr ⟨_, rfl⟩⟩
  | some p =>
    obtain ⟨ticket, stale⟩ := p
    cases stale with
    | false => exact ⟨_, rfl, Or.inl rfl⟩
    | true => exact ⟨_, rfl, Or.inr ⟨_, rfl⟩⟩

/-- **What can be read, and for how long.** After any acts on a cache, with any time to live:

* What can be read, and what a new caller returns with at once and without a fetch, is the value of the
  fetch that was opened last, if nothing was invalidated since, if a caller that waited for it has taken
  the value, and if the first one to do so did less than the time to live ago.
* Otherwise nothing can be read, and a new caller joins a fetch or opens one.
* While a fetch is the latest one and whatever is done meanwhile, by readers or by callers that take its
  result later, its value can be read up to the same instant.
* If nothing can be read and something can after some more acts, then a caller of what is the latest
  fetch by then has taken its value in between. A fetch that fails, that is overtaken by an invalidation
  or whose callers go away therefore makes nothing readable. -/
theorem readable_exactly (ttl : Duration) (acts : List (Act ε α)) :
    (∀ value,
      ((run ttl acts).1.peek = some value ↔
        Readable ttl (run ttl acts).1.now (run ttl acts).2 value) ∧
      (((run ttl acts).1.step .get).2 =
          [.began (run ttl acts).1.callers.length, .served (run ttl acts).1.callers.length value,
            .returned (run ttl acts).1.callers.length (.ok value)] ↔
        Readable ttl (run ttl acts).1.now (run ttl acts).2 value)) ∧
    ((∀ value, ¬Readable ttl (run ttl acts).1.now (run ttl acts).2 value) →
      (run ttl acts).1.peek = none ∧
      ∃ ticket, ((run ttl acts).1.step .get).1.callers =
          (run ttl acts).1.callers ++ [.waiting ticket] ∧
        (((run ttl acts).1.step .get).2 = [.began (run ttl acts).1.callers.length,
            .joined (run ttl acts).1.callers.length ticket] ∨
          ∃ overtaken, ((run ttl acts).1.step .get).2 = [.began (run ttl acts).1.callers.length,
            .opened (run ttl acts).1.callers.length ticket overtaken])) ∧
    (∀ ticket time value more, TakenAt (run ttl acts).2 ticket time (.ok value) →
      Latest (seen (run ttl (acts ++ more)).2) ticket →
      ∀ v, (run ttl (acts ++ more)).1.peek = some v ↔
        value = v ∧ (run ttl (acts ++ more)).1.now - time < ttl) ∧
    ∀ value more, (run ttl acts).1.peek = none → (run ttl (acts ++ more)).1.peek = some value →
      ∃ ticket caller time, Latest (seen (run ttl (acts ++ more)).2) ticket ∧
        .settled ticket (.ok value) ∈ seen (run ttl (acts ++ more)).2 ∧
        Awaits (seen (run ttl (acts ++ more)).2) caller ticket ∧
        (time, .returned caller (.ok value)) ∈ ((run ttl acts).1.runFrom more).2 := by
  have h := kept_run ttl acts
  have httl : ∀ acts : List (Act ε α), (run ttl acts).1.ttl = ttl := fun acts =>
    (since_runFrom (new ttl 0) acts).ttl
  have hpeek : ∀ value, (run ttl acts).1.peek = some value ↔
      Readable ttl (run ttl acts).1.now (run ttl acts).2 value := by
    intro value
    have hiff := h.shelf.peek_iff value
    rwa [httl] at hiff
  refine ⟨fun value => ⟨hpeek value, ?_⟩, ?_, ?_, ?_⟩
  · rw [← hpeek]
    refine ⟨fun hget => ?_, get_of_peek⟩
    cases hnone : (run ttl acts).1.peek with
    | some v =>
      rw [get_of_peek hnone] at hget
      cases hget
      rfl
    | none =>
      obtain ⟨ticket, -, hjoined | ⟨overtaken, hopened⟩⟩ := get_of_peek_eq_none hnone
      · rw [hjoined] at hget
        cases hget
      · rw [hopened] at hget
        cases hget
  · intro hnot
    have hnone : (run ttl acts).1.peek = none :=
      Option.eq_none_iff_forall_ne_some.mpr fun value hsome => hnot value ((hpeek value).mp hsome)
    exact ⟨hnone, get_of_peek_eq_none hnone⟩
  · intro ticket time value more htaken hlatest v
    have hstill : TakenAt (run ttl (acts ++ more)).2 ticket time (.ok value) := by
      rw [run, runFrom_append]
      exact htaken.append _
    have hiff := (kept_run ttl (acts ++ more)).shelf.peek_of_taken hlatest hstill v
    rwa [httl] at hiff
  · intro value more hnone hsome
    have hlater := kept_run ttl (acts ++ more)
    have hrun : run ttl (acts ++ more) = (((run ttl acts).1.runFrom more).1,
      (run ttl acts).2 ++ ((run ttl acts).1.runFrom more).2) := runFrom_append _ acts more
    rw [hrun] at hlater hsome ⊢
    exact h.taken_since hlater hnone hsome

/-- One of two callers takes the result at once and the other one four nanoseconds later, and a third one
finds it in the cache. It is gone when five have passed. -/
theorem late_caller_renews_nothing :
    (run 5 ([.get, .get, .call 0, .settle 0 (.ok 7)] ++ [.pass 4, .finish 1, .get] :
      List (Act Unit Nat))).1.peek = some 7 ∧
    ∀ v, (run 5 ([.get, .get, .call 0, .settle 0 (.ok 7)] ++ [.pass 4, .finish 1, .get, .pass 1] :
      List (Act Unit Nat))).1.peek ≠ some v := by
  have htaken : TakenAt (run 5 ([.get, .get, .call 0, .settle 0 (.ok 7)] : List (Act Unit Nat))).2 0 0
      (.ok 7) := by
    refine ⟨[(0, .began 0), (0, .opened 0 0 none), (0, .began 1), (0, .joined 1 0), (0, .called 0),
      (0, .settled 0 (.ok 7))], 0, [], rfl, Or.inr ⟨none, by simp [seen]⟩, fun k result _ => ?_⟩
    simp [seen]
  obtain ⟨-, -, hlasts, -⟩ := readable_exactly 5
    ([.get, .get, .call 0, .settle 0 (.ok 7)] : List (Act Unit Nat))
  refine ⟨?_, fun v hv => ?_⟩
  · refine (hlasts 0 0 7 [.pass 4, .finish 1, .get] htaken ?_ 7).mpr ⟨rfl, by decide⟩
    exact ⟨[.began 0], 0, none, _, rfl, by simp [Event.turns]⟩
  · have hfresh := ((hlasts 0 0 7 [.pass 4, .finish 1, .get, .pass 1] htaken ?_ v).mp hv).2
    · exact absurd hfresh (by decide)
    · exact ⟨[.began 0], 0, none, _, rfl, by simp [Event.turns]⟩

end IntentLoop.Cache.TimedCache
