import IntentLoop.Proofs.Cache.Moves
/-!
# One refresh at a time

No lock is held while a refresh runs. What keeps two refreshes of a cache apart is the chain in
which fetches are opened: a fetch that finds another one under way waits for that one, which may
itself wait for an earlier one, and so on. `Chained` is what every move keeps of this:

* the fetch in the slot is the one that was opened last, and an empty slot means that all fetches
  have settled;
* a fetch that waits does so for the one just before it, and one that does not wait was opened when
  all earlier ones had settled;
* before a fetch calls its refresh, all earlier ones have settled.

What was seen of a run tells the stages of its fetches (`Logged`), and so in every run the refreshes
are called in the order of their tickets, none twice, and each one only when all earlier fetches
have settled.
-/

namespace IntentLoop.Cache

variable {ε α : Type}

/-- How the fetches of a cache hang together, and the slot with them. -/
structure Chained (fs : List (Flight ε α)) (slot : Slot α) : Prop where
  issued : slot.issued = fs.length
  registered : ∀ p, slot.inFlight = some p → p.ticket + 1 = fs.length
  idle : slot.inFlight = none → ∀ t < fs.length, Settled fs t
  waits : ∀ t e, overtakenBy fs t = some (some e) → e + 1 = t
  free : ∀ t, overtakenBy fs t = some none → ∀ s < t, Settled fs s
  begun : ∀ t stage, stageOf fs t = some stage → stage ≠ .held → ∀ s < t, Settled fs s

namespace Chained

theorem empty : Chained ([] : List (Flight ε α)) .empty where
  issued := rfl
  registered := by intro p h; cases h
  idle := by intro _ t ht; exact absurd ht (Nat.not_lt_zero t)
  waits := by intro t e h; cases h
  free := by intro t h; cases h
  begun := by intro t stage h; cases h

theorem opened {fs : List (Flight ε α)} {slot : Slot α} (h : Chained fs slot) :
    Chained (fs ++ [{ overtaken := slot.inFlight.map (·.ticket), stage := .held }])
      { slot with
        inFlight := some { ticket := slot.issued, stale := false }
        issued := slot.issued + 1 } := by
  have kept : ∀ s, Settled fs s → Settled (fs ++ [⟨slot.inFlight.map (·.ticket), .held⟩]) s := by
    intro s hs
    obtain ⟨r, hr⟩ := hs
    refine ⟨r, ?_⟩
    rw [stageOf_append_singleton, if_neg (Nat.ne_of_lt (lt_length_of_stageOf hr)), hr]
  refine ⟨?_, ?_, ?_, ?_, ?_, ?_⟩
  · rw [List.length_append, h.issued, List.length_singleton]
  · intro p hp
    cases hp
    rw [List.length_append, h.issued, List.length_singleton]
  · intro hp
    cases hp
  · intro t e he
    rw [overtakenBy_append_singleton] at he
    split at he
    · rename_i ht
      rw [Option.some.injEq, Option.map_eq_some_iff] at he
      obtain ⟨p, hp, rfl⟩ := he
      rw [ht]
      exact h.registered p hp
    · exact h.waits t e he
  · intro t he s hs
    rw [overtakenBy_append_singleton] at he
    split at he
    · rename_i ht
      rw [Option.some.injEq, Option.map_eq_none_iff] at he
      exact kept s (h.idle he s (ht ▸ hs))
    · exact kept s (h.free t he s hs)
  · intro t stage ht hne s hs
    rw [stageOf_append_singleton] at ht
    split at ht
    · exact absurd (Option.some.inj ht).symm hne
    · exact kept s (h.begun t stage ht hne s hs)

theorem settled_setStage {c : TimedCache ε α} {t s : Nat} {old stage : FlightStage ε α}
    (ht : stageOf c.flights t = some old) (hold : ∀ r, old ≠ .settled r)
    (hs : Settled c.flights s) : Settled (c.setStage t stage).flights s := by
  obtain ⟨r, hr⟩ := hs
  refine ⟨r, ?_⟩
  rw [TimedCache.stageOf_setStage (lt_length_of_stageOf ht), if_neg ?_, hr]
  intro hst
  rw [hst, ht] at hr
  exact hold r (Option.some.inj hr)

theorem setStage {c : TimedCache ε α} (h : Chained c.flights c.slot) {t : Nat}
    {old stage : FlightStage ε α} (ht : stageOf c.flights t = some old)
    (hold : ∀ r, old ≠ .settled r) (hall : ∀ s < t, Settled c.flights s) :
    Chained (c.setStage t stage).flights (c.setStage t stage).slot := by
  have kept : ∀ s, Settled c.flights s → Settled (c.setStage t stage).flights s :=
    fun s hs => settled_setStage ht hold hs
  refine ⟨?_, ?_, ?_, ?_, ?_, ?_⟩
  · rw [TimedCache.setStage_length]
    exact h.issued
  · intro p hp
    rw [TimedCache.setStage_length]
    exact h.registered p hp
  · intro hp s hs
    rw [TimedCache.setStage_length] at hs
    exact kept s (h.idle hp s hs)
  · intro s e he
    rw [TimedCache.overtakenBy_setStage] at he
    exact h.waits s e he
  · intro s he u hu
    rw [TimedCache.overtakenBy_setStage] at he
    exact kept u (h.free s he u hu)
  · intro s stage' hs hne u hu
    rw [TimedCache.stageOf_setStage (lt_length_of_stageOf ht)] at hs
    split at hs
    · rename_i hst
      exact kept u (hall u (hst ▸ hu))
    · exact kept u (h.begun s stage' hs hne u hu)

theorem concluded {fs : List (Flight ε α)} {slot : Slot α} (h : Chained fs slot) {t : Nat}
    {result : Except ε α} (ht : stageOf fs t = some (.settled result)) (now : Duration) :
    Chained fs (slot.conclude t result now) := by
  have all : ∀ p, slot.inFlight = some p → p.ticket = t → ∀ s < fs.length, Settled fs s := by
    intro p hp hpt s hs
    have hlast := h.registered p hp
    by_cases hst : s = t
    · exact hst ▸ ⟨result, ht⟩
    · exact h.begun t _ ht (by simp) s (by omega)
  by_cases hp : ∃ p, slot.inFlight = some p ∧ p.ticket = t
  · obtain ⟨p, hp, hpt⟩ := hp
    have hnone : (slot.conclude t result now).inFlight = none :=
      Slot.conclude_inFlight hp hpt result now
    refine ⟨?_, ?_, fun _ => all p hp hpt, h.waits, h.free, h.begun⟩
    · rw [Slot.conclude_issued]
      exact h.issued
    · intro q hq
      rw [hnone] at hq
      cases hq
  · rw [Slot.conclude_of_ne (fun p h1 h2 => hp ⟨p, h1, h2⟩)]
    exact h

theorem invalidated {fs : List (Flight ε α)} {slot : Slot α} (h : Chained fs slot) :
    Chained fs slot.invalidate where
  issued := h.issued
  registered := by
    intro p hp
    obtain ⟨q, hq, rfl⟩ := Option.map_eq_some_iff.mp hp
    exact h.registered q hq
  idle := by
    intro hp
    exact h.idle (Option.map_eq_none_iff.mp hp)
  waits := h.waits
  free := h.free
  begun := h.begun

/-- Whoever moves a fetch whose refresh is still to be called has seen the fetch before it
settle. -/
theorem settled_of_root {c : TimedCache ε α} (h : Chained c.flights c.slot) {t e : Nat}
    (hs : stageOf c.flights t = some .held) (ho : overtakenBy c.flights t = some (some e)) :
    ∀ fuel ticket, ticket ≤ fuel → c.root fuel ticket = t → Settled c.flights e := by
  intro fuel
  induction fuel with
  | zero =>
    intro ticket hle hroot
    have hw := h.waits t e ho
    rw [TimedCache.root] at hroot
    omega
  | succ fuel ih =>
    intro ticket hle hroot
    rw [TimedCache.root] at hroot
    split at hroot
    · rename_i earlier hf
      have ho' : overtakenBy c.flights ticket = some (some earlier) := by
        rw [overtakenBy, hf, Option.map_some]
      split at hroot
      · rename_i hr
        rw [← hroot, ho'] at ho
        obtain ⟨r, hr⟩ := Option.isSome_iff_exists.mp hr
        cases ho
        exact ⟨r, (c.result?_eq_some_iff e r).mp hr⟩
      · have hw := h.waits ticket earlier ho'
        exact ih earlier (by omega) hroot
    · rename_i hno
      rw [hroot] at hno
      obtain ⟨f, hf, hstage⟩ := Option.map_eq_some_iff.mp hs
      obtain ⟨o, stage⟩ := f
      rw [overtakenBy, hf, Option.map_some] at ho
      cases hstage
      cases ho
      exact absurd hf (hno e)

/-- **When a refresh can be called, all earlier fetches have settled.** -/
theorem settled_of_isDriven {c : TimedCache ε α} (h : Chained c.flights c.slot) {t : Nat}
    (hs : stageOf c.flights t = some .held) (hd : c.isDriven t) :
    ∀ s < t, Settled c.flights s := by
  rw [TimedCache.isDriven, List.any_eq_true] at hd
  obtain ⟨caller, -, hroot⟩ := hd
  cases caller with
  | returned r => simp at hroot
  | dropped => simp at hroot
  | waiting ticket =>
    replace hroot : c.root ticket ticket = t := by simpa [TimedCache.rootOf] using hroot
    obtain ⟨f, hf, -⟩ := Option.map_eq_some_iff.mp hs
    have ho : overtakenBy c.flights t = some f.overtaken := by
      rw [overtakenBy, hf, Option.map_some]
    cases hov : f.overtaken with
    | none => exact h.free t (hov ▸ ho)
    | some e =>
      rw [hov] at ho
      intro s hst
      have hw := h.waits t e ho
      obtain ⟨r, hr⟩ := h.settled_of_root hs ho ticket ticket (Nat.le_refl ticket) hroot
      by_cases hse : s = e
      · exact hse ▸ ⟨r, hr⟩
      · exact h.begun e _ hr (by simp) s (by omega)

end Chained

/-! ### What was seen of the fetches -/

namespace TimedCache

/-- The fetch whose refresh was called. -/
def Event.call? : Event ε α → Option Nat
  | .called ticket => some ticket
  | _ => none

/-- The fetch that settled, and how. -/
def Event.settled? : Event ε α → Option (Nat × Except ε α)
  | .settled ticket result => some (ticket, result)
  | _ => none

/-- The calls of the refresh by ticket, in order. -/
def calls (past : List (Event ε α)) : List Nat := past.filterMap Event.call?

theorem mem_calls {past : List (Event ε α)} {t : Nat} : t ∈ calls past ↔ .called t ∈ past := by
  rw [calls, List.mem_filterMap]
  constructor
  · rintro ⟨event, hmem, hcall⟩
    cases event <;> cases hcall
    exact hmem
  · intro h
    exact ⟨_, h, rfl⟩

/-- What was seen of a run tells the stages of its fetches. -/
structure Logged (fs : List (Flight ε α)) (past : List (Event ε α)) : Prop where
  called : ∀ t, .called t ∈ past ↔ ∃ stage, stageOf fs t = some stage ∧ stage ≠ .held
  settled : ∀ t r, .settled t r ∈ past ↔ stageOf fs t = some (.settled r)

/-- Refreshes were called in the order of their tickets, each when all earlier fetches had
settled. -/
structure InTurn (past : List (Event ε α)) : Prop where
  increasing : (calls past).Pairwise (· < ·)
  settled : ∀ before t, before ++ [.called t] <+: past → ∀ s < t, ∃ r, .settled s r ∈ before

/-- Nothing of the kind happened. -/
def Unfetched (events : List (Event ε α)) : Prop :=
  ∀ event ∈ events, event.call? = none ∧ event.settled? = none

theorem Logged.unfetched {fs : List (Flight ε α)} {past events : List (Event ε α)}
    (h : Logged fs past) (hu : Unfetched events) : Logged fs (past ++ events) where
  called := by
    intro t
    rw [List.mem_append, ← h.called t, or_iff_left]
    intro hmem
    cases (hu _ hmem).1
  settled := by
    intro t r
    rw [List.mem_append, ← h.settled t r, or_iff_left]
    intro hmem
    cases (hu _ hmem).2

theorem prefix_of_not_mem {β : Type} {b : β} {before past events : List β} (hb : b ∉ events)
    (h : before ++ [b] <+: past ++ events) : before ++ [b] <+: past := by
  induction events generalizing past with
  | nil => rwa [List.append_nil] at h
  | cons e rest ih =>
    rw [List.mem_cons, not_or] at hb
    rw [List.append_cons past e rest] at h
    rcases List.prefix_concat_iff.mp (ih hb.2 h) with heq | hpre
    · have hbe := (List.append_inj' heq rfl).2
      exact absurd (List.head_eq_of_cons_eq hbe) hb.1
    · exact hpre

theorem InTurn.uncalled {past events : List (Event ε α)} (h : InTurn past)
    (hu : ∀ event ∈ events, event.call? = none) : InTurn (past ++ events) where
  increasing := by
    rw [calls, List.filterMap_append, List.filterMap_eq_nil_iff.mpr hu, List.append_nil]
    exact h.increasing
  settled := by
    intro before t hpre
    exact h.settled before t (prefix_of_not_mem (fun hmem => by cases hu _ hmem) hpre)

theorem Logged.opened {fs : List (Flight ε α)} {past : List (Event ε α)} (h : Logged fs past)
    (overtaken : Option Nat) : Logged (fs ++ [{ overtaken, stage := .held }]) past where
  called := by
    intro t
    rw [h.called t, stageOf_append_singleton]
    by_cases ht : t = fs.length
    · rw [if_pos ht, stageOf, List.getElem?_eq_none (Nat.le_of_eq ht.symm)]
      simp
    · rw [if_neg ht]
  settled := by
    intro t r
    rw [h.settled t r, stageOf_append_singleton]
    by_cases ht : t = fs.length
    · rw [if_pos ht, stageOf, List.getElem?_eq_none (Nat.le_of_eq ht.symm)]
      simp
    · rw [if_neg ht]

theorem Logged.call {c : TimedCache ε α} {past : List (Event ε α)} (h : Logged c.flights past)
    {t : Nat} (ht : stageOf c.flights t = some .held) :
    Logged (c.setStage t .running).flights (past ++ [.called t]) where
  called := by
    intro s
    rw [List.mem_append, h.called s, List.mem_singleton, Event.called.injEq,
      stageOf_setStage (lt_length_of_stageOf ht)]
    by_cases hst : s = t
    · simp [hst]
    · simp [hst]
  settled := by
    intro s r
    rw [List.mem_append, h.settled s r, stageOf_setStage (lt_length_of_stageOf ht)]
    by_cases hst : s = t
    · simp [hst, ht]
    · simp [hst]

theorem Logged.answer {c : TimedCache ε α} {past : List (Event ε α)} (h : Logged c.flights past)
    {t : Nat} (ht : stageOf c.flights t = some .running) (result : Except ε α) :
    Logged (c.setStage t (.settled result)).flights (past ++ [.settled t result]) where
  called := by
    intro s
    rw [List.mem_append, h.called s, stageOf_setStage (lt_length_of_stageOf ht)]
    by_cases hst : s = t
    · simp [hst, ht]
    · simp [hst]
  settled := by
    intro s r
    rw [List.mem_append, h.settled s r, List.mem_singleton, Event.settled.injEq,
      stageOf_setStage (lt_length_of_stageOf ht)]
    by_cases hst : s = t
    · simp [hst, ht, eq_comm]
    · simp [hst]

theorem InTurn.call {c : TimedCache ε α} {past : List (Event ε α)} (h : InTurn past)
    (hl : Logged c.flights past) (hc : Chained c.flights c.slot) {t : Nat}
    (ht : stageOf c.flights t = some .held) (hall : ∀ s < t, Settled c.flights s) :
    InTurn (past ++ [.called t]) where
  increasing := by
    rw [calls, List.filterMap_append, List.pairwise_append]
    refine ⟨h.increasing, List.pairwise_singleton _ _, ?_⟩
    intro s hs u hu
    obtain ⟨stage, hstage, hne⟩ := (hl.called s).mp (mem_calls.mp hs)
    rw [List.mem_singleton.mp hu]
    -- had a later fetch been called already, this one would have settled before
    by_cases hst : s < t
    · exact hst
    · by_cases heq : s = t
      · rw [heq, ht] at hstage
        exact absurd (Option.some.inj hstage).symm hne
      · obtain ⟨r, hr⟩ := hc.begun s stage hstage hne t (by omega)
        rw [ht] at hr
        cases hr
  settled := by
    intro before u hpre s hs
    rcases List.prefix_concat_iff.mp hpre with heq | hpre
    · obtain ⟨rfl, hut⟩ := List.append_inj' heq rfl
      cases hut
      obtain ⟨r, hr⟩ := hall s hs
      exact ⟨r, (hl.settled s r).mpr hr⟩
    · exact h.settled before u hpre s hs

/-! ### Runs -/

/-- What holds of a cache and of what was seen of it so far. -/
structure Sound (c : TimedCache ε α) (past : List (Event ε α)) : Prop where
  chained : Chained c.flights c.slot
  logged : Logged c.flights past
  inTurn : InTurn past

theorem Sound.new (ttl now : Duration) : Sound (TimedCache.new ttl now : TimedCache ε α) [] where
  chained := .empty
  logged := by constructor <;> intros <;> simp [TimedCache.new, stageOf]
  inTurn := by
    refine ⟨List.Pairwise.nil, ?_⟩
    intro before t hpre
    exact absurd (List.prefix_nil.mp hpre) (by simp)

theorem Sound.still {c c' : TimedCache ε α} {past events : List (Event ε α)} (h : Sound c past)
    (hf : c'.flights = c.flights) (hs : Chained c.flights c'.slot) (hu : Unfetched events) :
    Sound c' (past ++ events) where
  chained := hf ▸ hs
  logged := hf ▸ h.logged.unfetched hu
  inTurn := h.inTurn.uncalled fun event hmem => (hu event hmem).1

theorem Sound.move {c c' : TimedCache ε α} {past events : List (Event ε α)} (h : Sound c past)
    (m : Move c c' events) : Sound c' (past ++ events) := by
  cases m with
  | served value hv =>
    exact h.still rfl h.chained (by simp [Unfetched, Event.call?, Event.settled?])
  | joined t hv hp => exact h.still rfl h.chained (by simp [Unfetched, Event.call?, Event.settled?])
  | opened hv hp =>
    have hu : Unfetched [(.began c.callers.length : Event ε α),
        .opened c.callers.length c.slot.issued (c.slot.inFlight.map (·.ticket))] := by
      simp [Unfetched, Event.call?, Event.settled?]
    exact ⟨h.chained.opened, (h.logged.opened _).unfetched hu,
      h.inTurn.uncalled fun event hmem => (hu event hmem).1⟩
  | called t hs hd =>
    have hall := h.chained.settled_of_isDriven hs hd
    exact ⟨h.chained.setStage hs (by simp) hall, h.logged.call hs,
      h.inTurn.call h.logged h.chained hs hall⟩
  | answered t r hs hd =>
    have hall := h.chained.begun t _ hs (by simp)
    exact ⟨h.chained.setStage hs (by simp) hall, h.logged.answer hs r,
      h.inTurn.uncalled (by simp [Event.call?])⟩
  | finished k t r hc hs =>
    exact h.still rfl (h.chained.concluded hs c.now)
      (by simp [Unfetched, Event.call?, Event.settled?])
  | dropped k t hc => exact h.still rfl h.chained (by simp [Unfetched, Event.call?, Event.settled?])
  | invalidated =>
    exact h.still rfl h.chained.invalidated (by simp [Unfetched, Event.call?, Event.settled?])
  | passed time => exact h.still rfl h.chained (by simp [Unfetched])

theorem sound_run (ttl : Duration) (acts : List (Act ε α)) :
    Sound (run ttl acts).1 (seen (run ttl acts).2) :=
  runFrom_induct_seen (Sound.new ttl 0) Sound.move acts

/-- The refresh of a fetch was called and has not answered. -/
def Unanswered (past : List (Event ε α)) (ticket : Nat) : Prop :=
  .called ticket ∈ past ∧ ∀ result, .settled ticket result ∉ past

theorem Sound.unanswered_iff {c : TimedCache ε α} {past : List (Event ε α)} (h : Sound c past)
    (t : Nat) : Unanswered past t ↔ stageOf c.flights t = some .running := by
  rw [Unanswered, h.logged.called t]
  simp only [h.logged.settled t]
  constructor
  · rintro ⟨⟨stage, hs, hne⟩, hun⟩
    cases stage with
    | held => exact absurd rfl hne
    | running => exact hs
    | settled r => exact absurd hs (hun r)
  · intro hs
    rw [hs]
    simp

/-- **At most one refresh is running.** -/
theorem Sound.unanswered_unique {c : TimedCache ε α} {past : List (Event ε α)} (h : Sound c past)
    {s t : Nat} (hs : Unanswered past s) (ht : Unanswered past t) : s = t := by
  rw [h.unanswered_iff] at hs ht
  have never : ∀ u v, u < v → stageOf c.flights u = some .running →
      stageOf c.flights v ≠ some .running := by
    intro u v huv hu hv
    obtain ⟨r, hr⟩ := h.chained.begun v _ hv (by simp) u huv
    rw [hu] at hr
    cases hr
  rcases Nat.lt_trichotomy s t with hlt | heq | hlt
  · exact absurd ht (never s t hlt hs)
  · exact heq
  · exact absurd hs (never t s hlt ht)

/-- **Refreshes are called one at a time and in turn.** After any acts, at most one call of the
refresh is unanswered; no fetch calls it twice; the calls are in the order of the tickets; and when
a fetch calls it, all earlier fetches have settled. -/
theorem refresh_one_at_a_time (ttl : Duration) (acts : List (Act ε α)) :
    (∀ s t, Unanswered (seen (run ttl acts).2) s → Unanswered (seen (run ttl acts).2) t → s = t) ∧
    (∀ t, (calls (seen (run ttl acts).2)).count t ≤ 1) ∧
    (calls (seen (run ttl acts).2)).Pairwise (· < ·) ∧
    (∀ before t, before ++ [.called t] <+: seen (run ttl acts).2 →
      ∀ s < t, ∃ r, .settled s r ∈ before) := by
  have h := sound_run ttl acts
  refine ⟨fun s t => h.unanswered_unique, ?_, h.inTurn.increasing, h.inTurn.settled⟩
  intro t
  have hnodup : (calls (seen (run ttl acts).2)).Nodup :=
    h.inTurn.increasing.imp fun hlt heq => absurd (heq ▸ hlt) (Nat.lt_irrefl _)
  exact List.nodup_iff_count.mp hnodup t

-- the third of three fetches, each overtaken by the next, is moved too soon twice
example :
    calls (seen (run (.ofSecs 60) ([.get, .call 0, .invalidate, .get, .invalidate, .get, .call 2,
      .settle 0 (.ok 5), .call 2, .call 1, .settle 1 (.ok 6), .call 2] : List (Act Unit Nat))).2) =
      [0, 1, 2] := by decide

end TimedCache

end IntentLoop.Cache
