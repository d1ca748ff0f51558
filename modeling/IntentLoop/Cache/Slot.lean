import IntentLoop.Duration
import IntentLoop.Result
/-!
# The slot of a cache

A slot remembers at most one value with the instant at which it was stored, and at most one fetch that
is under way. Fetches have tickets, counted from zero. A fetch that was under way at an invalidation
is stale: its result still goes to those who wait for it, and is never stored.
-/

namespace IntentLoop.Cache

structure Entry (α : Type) where
  value : α
  fetchedAt : Duration
  deriving DecidableEq

namespace Entry

variable {α : Type}

def age (e : Entry α) (now : Duration) : Duration := now - e.fetchedAt

/-- An entry is fresh while it is younger than `ttl`. -/
def isFresh (e : Entry α) (ttl now : Duration) : Bool := e.age now < ttl

end Entry

/-- The fetch that is under way. -/
structure Pending where
  ticket : Nat
  stale : Bool
  deriving DecidableEq

structure Slot (α : Type) where
  entry : Option (Entry α)
  inFlight : Option Pending
  /-- Tickets given out so far. -/
  issued : Nat
  deriving DecidableEq

/-- How a reader is served. -/
inductive Service (α : Type) where
  /-- From the entry. -/
  | served (value : α)
  /-- By the fetch that is under way. -/
  | joined (ticket : Nat)
  /-- By a new fetch, which has to let the overtaken one settle first. -/
  | opened (ticket : Nat) (overtaken : Option Nat)
  deriving DecidableEq

namespace Slot

variable {ε α : Type}

def empty : Slot α := { entry := none, inFlight := none, issued := 0 }

/-- The value of a fresh entry. -/
def peek (ttl now : Duration) (s : Slot α) : Option α :=
  (s.entry.filter (·.isFresh ttl now)).map (·.value)

theorem entry_of_peek {ttl now : Duration} {s : Slot α} {value : α}
    (h : s.peek ttl now = some value) : ∃ e, s.entry = some e ∧ e.value = value := by
  obtain ⟨e, he, hv⟩ := Option.map_eq_some_iff.mp h
  exact ⟨e, (Option.filter_eq_some_iff.mp he).1, hv⟩

/-- A reader comes. -/
def serve (ttl now : Duration) (s : Slot α) : Service α × Slot α :=
  match s.peek ttl now with
  | some value => (.served value, s)
  | none =>
    match s.inFlight with
    | some { ticket, stale := false } => (.joined ticket, s)
    | overtaken =>
      (.opened s.issued (overtaken.map (·.ticket)),
        { s with inFlight := some { ticket := s.issued, stale := false }, issued := s.issued + 1 })

/-- A waiter of a fetch has its result. The first one for which the fetch is still the one under way
clears it, and stores a value unless the fetch is stale. -/
def conclude (ticket : Nat) (result : Except ε α) (now : Duration) (s : Slot α) : Slot α :=
  match s.inFlight with
  | some p =>
    if p.ticket = ticket then
      match result with
      | .ok value =>
        if p.stale then { s with inFlight := none }
        else { s with inFlight := none, entry := some { value, fetchedAt := now } }
      | .error _ => { s with inFlight := none }
    else s
  | none => s

theorem conclude_of_ne {ticket : Nat} {s : Slot α} (h : ∀ p, s.inFlight = some p → p.ticket ≠ ticket)
    (result : Except ε α) (now : Duration) : s.conclude ticket result now = s := by
  rw [conclude]
  cases hp : s.inFlight with
  | none => rfl
  | some p => exact if_neg (h p hp)

theorem conclude_inFlight {ticket : Nat} {s : Slot α} {p : Pending} (h : s.inFlight = some p)
    (hp : p.ticket = ticket) (result : Except ε α) (now : Duration) :
    (s.conclude ticket result now).inFlight = none := by
  rw [conclude, h]
  cases result with
  | ok value => cases hs : p.stale <;> simp [hp, hs]
  | error error => simp [hp]

theorem inFlight_of_conclude {ticket : Nat} {s : Slot α} {result : Except ε α} {now : Duration}
    {p : Pending} (h : (s.conclude ticket result now).inFlight = some p) : s.inFlight = some p := by
  by_cases hq : ∃ q, s.inFlight = some q ∧ q.ticket = ticket
  · obtain ⟨q, hq, hqt⟩ := hq
    rw [conclude_inFlight hq hqt] at h
    cases h
  · rw [conclude_of_ne (fun q h1 h2 => hq ⟨q, h1, h2⟩)] at h
    exact h

/-- An entry was there before, or is the value of the fetch that was under way and is not stale. -/
theorem conclude_entry {ticket : Nat} {s : Slot α} {result : Except ε α} {now : Duration}
    {e : Entry α} (h : (s.conclude ticket result now).entry = some e) :
    s.entry = some e ∨
      s.inFlight = some { ticket, stale := false } ∧ result = .ok e.value ∧ e.fetchedAt = now := by
  by_cases hp : ∃ p, s.inFlight = some p ∧ p.ticket = ticket
  · obtain ⟨⟨t, stale⟩, hp, rfl⟩ := hp
    rw [conclude, hp] at h
    cases result with
    | error error => simp only [if_pos] at h; exact Or.inl h
    | ok value =>
      cases stale with
      | true => simp only [if_pos] at h; exact Or.inl h
      | false =>
        simp only [if_pos, Bool.false_eq_true, if_false, Option.some.injEq] at h
        subst h
        exact Or.inr ⟨hp, rfl, rfl⟩
  · rw [conclude_of_ne (fun p h1 h2 => hp ⟨p, h1, h2⟩)] at h
    exact Or.inl h

@[simp] theorem conclude_issued (ticket : Nat) (result : Except ε α) (now : Duration) (s : Slot α) :
    (s.conclude ticket result now).issued = s.issued := by
  by_cases hp : ∃ p, s.inFlight = some p ∧ p.ticket = ticket
  · obtain ⟨p, hp, rfl⟩ := hp
    rw [conclude, hp]
    cases result with
    | error error => simp
    | ok value => cases hs : p.stale <;> simp [hs]
  · rw [conclude_of_ne (fun p h1 h2 => hp ⟨p, h1, h2⟩)]

/-- Forget the value, and do not store the result of the fetch that is under way. -/
def invalidate (s : Slot α) : Slot α :=
  { s with entry := none, inFlight := s.inFlight.map fun p => { p with stale := true } }

end Slot

end IntentLoop.Cache
