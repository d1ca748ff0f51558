import IntentLoop.Proofs.Engine.Effects
import IntentLoop.Proofs.Engine.Streams
/-!
# Broadcasts that were closed

A teardown closes the broadcast before it does anything else. That alone settles what readers will find
(`Shut`): the states that were queued for them, and then the end. No act takes the close back.
-/

namespace IntentLoop

variable {σ ι ε : Type}

/-! ### A broadcast that was closed -/

namespace Broadcast

variable {b : Broadcast σ}

/-- The broadcast is closed, and feeds nobody. -/
structure Shut (b : Broadcast σ) : Prop where
  closed : b.closed = true
  unfed : ∀ stream ∈ b.streams, stream.attached = false

/-- The states queued for the reader of a stream. -/
def queued (n : Nat) (b : Broadcast σ) : List σ :=
  match b.streams[n]? with
  | some stream => if stream.held then stream.queue else []
  | none => []

theorem shut_close (b : Broadcast σ) : Shut b.close where
  closed := rfl
  unfed := by simp [close]

theorem queued_close (b : Broadcast σ) (n : Nat) : b.close.queued n = b.queued n := by
  unfold queued close
  rw [List.getElem?_map]
  cases b.streams[n]? <;> rfl

theorem queued_congr {b' : Broadcast σ} {n : Nat} (h : b'.streams[n]? = b.streams[n]?) :
    b'.queued n = b.queued n := by
  rw [queued, queued, h]

theorem queued_of_getElem? {n : Nat} {stream : StateStream σ} (h : b.streams[n]? = some stream) :
    b.queued n = if stream.held then stream.queue else [] := by
  rw [queued, h]

theorem queued_of_none {n : Nat} (h : b.streams[n]? = none) : b.queued n = [] := by
  rw [queued, h]

namespace Shut

theorem subscribe (h : Shut b) (n : Nat) : Shut b.subscribe ∧ b.subscribe.queued n = b.queued n := by
  refine ⟨⟨h.closed, ?_⟩, ?_⟩
  · intro stream hmem
    rcases List.mem_append.mp hmem with hmem | hmem
    · exact h.unfed stream hmem
    · rw [List.mem_singleton.mp hmem, h.closed]
      rfl
  · by_cases hn : n = b.streams.length
    · have hnew : b.subscribe.streams[n]? =
          some { queue := if b.closed then [] else [b.last], attached := !b.closed, held := true } :=
        (getElem?_append_singleton _ _ n).trans (if_pos hn)
      rw [queued_of_getElem? hnew, queued_of_none (List.getElem?_eq_none (Nat.le_of_eq hn.symm)),
        h.closed]
      rfl
    · exact queued_congr ((getElem?_append_singleton _ _ n).trans (if_neg hn))

theorem unsubscribe (h : Shut b) {k n : Nat} (hk : k ≠ n) :
    Shut (b.unsubscribe k) ∧ (b.unsubscribe k).queued n = b.queued n := by
  have hget : ∀ m, (b.unsubscribe k).streams[m]? =
      (fun s => if k = m then { s with held := false, queue := [] } else s) <$> b.streams[m]? :=
    fun m => List.getElem?_modify _ k b.streams m
  refine ⟨⟨h.closed, ?_⟩, ?_⟩
  · intro stream hmem
    obtain ⟨m, hm⟩ := List.mem_iff_getElem?.mp hmem
    rw [hget, Option.map_eq_map, Option.map_eq_some_iff] at hm
    obtain ⟨old, hold, rfl⟩ := hm
    have hunfed := h.unfed old (List.mem_of_getElem? hold)
    split <;> exact hunfed
  · refine queued_congr ?_
    rw [hget, Option.map_eq_map]
    simp [hk]

/-- A reader finds what is queued, one by one, and then the end. -/
theorem read (h : Shut b) (k n : Nat) :
    Shut (b.read k).2 ∧
      (b.read k).2.queued n = (if k = n then (b.queued n).tail else b.queued n) ∧
      (b.read k).1 = (match b.queued k with
        | s :: _ => .state s
        | [] => .ended) := by
  have hdry : b.queued k = [] → b.read k = (.ended, b) →
      Shut (b.read k).2 ∧
        (b.read k).2.queued n = (if k = n then (b.queued n).tail else b.queued n) ∧
        (b.read k).1 = (match b.queued k with
          | s :: _ => .state s
          | [] => .ended) := by
    intro hq hr
    rw [hr, hq]
    refine ⟨h, ?_, rfl⟩
    split
    · rename_i hkn
      rw [← hkn, hq]
      rfl
    · rfl
  cases hn : b.streams[k]? with
  | none => exact hdry (queued_of_none hn) (by rw [Broadcast.read, hn])
  | some stream =>
    have hqueued := queued_of_getElem? hn
    cases hh : stream.held with
    | false =>
      rw [hh] at hqueued
      refine hdry hqueued ?_
      unfold Broadcast.read
      rw [hn]
      simp [hh]
    | true =>
      rw [hh, if_pos rfl] at hqueued
      cases hq : stream.queue with
      | nil =>
        have hunfed := h.unfed stream (List.mem_of_getElem? hn)
        obtain ⟨hlt, hget⟩ := List.getElem?_eq_some_iff.mp hn
        have hsame : b.streams.set k stream = b.streams := hget ▸ List.set_getElem_self hlt
        refine hdry (hqueued.trans hq) ?_
        unfold Broadcast.read StateStream.read
        rw [hn]
        simp [hh, hq, hunfed, hsame]
      | cons s rest =>
        have hlt : k < b.streams.length := (List.getElem?_eq_some_iff.mp hn).1
        have hread : b.read k =
            (.state s, { b with streams := b.streams.set k { stream with queue := rest } }) := by
          unfold Broadcast.read StateStream.read
          rw [hn]
          simp [hh, hq]
        rw [hread, hqueued, hq]
        refine ⟨⟨h.closed, ?_⟩, ?_, rfl⟩
        · intro other hmem
          rcases List.mem_or_eq_of_mem_set hmem with hmem | rfl
          · exact h.unfed other hmem
          · exact h.unfed stream (List.mem_of_getElem? hn)
        · by_cases hkn : k = n
          · subst hkn
            rw [if_pos rfl, hqueued, hq, queued_of_getElem? (List.getElem?_set_self hlt)]
            exact if_pos hh
          · rw [if_neg hkn]
            exact queued_congr (List.getElem?_set_ne hkn)

end Shut

end Broadcast

namespace Engine

variable {S : Setup σ ι ε} {e : Engine σ ι}

/-! ### What the reader of a stream finds -/

def Event.reading? (stream : Nat) : Event σ ι ε → Option (Reading σ)
  | .found n reading => if n = stream then some reading else none
  | _ => none

/-- All that the reader of a stream has found. -/
def readingsIn (stream : Nat) (past : List (Event σ ι ε)) : List (Reading σ) :=
  past.filterMap (Event.reading? stream)

@[simp] theorem readingsIn_append (n : Nat) (past later : List (Event σ ι ε)) :
    readingsIn n (past ++ later) = readingsIn n past ++ readingsIn n later := List.filterMap_append

theorem Working.readings {n : Nat} {events : List (Event σ ι ε)} (h : Working events) :
    readingsIn n events = [] := by
  refine List.filterMap_eq_nil_iff.mpr fun event hmem => ?_
  have hevent := h event hmem
  cases event <;> first | rfl | cases hevent

/-! ### After the close -/

theorem Worked.shut {after : Engine σ ι × List (Event σ ι ε)} (h : Worked S e after)
    (hclosed : e.broadcast.closed = true) : after.1.broadcast = e.broadcast := by
  cases h with
  | ended | stopped | idle => rfl
  | received state previous _ _ i rest _ hr =>
    cases hr with
    | crashed | skipped => rfl
    | failed p effect => exact track_broadcast effect _
    | kept next effect => exact track_broadcast effect _
    | published next effect called hd hopen =>
      rw [hclosed] at hopen
      cases hopen
    | unnoticed next effect called p hd hopen =>
      rw [hclosed] at hopen
      cases hopen

theorem step_shut (S : Setup σ ι ε) (h : e.broadcast.Shut) (act : Act ι) :
    (e.step S act).1.broadcast.Shut := by
  have same : ∀ {after : Engine σ ι × List (Event σ ι ε)}, after.1.broadcast = e.broadcast →
      after.1.broadcast.Shut := fun hb => hb ▸ h
  cases act with
  | submit i => exact same (e.step_apart S rfl).broadcast
  | effect id intents exit => exact same (e.step_apart S rfl).broadcast
  | resume id => exact same (e.step_apart S rfl).broadcast
  | work => exact same ((work_worked S e).shut h.closed)
  | subscribe => exact (h.subscribe 0).1
  | read k => exact (h.read k 0).1
  | unsubscribe k => exact (h.unsubscribe k.succ_ne_self.symm).1
  | destroy | drop => exact e.broadcast.shut_close

/-- The last intent is the state, and each of them comes with an effect. -/
def ringing : Setup Nat Nat Unit :=
  { setter with handler := some { name := "bell", perform := fun _ _ => .ok (some ()) } }

end Engine

end IntentLoop
