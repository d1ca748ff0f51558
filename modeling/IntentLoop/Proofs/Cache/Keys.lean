import IntentLoop.Cache.KeyedCache
import IntentLoop.Proofs.Cache.SingleFlight
/-!
# Every key has a cache to itself

The caches of a `KeyedCache` lie in one list, and are made at different times, each when its key is
first asked for. Nothing of this can be seen at a key. What happens there is what would happen to a
cache that stands alone, is there from the start, and is told of what is done to this key and to all
keys at once.

The proof keeps the two side by side (`Mirrors`), act by act (`Mirrors.step`). An act on another key
leaves the cache of this one in its place (`find?_put`). A key without a cache is like a cache
without a value, since only a reader makes a difference to such a cache (`step_new`). Such a cache
tells of its invalidations nevertheless, while one that is not there tells nothing, so that these
are left out of what is compared (`observedAt`).

Which key a refresh is called with is not seen from one cache. It is the one that the cache was made
for (`labelled_run`), and that is the first one asked for (`kept?_run`).
-/

namespace IntentLoop.Cache

variable {κ ε α : Type}

namespace TimedCache

/-! ### Clocks, and caches without a value -/

theorem answer_now (t : Nat) (r : Except ε α) (c : TimedCache ε α) :
    (c.answer t r).1.now = c.now := by
  rcases answer_moves t r c with ha | ⟨ha, -⟩
  · rw [ha]
  · rw [ha]
    rfl

theorem finish_now (k : Nat) (c : TimedCache ε α) : (c.finish k).1.now = c.now := by
  unfold finish
  split
  · split <;> rfl
  · rfl

theorem settle_now (t : Nat) (r : Except ε α) (c : TimedCache ε α) :
    (c.settle t r).1.now = c.now := by
  unfold settle
  rcases answer_moves t r c with ha | ⟨ha, -⟩
  · rw [ha]
  · rw [ha]
    dsimp only
    split
    · exact finish_now _ _
    · rfl

theorem get_now (c : TimedCache ε α) : c.get.1.now = c.now := by
  unfold get
  dsimp only
  split <;> rfl

theorem call_now (t : Nat) (c : TimedCache ε α) : (c.call t).1.now = c.now := by
  unfold call
  split
  · split <;> rfl
  · rfl

theorem drop_now (k : Nat) (c : TimedCache ε α) : (c.drop k).1.now = c.now := by
  unfold drop
  split <;> rfl

theorem step_now (c : TimedCache ε α) {act : Act ε α} (h : KeyedCache.isPassing act = false) :
    (c.step act).1.now = c.now := by
  cases act with
  | get => exact c.get_now
  | call t => exact call_now t c
  | answer t r => exact answer_now t r c
  | settle t r => exact settle_now t r c
  | finish k => exact finish_now k c
  | drop k => exact drop_now k c
  | invalidate => rfl
  | pass d => cases h

def Event.isInvalidation : Event ε α → Bool
  | .invalidated => true
  | _ => false

/-- Only a reader makes a difference to a cache without a value, which tells of nothing else but its
invalidations. -/
theorem step_new (ttl now : Duration) {act : Act ε α} (hp : KeyedCache.isPassing act = false)
    (hm : KeyedCache.makes act = false) :
    ((new ttl now).step act).1 = new ttl now ∧
      ∀ event ∈ ((new ttl now).step act).2, event.isInvalidation = true := by
  cases act with
  | get => cases hm
  | pass d => cases hp
  | invalidate => exact ⟨rfl, by simp [step, Event.isInvalidation]⟩
  | call | answer | settle | finish | drop => exact ⟨rfl, fun _ hmem => by cases hmem⟩

end TimedCache

namespace KeyedCache

open TimedCache (Event Unanswered seen sound_run)

variable [BEq κ] {c : KeyedCache κ ε α} {key k : κ}

/-! ### Caches by key -/

@[simp] theorem put_ttl (c : KeyedCache κ ε α) (k : κ) (cache : TimedCache ε α) :
    (c.put k cache).ttl = c.ttl := by
  unfold put
  split <;> rfl

@[simp] theorem put_now (c : KeyedCache κ ε α) (k : κ) (cache : TimedCache ε α) :
    (c.put k cache).now = c.now := by
  unfold put
  split <;> rfl

/-- An entry by its key, once another cache is in the place of one. -/
theorem find?_replaced (entries : List (κ × TimedCache ε α)) (k : κ) (cache : TimedCache ε α)
    (key : κ) :
    (entries.map fun (k', old) => if k' == k then (k', cache) else (k', old)).find? (·.1 == key) =
      (entries.find? (·.1 == key)).map fun (k', old) =>
        if k' == k then (k', cache) else (k', old) := by
  rw [List.find?_map]
  congr 2
  funext entry
  dsimp only [Function.comp]
  split <;> rfl

section Entries

variable [EquivBEq κ]

theorem find?_congr (c : KeyedCache κ ε α) (h : k == key) : c.find? k = c.find? key := by
  have hsame : (fun entry : κ × TimedCache ε α => entry.1 == k) = (·.1 == key) :=
    funext fun entry => BEq.congr_right h
  rw [find?, find?, hsame]

theorem kept?_congr (c : KeyedCache κ ε α) (h : k == key) : c.kept? k = c.kept? key := by
  rw [kept?, kept?, c.find?_congr h]

theorem cacheOf_congr (c : KeyedCache κ ε α) (h : k == key) : c.cacheOf k = c.cacheOf key := by
  rw [cacheOf, cacheOf, cache?, cache?, c.find?_congr h]

theorem keyOf_beq (c : KeyedCache κ ε α) (key : κ) : c.keyOf key == key := by
  unfold keyOf kept?
  cases he : c.find? key with
  | none => exact BEq.rfl
  | some entry =>
    have hmatch := List.find?_some he
    exact hmatch

/-- **A cache is put in the place of one key only.** -/
theorem find?_put (c : KeyedCache κ ε α) (k : κ) (cache : TimedCache ε α) (key : κ) :
    (c.put k cache).find? key = if key == k then some (c.keyOf k, cache) else c.find? key := by
  cases he : c.find? k with
  | none =>
    have hput : c.put k cache = { c with caches := c.caches ++ [(k, cache)] } := by
      simp [put, cache?, he]
    have hkept : c.keyOf k = k := by simp [keyOf, kept?, he]
    rw [hput, hkept]
    by_cases hk : key == k
    · have hnone : c.caches.find? (·.1 == key) = none := (c.find?_congr hk).trans he
      have hkey : k == key := BEq.symm hk
      simp [find?, List.find?_append, hnone, hk, hkey]
    · have hkey : (k == key) = false := Bool.eq_false_iff.mpr fun h => hk (BEq.symm h)
      simp [find?, List.find?_append, hk, hkey]
  | some entry =>
    have hput : c.put k cache = { c with
        caches := c.caches.map fun (k', old) => if k' == k then (k', cache) else (k', old) } := by
      simp [put, cache?, he]
    have hkept : c.keyOf k = entry.1 := by simp [keyOf, kept?, he]
    rw [hput, hkept, find?, find?_replaced, ← find?]
    by_cases hk : key == k
    · have hentry : entry.1 == k := hkept ▸ c.keyOf_beq k
      simp [c.find?_congr hk, he, hk, hentry]
    · cases hother : c.find? key with
      | none => simp [hk]
      | some other =>
        have hkey : other.1 == key := by
          have hmatch := List.find?_some hother
          exact hmatch
        have hne : (other.1 == k) = false :=
          Bool.eq_false_iff.mpr fun h => hk (BEq.trans (BEq.symm hkey) h)
        simp [hk, hne]

theorem cacheOf_put (c : KeyedCache κ ε α) (k : κ) (cache : TimedCache ε α) (key : κ) :
    (c.put k cache).cacheOf key = if key == k then cache else c.cacheOf key := by
  unfold cacheOf cache?
  rw [find?_put, put_ttl, put_now]
  split <;> rfl

theorem kept?_put (c : KeyedCache κ ε α) (k : κ) (cache : TimedCache ε α) (key : κ) :
    (c.put k cache).kept? key = if key == k then some (c.keyOf k) else c.kept? key := by
  unfold kept?
  rw [find?_put]
  split <;> rfl

end Entries

theorem find?_onAll (act : TimedCache.Act ε α) (c : KeyedCache κ ε α) (key : κ) :
    (c.onAll act).1.find? key =
      (c.find? key).map fun (k, cache) => (k, (cache.step act).1) := by
  unfold onAll find?
  rw [List.find?_map]
  rfl

theorem cacheOf_eq (c : KeyedCache κ ε α) (key : κ) :
    c.cacheOf key = ((c.find? key).map (·.2)).getD (.new c.ttl c.now) := rfl

/-! ### What concerns a key -/

/-- What an act is to the cache of a key, if it is anything to it. -/
def act? (key : κ) : Act κ ε α → Option (TimedCache.Act ε α)
  | .on k act => if k == key && !isPassing act then some act else none
  | .lookUp _ => none
  | .invalidateAll => some .invalidate
  | .pass time => some (.pass time)

/-- What is done to a key, in the order in which it is done. -/
def actsFor (key : κ) (acts : List (Act κ ε α)) : List (TimedCache.Act ε α) :=
  acts.filterMap (act? key)

/-- What can be seen of a cache, its invalidations apart. -/
def observed (past : List (Duration × Event ε α)) : List (Duration × Event ε α) :=
  past.filter fun (_, event) => !event.isInvalidation

/-- What can be seen at a key. -/
def observedAt (key : κ) (past : List (Duration × κ × Event ε α)) : List (Duration × Event ε α) :=
  observed (past.filterMap fun (time, k, event) => if k == key then some (time, event) else none)

theorem observed_append (past later : List (Duration × Event ε α)) :
    observed (past ++ later) = observed past ++ observed later := List.filter_append ..

theorem observedAt_append (key : κ) (past later : List (Duration × κ × Event ε α)) :
    observedAt key (past ++ later) = observedAt key past ++ observedAt key later := by
  unfold observedAt
  rw [List.filterMap_append, observed_append]

theorem observed_stamped_eq_nil {events : List (Event ε α)}
    (h : ∀ event ∈ events, event.isInvalidation = true) (time : Duration) :
    observed (events.map (time, ·)) = [] := by
  unfold observed
  rw [List.filter_eq_nil_iff]
  intro entry hmem
  obtain ⟨event, hevent, rfl⟩ := List.mem_map.mp hmem
  simp [h event hevent]

theorem observedAt_labelled (key k : κ) (time : Duration) (events : List (Event ε α)) :
    observedAt key ((events.map (k, ·)).map (time, ·)) =
      if k == key then observed (events.map (time, ·)) else [] := by
  unfold observedAt
  rw [List.map_map, List.filterMap_map]
  by_cases hk : k == key
  · rw [if_pos hk]
    congr 1
    simp [Function.comp_def, hk, List.filterMap_eq_map']
  · rw [if_neg hk]
    simp [Function.comp_def, hk, observed]

/-- Where every cache tells of its invalidation at most, nothing is seen at any key. -/
theorem observedAt_onAll {act : TimedCache.Act ε α} (c : KeyedCache κ ε α)
    (h : ∀ cache : TimedCache ε α, ∀ event ∈ (cache.step act).2, event.isInvalidation = true)
    (key : κ) (time : Duration) : observedAt key ((c.onAll act).2.map (time, ·)) = [] := by
  unfold observedAt observed onAll
  rw [List.filter_eq_nil_iff]
  intro entry hmem
  obtain ⟨⟨t, k, event⟩, htold, hentry⟩ := List.mem_filterMap.mp hmem
  obtain ⟨⟨k', event'⟩, hall, heq⟩ := List.mem_map.mp htold
  obtain ⟨⟨k'', cache⟩, -, hevent⟩ := List.mem_flatMap.mp hall
  obtain ⟨e, he, heq'⟩ := List.mem_map.mp hevent
  cases heq
  cases heq'
  dsimp only at hentry
  split at hentry
  · cases hentry
    simp [h cache event he]
  · cases hentry

/-! ### Runs -/

def stamped (c : KeyedCache κ ε α) (act : Act κ ε α) :
    KeyedCache κ ε α × List (Duration × κ × Event ε α) :=
  ((c.step act).1, (c.step act).2.map (c.now, ·))

theorem runFrom_cons (c : KeyedCache κ ε α) (act : Act κ ε α) (acts : List (Act κ ε α)) :
    c.runFrom (act :: acts) =
      (((c.step act).1.runFrom acts).1,
        (c.step act).2.map (c.now, ·) ++ ((c.step act).1.runFrom acts).2) :=
  History.after_cons stamped c act acts

theorem runFrom_append (c : KeyedCache κ ε α) (acts more : List (Act κ ε α)) :
    c.runFrom (acts ++ more) =
      (((c.runFrom acts).1.runFrom more).1,
        (c.runFrom acts).2 ++ ((c.runFrom acts).1.runFrom more).2) :=
  History.after_append stamped c acts more

/-! ### Acts on one key -/

theorem step_on_passing {act : TimedCache.Act ε α} (hp : isPassing act = true)
    (c : KeyedCache κ ε α) (k : κ) : c.step (.on k act) = (c, []) := by
  simp [step, on, hp]

theorem step_on_there {act : TimedCache.Act ε α} (hp : isPassing act = false)
    (ht : ((c.cache? k).isSome || makes act) = true) :
    c.step (.on k act) = (c.put k ((c.cacheOf k).step act).1,
      ((c.cacheOf k).step act).2.map (c.keyOf k, ·)) := by
  simp [step, on, hp, ht]

theorem step_on_absent {act : TimedCache.Act ε α} (hnone : c.cache? k = none)
    (hm : makes act = false) : c.step (.on k act) = (c, []) := by
  simp [step, on, hnone, hm]

/-! ### Side by side -/

/-- A cache that stands alone is what the caches have for a key. -/
structure Mirrors (key : κ) (c : KeyedCache κ ε α) (solo : TimedCache ε α) : Prop where
  same : c.cacheOf key = solo
  clock : c.now = solo.now

variable {solo : TimedCache ε α}

theorem Mirrors.new (key : κ) (ttl : Duration) :
    Mirrors key (new ttl : KeyedCache κ ε α) (.new ttl 0) := ⟨rfl, rfl⟩

/-- What happens to a cache that stands alone when what an act is to it, if anything, is done. -/
def alone (solo : TimedCache ε α) (act : Option (TimedCache.Act ε α)) :
    TimedCache ε α × List (Duration × Event ε α) :=
  solo.runFrom act.toList

theorem alone_some (solo : TimedCache ε α) (act : TimedCache.Act ε α) :
    alone solo (some act) = ((solo.step act).1, (solo.step act).2.map (solo.now, ·)) := by
  rw [alone, Option.toList_some, TimedCache.runFrom_cons]
  exact Prod.ext rfl (List.append_nil _)

theorem cacheOf_onAll (act : TimedCache.Act ε α) (c : KeyedCache κ ε α) (key : κ) :
    (c.onAll act).1.cacheOf key =
      ((c.cache? key).map fun cache => (cache.step act).1).getD (.new c.ttl c.now) := by
  rw [cacheOf_eq, find?_onAll, cache?, Option.map_map, Option.map_map]
  rfl

section Beside

variable [EquivBEq κ]

theorem Mirrors.on (h : Mirrors key c solo) (k : κ) (act : TimedCache.Act ε α) :
    Mirrors key (c.step (.on k act)).1 (alone solo (act? key (.on k act))).1 ∧
      observedAt key ((c.step (.on k act)).2.map (c.now, ·)) =
        observed (alone solo (act? key (.on k act))).2 := by
  by_cases hp : isPassing act = true
  · have hact : act? key (.on k act) = none := by simp [act?, hp]
    rw [step_on_passing hp, hact]
    exact ⟨h, rfl⟩
  have hpass : isPassing act = false := Bool.eq_false_iff.mpr hp
  have hlabel : (c.keyOf k == key) = (k == key) := BEq.congr_left (c.keyOf_beq k)
  by_cases hthere : ((c.cache? k).isSome || makes act) = true
  · rw [step_on_there hpass hthere, observedAt_labelled, hlabel]
    by_cases hk : k == key
    · have hact : act? key (.on k act) = some act := by simp [act?, hk, hpass]
      have hsame : c.cacheOf k = solo := (c.cacheOf_congr hk).trans h.same
      rw [hact, alone_some, if_pos hk, hsame, h.clock]
      refine ⟨⟨?_, ?_⟩, rfl⟩
      · rw [cacheOf_put, if_pos (BEq.symm hk)]
      · rw [put_now, h.clock, TimedCache.step_now solo hpass]
    · have hact : act? key (.on k act) = none := by simp [act?, hk]
      rw [hact, if_neg hk]
      refine ⟨⟨?_, ?_⟩, rfl⟩
      · rw [cacheOf_put, if_neg fun hkey => hk (BEq.symm hkey)]
        exact h.same
      · rw [put_now]
        exact h.clock
  · -- there is no cache, and none is made
    obtain ⟨hnone, hmakes⟩ : c.cache? k = none ∧ makes act = false := by simpa using hthere
    rw [step_on_absent hnone hmakes]
    by_cases hk : k == key
    · have hact : act? key (.on k act) = some act := by simp [act?, hk, hpass]
      have hsolo : solo = .new c.ttl c.now := by
        rw [← h.same, ← c.cacheOf_congr hk, cacheOf, hnone, Option.getD_none]
      obtain ⟨hsame, htold⟩ := TimedCache.step_new (α := α) (ε := ε) c.ttl c.now hpass hmakes
      rw [hact, alone_some, hsolo, hsame, observed_stamped_eq_nil htold]
      exact ⟨hsolo ▸ h, rfl⟩
    · have hact : act? key (.on k act) = none := by simp [act?, hk]
      rw [hact]
      exact ⟨h, rfl⟩

/-- **What an act is to a key is what it is to a cache that stands alone.** -/
theorem Mirrors.step (h : Mirrors key c solo) (act : Act κ ε α) :
    Mirrors key (c.step act).1 (alone solo (act? key act)).1 ∧
      observedAt key ((c.step act).2.map (c.now, ·)) = observed (alone solo (act? key act)).2 := by
  cases act with
  | on k act => exact h.on k act
  | lookUp k =>
    refine ⟨⟨?_, ?_⟩, rfl⟩
    · show (c.put k (c.cacheOf k)).cacheOf key = solo
      rw [cacheOf_put]
      split
      · rename_i hk
        rw [← c.cacheOf_congr hk, h.same]
      · exact h.same
    · show (c.put k (c.cacheOf k)).now = solo.now
      rw [put_now, h.clock]
  | invalidateAll =>
    have hact : act? key (.invalidateAll : Act κ ε α) = some .invalidate := rfl
    rw [hact, alone_some]
    refine ⟨⟨?_, h.clock⟩, ?_⟩
    · show (c.onAll .invalidate).1.cacheOf key = solo.invalidate
      rw [cacheOf_onAll, ← h.same, cacheOf]
      cases c.cache? key <;> rfl
    · exact (observedAt_onAll c (by simp [TimedCache.step, TimedCache.Event.isInvalidation]) key _)
  | pass time =>
    have hact : act? key (.pass time : Act κ ε α) = some (.pass time) := rfl
    rw [hact, alone_some]
    refine ⟨⟨?_, ?_⟩, ?_⟩
    · show (((c.onAll (.pass time)).1.cache? key).getD (.new c.ttl (c.now + time))) = _
      rw [cache?, find?_onAll, ← h.same, cacheOf_eq]
      cases c.find? key <;> rfl
    · show c.now + time = solo.now + time
      rw [h.clock]
    · exact (observedAt_onAll c (by simp [TimedCache.step]) key _)

/-- **And so it is over a run.** -/
theorem Mirrors.runFrom (h : Mirrors key c solo) (acts : List (Act κ ε α)) :
    Mirrors key (c.runFrom acts).1 (solo.runFrom (actsFor key acts)).1 ∧
      observedAt key (c.runFrom acts).2 = observed (solo.runFrom (actsFor key acts)).2 := by
  induction acts generalizing c solo with
  | nil => exact ⟨h, rfl⟩
  | cons act rest ih =>
    obtain ⟨hnext, hseen⟩ := h.step act
    obtain ⟨hlast, hlater⟩ := ih hnext
    have hfor : actsFor key (act :: rest) = (act? key act).toList ++ actsFor key rest := by
      unfold actsFor
      cases hact : act? key act with
      | none => rw [List.filterMap_cons_none hact, Option.toList_none, List.nil_append]
      | some a => rw [List.filterMap_cons_some hact, Option.toList_some, List.singleton_append]
    rw [runFrom_cons, hfor, TimedCache.runFrom_append]
    refine ⟨hlast, ?_⟩
    rw [observedAt_append, observed_append, hseen, hlater]
    rfl

end Beside

/-- After a run, the cache of a key is the one that stands alone. -/
theorem mirrors_run [EquivBEq κ] (ttl : Duration) (acts : List (Act κ ε α)) (key : κ) :
    Mirrors key (run ttl acts).1 (TimedCache.run ttl (actsFor key acts)).1 ∧
      observedAt key (run ttl acts).2 = observed (TimedCache.run ttl (actsFor key acts)).2 :=
  (Mirrors.new key ttl).runFrom acts

/-! ### The key that a refresh is called with -/

/-- The key that an act asks for, so that from then on it has a cache. -/
def asked? : Act κ ε α → Option κ
  | .on k act => if makes act then some k else none
  | .lookUp k => some k
  | .invalidateAll | .pass _ => none

/-- The first key asked for that is taken for this one. -/
def firstAsked (key : κ) (acts : List (Act κ ε α)) : Option κ :=
  (acts.filterMap asked?).find? (· == key)

theorem kept?_onAll (act : TimedCache.Act ε α) (c : KeyedCache κ ε α) (key : κ) :
    (c.onAll act).1.kept? key = c.kept? key := by
  rw [kept?, find?_onAll, Option.map_map]
  rfl

section Kept

variable [EquivBEq κ]

theorem kept?_asked (c : KeyedCache κ ε α) (k : κ) (cache : TimedCache ε α) (key : κ) :
    (c.put k cache).kept? key = (c.kept? key).or ((some k).filter (· == key)) := by
  rw [kept?_put]
  by_cases hk : key == k
  · have hkey : k == key := BEq.symm hk
    rw [if_pos hk, keyOf, c.kept?_congr hkey]
    cases hkept : c.kept? key with
    | none => simp [Option.filter, hkey]
    | some first => simp
  · have hkey : (k == key) = false := Bool.eq_false_iff.mpr fun h => hk (BEq.symm h)
    rw [if_neg hk]
    simp [Option.filter, hkey]

theorem kept?_step (c : KeyedCache κ ε α) (act : Act κ ε α) (key : κ) :
    (c.step act).1.kept? key = (c.kept? key).or ((asked? act).filter (· == key)) := by
  cases act with
  | lookUp k => exact c.kept?_asked k _ key
  | invalidateAll => exact (c.kept?_onAll _ key).trans (Option.or_none).symm
  | pass time => exact (c.kept?_onAll _ key).trans (Option.or_none).symm
  | on k act =>
    by_cases hmakes : makes act = true
    · have hasked : asked? (.on k act) = some k := by simp [asked?, hmakes]
      have hpass : isPassing act = false := by
        cases act with
        | get => rfl
        | _ => cases hmakes
      rw [step_on_there hpass (by simp [hmakes]), hasked]
      exact c.kept?_asked k _ key
    · have hasked : asked? (.on k act) = none := by simp [asked?, hmakes]
      rw [hasked, Option.filter_none, Option.or_none]
      by_cases hp : isPassing act = true
      · rw [step_on_passing hp]
      cases hcache : c.cache? k with
      | none => rw [step_on_absent hcache (Bool.eq_false_iff.mpr hmakes)]
      | some cache =>
        have hkept : (c.kept? k).isSome := by
          rw [kept?, Option.isSome_map]
          rw [← Option.isSome_map (f := (·.2)), ← cache?, hcache]
          rfl
        rw [step_on_there (Bool.eq_false_iff.mpr hp) (by simp [hcache]), kept?_put]
        split
        · rename_i hk
          rw [c.kept?_congr hk, keyOf]
          obtain ⟨first, hfirst⟩ := Option.isSome_iff_exists.mp hkept
          rw [hfirst]
          rfl
        · rfl

theorem kept?_runFrom (c : KeyedCache κ ε α) (acts : List (Act κ ε α)) (key : κ) :
    (c.runFrom acts).1.kept? key = (c.kept? key).or (firstAsked key acts) := by
  induction acts generalizing c with
  | nil => exact Option.or_none.symm
  | cons act rest ih =>
    have hfirst : firstAsked key (act :: rest) =
        ((asked? act).filter (· == key)).or (firstAsked key rest) := by
      unfold firstAsked
      cases hasked : asked? act with
      | none => simp [hasked]
      | some k => cases hk : k == key <;> simp [Option.filter, hasked, hk]
    rw [runFrom_cons, ih, kept?_step, hfirst, Option.or_assoc]

/-- **A key has the cache that was made when it was first asked for.** -/
theorem kept?_run (ttl : Duration) (acts : List (Act κ ε α)) (key : κ) :
    (run ttl acts).1.kept? key = firstAsked key acts :=
  kept?_runFrom (.new ttl) acts key

/-- All but invalidations is told of the key that a cache was made for. -/
def Labelled (c : KeyedCache κ ε α) (past : List (Duration × κ × Event ε α)) : Prop :=
  ∀ time k event, (time, k, event) ∈ past → event.isInvalidation = false → c.kept? k = some k

theorem kept?_of_told {act : Act κ ε α} {k : κ} {event : Event ε α}
    (h : (k, event) ∈ (c.step act).2) (he : event.isInvalidation = false) :
    (c.step act).1.kept? k = some k := by
  cases act with
  | lookUp k' => cases h
  | invalidateAll =>
    obtain ⟨⟨k', cache⟩, -, htold⟩ := List.mem_flatMap.mp h
    obtain ⟨e, hmem, heq⟩ := List.mem_map.mp htold
    cases heq
    rw [List.mem_singleton.mp hmem] at he
    cases he
  | pass time =>
    obtain ⟨⟨k', cache⟩, -, htold⟩ := List.mem_flatMap.mp h
    cases htold
  | on k' act =>
    by_cases hp : isPassing act = true
    · rw [step_on_passing hp] at h
      cases h
    by_cases hthere : ((c.cache? k').isSome || makes act) = true
    · rw [step_on_there (Bool.eq_false_iff.mpr hp) hthere] at h ⊢
      obtain ⟨e, -, heq⟩ := List.mem_map.mp h
      cases heq
      rw [kept?_put, if_pos (c.keyOf_beq k')]
    · obtain ⟨hnone, hmakes⟩ : c.cache? k' = none ∧ makes act = false := by simpa using hthere
      rw [step_on_absent hnone hmakes] at h
      cases h

theorem labelled_run (ttl : Duration) (acts : List (Act κ ε α)) :
    Labelled (run ttl acts).1 (run ttl acts).2 := by
  refine History.after_induct (P := Labelled) stamped (s := .new ttl) nofun ?_
  intro act _ c past hpast time k event hmem he
  rw [List.mem_append] at hmem
  rcases hmem with hold | hnew
  · show (c.step act).1.kept? k = some k
    rw [kept?_step, hpast time k event hold he]
    rfl
  · obtain ⟨⟨k', event'⟩, htold, heq⟩ := List.mem_map.mp hnew
    cases heq
    exact kept?_of_told htold he

end Kept

/-! ### Keys that nobody asked for -/

theorem cache?_eq_none_iff (c : KeyedCache κ ε α) (key : κ) :
    c.cache? key = none ↔ c.kept? key = none := by
  rw [cache?, kept?, Option.map_eq_none_iff, Option.map_eq_none_iff]

/-- To invalidate a key that nobody asked for is to do nothing. -/
theorem run_invalidate_unasked [EquivBEq κ] (ttl : Duration) {acts : List (Act κ ε α)} {key : κ}
    (h : firstAsked key acts = none) (post : List (Act κ ε α)) :
    run ttl (acts ++ .on key .invalidate :: post) = run ttl (acts ++ post) := by
  have hnone : (run ttl acts).1.cache? key = none := by
    rw [cache?_eq_none_iff, kept?_run, h]
  have hstep : (run ttl acts).1.step (.on key .invalidate) = ((run ttl acts).1, []) :=
    step_on_absent hnone rfl
  unfold run at hstep ⊢
  rw [runFrom_append, runFrom_append, runFrom_cons, hstep]
  rfl

theorem peek_cacheOf (c : KeyedCache κ ε α) (key : κ) : c.peek key = (c.cacheOf key).peek := by
  unfold peek cacheOf
  cases c.cache? key <;> rfl

/-! ### Refreshes of several keys -/

theorem unanswered_observed (past : List (Duration × Event ε α)) (t : Nat) :
    Unanswered (seen (observed past)) t ↔ Unanswered (seen past) t := by
  have hmem : ∀ event : Event ε α, event.isInvalidation = false →
      (event ∈ seen (observed past) ↔ event ∈ seen past) := by
    intro event he
    simp [seen, observed, he]
  unfold Unanswered
  rw [hmem _ rfl]
  simp only [hmem (.settled t _) rfl]

/-- Each key is asked for, and its refresh is called. -/
def callEach (keys : List κ) : List (Act κ ε α) :=
  keys.flatMap fun k => [.on k .get, .on k (.call 0)]

theorem actsFor_callEach_cons (key k : κ) (keys : List κ) :
    (actsFor key (callEach (k :: keys)) : List (TimedCache.Act ε α)) =
      (if k == key then [.get, .call 0] else []) ++ actsFor key (callEach keys) := by
  unfold callEach actsFor
  rw [List.flatMap_cons, List.filterMap_append]
  by_cases hk : k == key <;> simp [act?, isPassing, hk]

theorem actsFor_callEach_of_none {key : κ} {keys : List κ} (h : ∀ k ∈ keys, (k == key) = false) :
    (actsFor key (callEach keys) : List (TimedCache.Act ε α)) = [] := by
  induction keys with
  | nil => rfl
  | cons k rest ih =>
    rw [actsFor_callEach_cons, h k List.mem_cons_self, ih fun k' hk' =>
      h k' (List.mem_cons_of_mem _ hk')]
    rfl

theorem actsFor_callEach [EquivBEq κ] {keys : List κ}
    (hne : keys.Pairwise fun k k' => (k == k') = false) {key : κ} (hmem : key ∈ keys) :
    (actsFor key (callEach keys) : List (TimedCache.Act ε α)) = [.get, .call 0] := by
  induction keys with
  | nil => cases hmem
  | cons k rest ih =>
    rw [actsFor_callEach_cons]
    obtain ⟨hfirst, hrest⟩ := List.pairwise_cons.mp hne
    rcases List.mem_cons.mp hmem with rfl | hmem
    · have hothers : ∀ k' ∈ rest, (k' == key) = false := by
        intro k' hk'
        rw [BEq.comm]
        exact hfirst k' hk'
      rw [if_pos BEq.rfl, actsFor_callEach_of_none hothers]
      rfl
    · rw [hfirst key hmem, ih hrest hmem]
      rfl

theorem unanswered_callEach [EquivBEq κ] (ttl : Duration) {keys : List κ}
    (hne : keys.Pairwise fun k k' => (k == k') = false) {key : κ} (hmem : key ∈ keys) :
    Unanswered (seen (observedAt key
      (run ttl (callEach keys) : KeyedCache κ ε α × List (Duration × κ × Event ε α)).2)) 0 := by
  rw [(mirrors_run ttl _ key).2, actsFor_callEach hne hmem, unanswered_observed]
  have hcalled : seen (TimedCache.run ttl [.get, .call 0]).2 =
      ([.began 0, .opened 0 0 none, .called 0] : List (Event ε α)) := rfl
  rw [hcalled]
  simp [Unanswered]

/-- **Every key has a cache to itself.** After any acts, the cache of a key, and what peeking at the
key finds, is that of a cache that stands alone and was told only of what was done to this key, and
whatever could be seen at the key, with its instants, could be seen of that cache. A refresh at the
key is called with the first key asked for that is taken for this one. An act that is nothing to the
key leaves its cache alone. At most one refresh is under way at the key, while those of any number
of different keys can be under way together. A key that nobody asked for has nothing to peek at, and
to invalidate it is to do nothing. -/
theorem each_key_alone [EquivBEq κ] (ttl : Duration) (acts : List (Act κ ε α)) (key : κ) :
    (run ttl acts).1.cacheOf key = (TimedCache.run ttl (actsFor key acts)).1 ∧
    (run ttl acts).1.peek key = (TimedCache.run ttl (actsFor key acts)).1.peek ∧
    observedAt key (run ttl acts).2 = observed (TimedCache.run ttl (actsFor key acts)).2 ∧
    (∀ time k ticket, (time, k, .called ticket) ∈ (run ttl acts).2 → k == key →
      firstAsked key acts = some k) ∧
    (∀ act, act? key act = none →
      ((run ttl acts).1.step act).1.cacheOf key = (run ttl acts).1.cacheOf key ∧
      observedAt key (((run ttl acts).1.step act).2.map ((run ttl acts).1.now, ·)) = []) ∧
    (∀ s t, Unanswered (seen (observedAt key (run ttl acts).2)) s →
      Unanswered (seen (observedAt key (run ttl acts).2)) t → s = t) ∧
    (∀ keys : List κ, (keys.Pairwise fun k k' => (k == k') = false) →
      ∃ acts : List (Act κ ε α), ∀ k ∈ keys, ∃ t,
        Unanswered (seen (observedAt k (run ttl acts).2)) t) ∧
    (firstAsked key acts = none →
      (run ttl acts).1.peek key = none ∧
      ∀ post, run ttl (acts ++ .on key .invalidate :: post) = run ttl (acts ++ post)) := by
  obtain ⟨hmirrors, hseen⟩ := mirrors_run ttl acts key
  refine ⟨hmirrors.same, ?_, hseen, ?_, ?_, ?_, ?_, ?_⟩
  · rw [peek_cacheOf, hmirrors.same]
  · intro time k ticket htold hk
    have hkept := labelled_run ttl acts time k _ htold rfl
    rw [← kept?_run ttl, ← kept?_congr _ hk, hkept]
  · intro act hact
    obtain ⟨hnext, htold⟩ := hmirrors.step act
    rw [hact] at hnext htold
    exact ⟨hnext.same.trans hmirrors.same.symm, htold⟩
  · intro s t hs ht
    rw [hseen, unanswered_observed] at hs ht
    exact (sound_run ttl (actsFor key acts)).unanswered_unique hs ht
  · intro keys hne
    exact ⟨callEach keys, fun k hmem => ⟨0, unanswered_callEach ttl hne hmem⟩⟩
  · intro hnone
    refine ⟨?_, run_invalidate_unasked ttl hnone⟩
    have hcache : (run ttl acts).1.cache? key = none := by
      rw [cache?_eq_none_iff, kept?_run, hnone]
    rw [peek, hcache]
    rfl

theorem each_key_alone_two :
    let acts : List (Act Nat Unit Nat) := [.on 1 .invalidate, .on 1 .get, .on 2 .get,
      .invalidateAll, .on 1 (.call 0), .on 2 .get, .on 2 (.call 0), .on 1 (.settle 0 (.ok 5)),
      .on 2 (.settle 0 (.ok 6)), .on 2 (.call 1), .pass (.ofSecs 1), .on 2 (.settle 1 (.ok 7))]
    let history := (run (.ofSecs 60) acts).2
    (run (.ofSecs 60) acts).1.peek 1 = none ∧ (run (.ofSecs 60) acts).1.peek 2 = some 7 ∧
      actsFor 2 acts = [.get, .invalidate, .get, .call 0, .settle 0 (.ok 6), .call 1,
        .pass (.ofSecs 1), .settle 1 (.ok 7)] ∧
      observedAt 2 history = observed (TimedCache.run (.ofSecs 60) (actsFor 2 acts)).2 ∧
      (∀ time k ticket, (time, k, .called ticket) ∈ history → k == 2 → some 2 = some k) := by
  intro acts history
  obtain ⟨-, -, hseen, hcalled, -⟩ := each_key_alone (.ofSecs 60) acts 2
  exact ⟨by decide, by decide, by decide, hseen, hcalled⟩

end KeyedCache

end IntentLoop.Cache
