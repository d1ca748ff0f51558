import IntentLoop.Proofs.Auth.Supply
/-!
# No token crosses an invalidation

A token gets to a caller from its own fetch or from the store, and into the store from the fetch of
some caller. An invalidation empties the store and begins a new epoch, and the token of a fetch is
stored only in the epoch in which the fetch was made. So after an invalidation the store holds nothing
but tokens of later fetches, whoever stood in line before and whoever was given the turn and had not
moved yet; and the only caller that can still obtain an earlier token is the one whose fetch was in
flight.

`Screened n p` says this of an access some time after an invalidation that began the epoch `n`, where
`p` tells who was fetching at that moment. Every move keeps it (`Screened.supply`).
-/

namespace IntentLoop.Auth.Access

open History (seen)

variable {ε φ α : Type} {F : Family ε φ} {a b : Access ε φ α} {later events : List (Event ε φ α)}

/-- A fetch that gave the token was begun since the invalidation. -/
def FetchedSince (later : List (Event ε φ α)) (t : Token) : Prop :=
  ∃ k, .fetch k ∈ later ∧ .fetched k (.ok t) ∈ later

theorem FetchedSince.append {t : Token} (h : FetchedSince later t) (events : List (Event ε φ α)) :
    FetchedSince (later ++ events) t := by
  obtain ⟨k, hf, hr⟩ := h
  exact ⟨k, List.mem_append_left events hf, List.mem_append_left events hr⟩

/-- An access after an invalidation, with what was seen since. -/
structure Screened (n : Nat) (flying : Nat → Prop) (a : Access ε φ α)
    (later : List (Event ε φ α)) : Prop where
  epoch : n ≤ a.epoch
  stored : ∀ t, a.token = some t → FetchedSince later t
  /-- A fetch that may store its token was begun since. -/
  young : ∀ k epoch, a.IsFetching k epoch → n ≤ epoch → .fetch k ∈ later
  old : ∀ k epoch, a.IsFetching k epoch → epoch < n → flying k
  obtained : ∀ c t, .obtained c t ∈ later →
    FetchedSince later t ∨ flying c ∧ .fetched c (.ok t) ∈ later

namespace Screened

variable {n : Nat} {flying : Nat → Prop}

theorem invalidate {past : List (Event ε φ α)} (h : Logged a past) :
    Screened (a.epoch + 1) (InFlight past) a.invalidate [] where
  epoch := Nat.le_refl _
  stored := by
    intro t ht
    cases ht
  young := by
    intro k epoch hf hle
    exact absurd (h.epochs k epoch hf) (Nat.not_le_of_lt hle)
  old k epoch hf _ := (h.fetching k).mpr ⟨epoch, hf⟩
  obtained := by simp

/-- Nothing new gets into the store, nobody begins a fetch, and what is obtained has the right
origin. -/
theorem quiet (h : Screened n flying a later) (he : a.epoch ≤ b.epoch)
    (ht : ∀ t, b.token = some t → FetchedSince (later ++ events) t)
    (hf : ∀ k epoch, b.IsFetching k epoch → a.IsFetching k epoch)
    (ho : ∀ c t, .obtained c t ∈ events →
      FetchedSince (later ++ events) t ∨ flying c ∧ .fetched c (.ok t) ∈ later ++ events) :
    Screened n flying b (later ++ events) where
  epoch := Nat.le_trans h.epoch he
  stored := ht
  young k epoch hk hle := List.mem_append_left events (h.young k epoch (hf k epoch hk) hle)
  old k epoch hk hlt := h.old k epoch (hf k epoch hk) hlt
  obtained c t hmem := by
    rcases List.mem_append.mp hmem with hmem | hmem
    · rcases h.obtained c t hmem with hs | ⟨hc, hr⟩
      · exact Or.inl (hs.append events)
      · exact Or.inr ⟨hc, List.mem_append_left events hr⟩
    · exact ho c t hmem

theorem fetching_of_left {k : Nat} (hl : Left a b k) (j epoch : Nat) (hf : b.IsFetching j epoch) :
    a.IsFetching j epoch := by
  by_cases hj : j = k
  · exact absurd (hj ▸ hf) (hl.finished epoch)
  · exact (hl.fetching j hj epoch).mp hf

theorem fetch (h : Screened n flying a later) {k : Nat} (ht : b.token = a.token)
    (he : b.epoch = a.epoch)
    (hstages : ∀ j, b.stage? j = if j = k then some (.fetching a.epoch) else a.stage? j) :
    Screened n flying b (later ++ [.fetch k]) := by
  refine ⟨he ▸ h.epoch, ?_, ?_, ?_, ?_⟩
  · intro t hb
    exact (h.stored t (ht ▸ hb)).append _
  · intro j epoch hf hle
    by_cases hj : j = k
    · simp [hj]
    · rw [IsFetching, hstages, if_neg hj] at hf
      exact List.mem_append_left _ (h.young j epoch hf hle)
  · intro j epoch hf hlt
    rw [IsFetching, hstages] at hf
    by_cases hj : j = k
    · rw [if_pos hj] at hf
      cases hf
      exact absurd hlt (Nat.not_lt_of_le h.epoch)
    · rw [if_neg hj] at hf
      exact h.old j epoch hf hlt
  · intro c t hmem
    rcases h.obtained c t (by simpa using hmem) with hs | ⟨hc, hr⟩
    · exact Or.inl (hs.append _)
    · exact Or.inr ⟨hc, List.mem_append_left _ hr⟩

/-- **No move lets an earlier token through.** -/
theorem supply (h : Screened n flying a later) (s : Supply a b events) :
    Screened n flying b (later ++ events) := by
  cases s with
  | aside ht he hf _ _ ho =>
    refine h.quiet (Nat.le_of_eq he.symm) ?_ (fun k epoch => (hf k epoch).mp) ?_
    · intro t hb
      exact (h.stored t (ht ▸ hb)).append events
    · intro c t hmem
      exact Or.inl ((h.stored t (ho c t hmem)).append events)
  | fetch k ht he _ hstages => exact h.fetch ht he hstages
  | @fetched k epoch t more hs ht he hl hmore =>
    have origin : FetchedSince (later ++ .fetched k (.ok t) :: .obtained k t :: more) t ∨ flying k := by
      by_cases hle : n ≤ epoch
      · exact Or.inl ⟨k, List.mem_append_left _ (h.young k epoch hs hle), by simp⟩
      · exact Or.inr (h.old k epoch hs (Nat.lt_of_not_le hle))
    refine h.quiet (Nat.le_of_eq he.symm) ?_ (fetching_of_left hl) ?_
    · intro u hu
      rw [ht] at hu
      split at hu
      · rename_i hepoch
        cases hu
        exact ⟨k, List.mem_append_left _ (h.young k epoch hs (hepoch ▸ h.epoch)), by simp⟩
      · exact (h.stored u hu).append _
    · intro c u hmem
      simp only [List.mem_cons, reduceCtorEq, Event.obtained.injEq, false_or] at hmem
      rcases hmem with ⟨rfl, rfl⟩ | hmem
      · exact origin.imp id fun hk => ⟨hk, by simp⟩
      · exact absurd hmem (hmore.not_obtained c u)
  | failed k epoch e hs ht he hl hmore =>
    refine h.quiet (Nat.le_of_eq he.symm) ?_ (fetching_of_left hl) ?_
    · intro t hb
      exact (h.stored t (ht ▸ hb)).append _
    · intro c t hmem
      rw [List.mem_cons] at hmem
      rcases hmem with hmem | hmem
      · cases hmem
      · exact absurd hmem (hmore.not_obtained c t)
  | dropped k ht he hl =>
    refine h.quiet (Nat.le_of_eq he.symm) ?_ (fetching_of_left hl) (by simp)
    intro t hb
    exact (h.stored t (ht ▸ hb)).append _
  | invalidated ht he hs =>
    refine h.quiet (Nat.le_trans (Nat.le_succ _) (Nat.le_of_eq he.symm)) ?_ ?_ (by simp)
    · intro t hb
      rw [ht] at hb
      cases hb
    · intro k epoch hf
      rwa [IsFetching, hs] at hf

end Screened

/-! ### Runs -/

theorem logged_run (F : Family ε φ) (start : Timestamp) (acts : List (Act ε φ α)) :
    Orderly (run F start acts).1 ∧ Logged (run F start acts).1 (seen (run F start acts).2) := by
  refine runFrom_induct_seen (P := fun a past => Orderly a ∧ Logged a past)
    ⟨.new start, .new start⟩ ?_ acts
  intro a past b events h m
  exact ⟨h.1.move m, h.2.supply (m.supply h.1)⟩

theorem screened_runFrom {past : List (Event ε φ α)} (ho : Orderly a) (hl : Logged a past)
    (acts : List (Act ε φ α)) :
    Screened (a.epoch + 1) (InFlight past) (a.invalidate.runFrom F acts).1
        (seen (a.invalidate.runFrom F acts).2) ∧
      Backed (seen (a.invalidate.runFrom F acts).2) := by
  have hstart : Orderly a.invalidate := ⟨ho.holder, ho.line, ho.nodup, ho.idle⟩
  have hall := runFrom_induct_seen (F := F)
    (P := fun b later => Orderly b ∧ Screened (a.epoch + 1) (InFlight past) b later ∧ Backed later)
    ⟨hstart, .invalidate hl, .nil⟩ ?_ acts
  · exact hall.2
  · intro b later b' events h m
    exact ⟨h.1.move m, h.2.1.supply (m.supply h.1), h.2.2.append (.move m)⟩

/-- **An invalidation is a barrier for tokens.** At most one caller's fetch is in flight when a token
is invalidated. Every token that is obtained afterwards was given by a fetch begun afterwards, unless
it is that one caller that obtains the token of its own fetch; and what is stored afterwards was given
by a fetch begun afterwards. Callers show no tokens, in results, headers or requests, but those that
they obtained.

Should every token bear the mark of the caller that fetched it, then the token of a fetch that was in
flight is never stored, and nobody but the caller of that fetch ever obtains it. -/
theorem no_token_from_before (F : Family ε φ) (start : Timestamp) (pre post : List (Act ε φ α)) :
    ∃ after,
      seen (run F start (pre ++ .invalidate :: post)).2 =
        seen (run F start pre).2 ++ .invalidated :: after ∧
      (∀ k l, InFlight (seen (run F start pre).2) k → InFlight (seen (run F start pre).2) l → k = l) ∧
      (∀ c t, .obtained c t ∈ after →
        (∃ k, .fetch k ∉ seen (run F start pre).2 ∧ .fetch k ∈ after ∧ .fetched k (.ok t) ∈ after) ∨
        InFlight (seen (run F start pre).2) c ∧ .fetched c (.ok t) ∈ after) ∧
      (∀ t, (run F start (pre ++ .invalidate :: post)).1.token = some t →
        ∃ k, .fetch k ∉ seen (run F start pre).2 ∧ .fetch k ∈ after ∧ .fetched k (.ok t) ∈ after) ∧
      Backed after ∧
      ∀ mark : Token → Nat,
        (∀ k t, .fetched k (.ok t) ∈ seen (run F start (pre ++ .invalidate :: post)).2 → mark t = k) →
        ∀ k, InFlight (seen (run F start pre).2) k →
          (∀ t, (run F start (pre ++ .invalidate :: post)).1.token = some t → mark t ≠ k) ∧
          ∀ c t, .obtained c t ∈ after → mark t = k → c = k := by
  obtain ⟨horderly, hlogged⟩ := logged_run F start pre
  obtain ⟨hstate, hseen⟩ := seen_run_split F start pre .invalidate post
  obtain ⟨hscreened, hbacked⟩ := screened_runFrom (F := F) horderly hlogged post
  replace hseen : seen (run F start (pre ++ .invalidate :: post)).2 =
      seen (run F start pre).2 ++
        .invalidated :: seen ((run F start pre).1.invalidate.runFrom F post).2 := hseen
  replace hstate : (run F start (pre ++ .invalidate :: post)).1 =
      ((run F start pre).1.invalidate.runFrom F post).1 := hstate
  generalize seen ((run F start pre).1.invalidate.runFrom F post).2 = after
    at hseen hscreened hbacked
  -- no caller fetches twice
  have fresh : ∀ k, .fetch k ∈ after → .fetch k ∉ seen (run F start pre).2 := by
    intro k hlater hpast
    have honce := (logged_run F start (pre ++ .invalidate :: post)).2.once
    rw [hseen, fetchesIn, List.filterMap_append, List.nodup_append] at honce
    have hk := mem_fetchesIn.mpr (List.mem_cons_of_mem .invalidated hlater)
    exact honce.2.2 k (mem_fetchesIn.mpr hpast) k hk rfl
  have one : ∀ k l, InFlight (seen (run F start pre).2) k → InFlight (seen (run F start pre).2) l →
      k = l := by
    intro k l hk hl
    obtain ⟨_, hk⟩ := (hlogged.fetching k).mp hk
    obtain ⟨_, hl⟩ := (hlogged.fetching l).mp hl
    exact horderly.holder_unique hk rfl hl rfl
  have since : ∀ t, FetchedSince after t →
      ∃ k, .fetch k ∉ seen (run F start pre).2 ∧ .fetch k ∈ after ∧ .fetched k (.ok t) ∈ after := by
    intro t ht
    obtain ⟨k, hf, hr⟩ := ht
    exact ⟨k, fresh k hf, hf, hr⟩
  rw [hstate]
  refine ⟨after, hseen, one, ?_, ?_, hbacked, ?_⟩
  · intro c t hmem
    exact (hscreened.obtained c t hmem).imp (since t) id
  · exact fun t ht => since t (hscreened.stored t ht)
  · intro mark hmark k hk
    -- the token of a later fetch bears another mark than the fetch in flight
    have hother : ∀ t, FetchedSince after t → mark t ≠ k := by
      intro t ht heq
      obtain ⟨l, hno, -, hr⟩ := since t ht
      have hl : mark t = l := by
        refine hmark l t ?_
        rw [hseen]
        exact List.mem_append_right _ (List.mem_cons_of_mem _ hr)
      rw [← hl, heq] at hno
      exact hno hk.1
    refine ⟨fun t ht => hother t (hscreened.stored t ht), ?_⟩
    intro c t hmem heq
    rcases hscreened.obtained c t hmem with hs | ⟨hc, -⟩
    · exact absurd heq (hother t hs)
    · exact one c k hc hk

/-- Nobody has an executor, and errors have no texts. -/
def plain : Family Unit Unit where
  executors := []
  fetchText _ := ""
  requestText _ := ""
  lift := id

/-- One caller's fetch is in flight at an invalidation, and another caller is in line. The first one
obtains its token, which is not stored; the second one gets the turn and fetches anew. -/
theorem queued_caller_refetches :
    ∃ after : List (Event Unit Unit Unit),
      seen (run plain { secs := 0 } [.begin .token, .resume 0, .begin .token, .invalidate,
          .fetched 0 (.ok { secret := "old" }), .resume 1, .fetched 1 (.ok { secret := "new" })]).2 =
        seen (run plain { secs := 0 } [.begin .token, .resume 0, .begin .token]).2 ++
          .invalidated :: after ∧
      .obtained 0 { secret := "old" } ∈ after ∧ .obtained 1 { secret := "new" } ∈ after ∧
      .fetch 1 ∈ after ∧
      ((∃ k, .fetch k ∉ seen (run (α := Unit) plain { secs := 0 }
            [.begin .token, .resume 0, .begin .token]).2 ∧
          .fetch k ∈ after ∧ .fetched k (.ok { secret := "new" }) ∈ after) ∨
        InFlight (seen (run (α := Unit) plain { secs := 0 }
            [.begin .token, .resume 0, .begin .token]).2) 1 ∧
          .fetched 1 (.ok { secret := "new" }) ∈ after) ∧
      ∀ c t, .obtained c t ∈ after → t.secret = "old" → c = 0 := by
  obtain ⟨after, hsplit, -, hobtained, -, -, hmarked⟩ :=
    no_token_from_before (α := Unit) plain { secs := 0 } [.begin .token, .resume 0, .begin .token]
      [.fetched 0 (.ok { secret := "old" }), .resume 1, .fetched 1 (.ok { secret := "new" })]
  have hlast : after = [.fetched 0 (.ok { secret := "old" }), .obtained 0 { secret := "old" },
      .returned 0 (.token (.ok { secret := "old" })), .fetch 1,
      .fetched 1 (.ok { secret := "new" }), .obtained 1 { secret := "new" },
      .returned 1 (.token (.ok { secret := "new" }))] :=
    (congrArg (List.drop 4) hsplit).symm
  have hfirst : seen (run (α := Unit) plain { secs := 0 }
      [.begin .token, .resume 0, .begin .token]).2 = [.began 0 .token, .fetch 0, .began 1 .token] := rfl
  have hnew : .obtained 1 { secret := "new" } ∈ after := by simp [hlast]
  have hold : ∀ c t, .obtained c t ∈ after → t.secret = "old" → c = 0 := by
    intro c t hmem hsecret
    refine (hmarked (fun t => if t.secret = "old" then 0 else 1) ?_ 0 ?_).2 c t hmem (if_pos hsecret)
    · intro k t hgiven
      rw [hsplit, hfirst, hlast] at hgiven
      have hboth : k = 0 ∧ t = { secret := "old" } ∨ k = 1 ∧ t = { secret := "new" } := by
        simpa using hgiven
      rcases hboth with ⟨rfl, rfl⟩ | ⟨rfl, rfl⟩ <;> rfl
    · rw [hfirst]
      simp [InFlight]
  exact ⟨after, hsplit, by simp [hlast], hnew, by simp [hlast], hobtained 1 _ hnew, hold⟩

end IntentLoop.Auth.Access
