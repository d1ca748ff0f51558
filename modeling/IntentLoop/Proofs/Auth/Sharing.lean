import Mathlib.Data.List.Nodup
import IntentLoop.Proofs.Auth.SingleFlight
/-!
# Who shares a fetch

Callers that wait in line while another one fetches do not learn what came of that fetch. Each of them
looks at the stored token when its turn comes, and so a fetch is shared through the stored token or
not at all.

* `Stocked`: a token was stored that is still usable. No fetch is begun, and whoever gets on has that
  token.
* `Barren`: fetches have failed or have given tokens that had expired by then. Whoever gets on makes a
  fetch of its own, and obtains nothing but the token of its own fetch.

`fetch_shared_while_usable` puts both together, and says that a failure is never shared.
-/

namespace IntentLoop.Auth.Access

open History (seen)

variable {ε φ α : Type} {F : Family ε φ} {a b : Access ε φ α} {c k : Nat}
  {later events : List (Event ε φ α)}

/-! ### Callers that wait -/

/-- The caller has come, and has neither begun a fetch nor got around it. -/
def Waits (a : Access ε φ α) (c : Nat) : Prop :=
  ∃ stage, a.stage? c = some stage ∧ stage.isWaiting = true

namespace Waits

theorem of_mem_line (ho : Orderly a) (hc : c ∈ a.line) : a.Waits c :=
  ⟨.queued, (ho.line c).mp hc, rfl⟩

theorem isWaiting (h : a.Waits c) : a.IsWaiting c := by
  obtain ⟨stage, hs, hw⟩ := h
  intro other hother
  rw [hs] at hother
  cases hother
  exact hw

theorem ne_of_stage? (h : a.Waits c) {stage : Stage ε φ α} (hs : a.stage? k = some stage)
    (hw : stage.isWaiting = false) : c ≠ k := by
  rintro rfl
  have hself := h.isWaiting stage hs
  rw [hw] at hself
  cases hself

theorem congr (h : a.Waits c) {stage : Stage ε φ α} (hck : c ≠ k)
    (hs : ∀ j, b.stage? j = if j = k then some stage else a.stage? j) : b.Waits c := by
  obtain ⟨old, hold, hw⟩ := h
  exact ⟨old, by rw [hs, if_neg hck, hold], hw⟩

theorem join (h : a.Waits c) (purpose : Purpose) (stage : Stage ε φ α)
    (hs : ∀ j, b.stage? j = (a.join purpose stage).stage? j) : b.Waits c := by
  have hne : c ≠ a.callers.length := by
    obtain ⟨old, hold, -⟩ := h
    exact Nat.ne_of_lt (lt_length_of_stage? hold)
  exact h.congr hne fun j => (hs j).trans (stage?_join purpose stage a j)

theorem passedOn (h : a.Waits c) {stage : Stage ε φ α} (hck : c ≠ k)
    (hp : PassedOn a b k stage) : b.Waits c := by
  obtain ⟨old, hold, hw⟩ := h
  unfold Waits
  rw [hp.stages, if_neg hck]
  by_cases hnext : a.line.head? = some c
  · exact ⟨.granted, if_pos hnext, rfl⟩
  · exact ⟨old, by rw [if_neg hnext, hold], hw⟩

/-- **A caller waits until it begins a fetch, finds a usable token, or goes away.** -/
theorem move (h : a.Waits c) (ho : Orderly a) (m : Move F a b events) :
    b.Waits c ∨ .fetch c ∈ events ∨ .dropped c ∈ events ∨
      ∃ t, a.usable = some t ∧ .obtained c t ∈ events := by
  cases m with
  | served purpose t hu => exact Or.inl (h.join purpose (purpose.stageWith t) fun _ => rfl)
  | admitted purpose hu ht => exact Or.inl (h.join purpose .granted fun _ => rfl)
  | queued purpose holder hu ht => exact Or.inl (h.join purpose .queued fun _ => rfl)
  | found k purpose t hc hu =>
    by_cases hck : c = k
    · exact Or.inr (Or.inr (Or.inr ⟨t, hu, by simp [hck]⟩))
    · exact Or.inl (h.passedOn hck (ho.passedOn (stage?_of_getElem? hc) _))
  | fetch k purpose hc hu =>
    by_cases hck : c = k
    · exact Or.inr (Or.inl (by simp [hck]))
    · have hlt := lt_length_of_stage? (stage?_of_getElem? hc)
      exact Or.inl (h.congr hck (stage?_setStage hlt _))
  | fetched k epoch purpose t hc =>
    have hs := stage?_of_getElem? hc
    have hstored : (a.store epoch t).Waits c := by
      unfold Waits
      rw [stage?_store]
      exact h
    have hp := (ho.store epoch t).passedOn ((stage?_store epoch t a k).trans hs) (purpose.stageWith t)
    exact Or.inl (hstored.passedOn (h.ne_of_stage? hs rfl) hp)
  | failed k epoch purpose e hc =>
    have hs := stage?_of_getElem? hc
    exact Or.inl (h.passedOn (h.ne_of_stage? hs rfl) (ho.passedOn hs _))
  | answered k executor t result hc =>
    have hs := stage?_of_getElem? hc
    exact Or.inl (h.congr (h.ne_of_stage? hs rfl) (stage?_setStage (lt_length_of_stage? hs) _))
  | left k hs =>
    by_cases hck : c = k
    · exact Or.inr (Or.inr (Or.inl (by simp [hck])))
    · exact Or.inl (h.congr hck (stage?_setStage (lt_length_of_stage? hs) _))
  | yielded k stage hs hold =>
    by_cases hck : c = k
    · exact Or.inr (Or.inr (Or.inl (by simp [hck])))
    · exact Or.inl (h.passedOn hck (ho.passedOn_after hs hold _))
  | abandoned k t hs =>
    exact Or.inl (h.congr (h.ne_of_stage? hs rfl) (stage?_setStage (lt_length_of_stage? hs) _))
  | invalidated => exact Or.inl h
  | passed time => exact Or.inl h

end Waits

/-! ### What callers get -/

/-- A token that is obtained was stored and usable, or was given by the caller's own fetch. -/
theorem Move.usable_of_obtained (m : Move F a b events) {t : Token} (h : .obtained c t ∈ events) :
    a.usable = some t ∨ .fetched c (.ok t) ∈ events := by
  have mine : ∀ {j : Nat} {u : Token} {more : List (Event ε φ α)}, Talk more →
      .obtained c t ∈ .obtained j u :: more → c = j ∧ t = u := by
    intro j u more htalk hmem
    rcases List.mem_cons.mp hmem with heq | hmem
    · exact Event.obtained.inj heq
    · exact absurd hmem (htalk.not_obtained c t)
  cases m with
  | served purpose u hu =>
    obtain ⟨-, rfl⟩ := mine (given_talk purpose _ u) ((List.mem_cons.mp h).resolve_left (by simp))
    exact Or.inl hu
  | found k purpose u hc hu =>
    obtain ⟨-, rfl⟩ := mine (given_talk purpose k u) h
    exact Or.inl hu
  | fetched k epoch purpose u hc =>
    obtain ⟨rfl, rfl⟩ := mine (given_talk purpose k u) ((List.mem_cons.mp h).resolve_left (by simp))
    exact Or.inr (by simp)
  | failed k epoch purpose e hc =>
    exact absurd (by simpa using h) ((complaints_talk F purpose k e).not_obtained c t)
  | answered k executor u result hc =>
    exact absurd (by simpa using h) ((verdictOn_talk F k executor result).not_obtained c t)
  | admitted | queued | fetch | left | yielded | abandoned | invalidated | passed => simp at h

theorem not_returned_of_inspect (F : Family ε φ) (j executor : Nat) (text : String)
    (result : Result ε φ α) :
    .returned c result ∉ (inspect F j executor text : List (Event ε φ α)) := by
  unfold inspect
  split
  · split <;> simp
  · simp

theorem Move.fetched_of_returned_error (m : Move F a b events) {e : ε}
    (h : .returned c (.token (.error e)) ∈ events) : .fetched c (.error e) ∈ events := by
  cases m with
  | served purpose t hu => cases purpose <;> simp [Purpose.given] at h
  | found k purpose t hc hu => cases purpose <;> simp [Purpose.given] at h
  | fetched k epoch purpose t hc => cases purpose <;> simp [Purpose.given] at h
  | failed k epoch purpose e' hc =>
    cases purpose with
    | token =>
      have hsame : c = k ∧ e = e' := by simpa [Purpose.complaints, Purpose.failure] using h
      simp [hsame]
    | header executor =>
      simp [Purpose.complaints, Purpose.failure, not_returned_of_inspect] at h
    | request executor =>
      simp [Purpose.complaints, Purpose.failure, not_returned_of_inspect] at h
  | answered k executor t result hc =>
    cases result <;> simp [verdictOn, not_returned_of_inspect] at h
  | admitted | queued | fetch | left | yielded | abandoned | invalidated | passed => simp at h

/-! ### A usable token is stored -/

theorem Move.unexpired (m : Move F a b events) {t : Token}
    (ht : t.isExpiredAt b.wallClock = false) : t.isExpiredAt a.wallClock = false := by
  refine Bool.eq_false_iff.mpr fun hx => ?_
  rw [t.isExpiredAt_mono m.wallClock_le hx] at ht
  cases ht

/-- While nobody fetches or begins to, only an invalidation changes what is stored. -/
theorem Supply.idle (s : Supply a b events) (hidle : ∀ j epoch, ¬a.IsFetching j epoch)
    (hnone : ∀ j, .fetch j ∉ events) (hno : .invalidated ∉ events) :
    b.token = a.token ∧ (∀ j epoch, ¬b.IsFetching j epoch) ∧
      ∀ c result, .fetched c result ∉ events := by
  cases s with
  | aside ht he hf hw hev hobtained =>
    refine ⟨ht, fun j epoch hj => hidle j epoch ((hf j epoch).mp hj), fun c result hmem => ?_⟩
    cases hev _ hmem
  | fetch j => exact absurd (by simp) (hnone j)
  | fetched j epoch t hj => exact absurd hj (hidle j epoch)
  | failed j epoch e hj => exact absurd hj (hidle j epoch)
  | dropped k ht he hl =>
    refine ⟨ht, fun j epoch hj => ?_, by simp⟩
    exact hidle j epoch (Screened.fetching_of_left hl j epoch hj)
  | invalidated => exact absurd (by simp) hno

/-- The token of a fetch was stored and nothing was fetched since; callers of the line have obtained
it, or wait, or went away. -/
structure Stocked (t : Token) (line : List Nat) (a : Access ε φ α) (later : List (Event ε φ α)) :
    Prop where
  token : a.token = some t
  idle : ∀ j epoch, ¬a.IsFetching j epoch
  unfetched : fetchesIn later = []
  only : ∀ c u, .obtained c u ∈ later → u = t
  attended : ∀ c ∈ line, a.Waits c ∨ .obtained c t ∈ later ∨ .dropped c ∈ later

namespace Stocked

variable {t : Token} {line : List Nat}

theorem fetched (F : Family ε φ) (ho : Orderly a) (hdry : Dry a) {epoch : Nat} {purpose : Purpose}
    (t : Token) (hc : a.callers[k]? = some { purpose, stage := .fetching epoch })
    (he : a.epoch = epoch) :
    Stocked t a.line ((a.store epoch t).passTurn.setStage k (purpose.stageWith t))
      (.fetched k (.ok t) :: .obtained k t :: purpose.given k t) := by
  have m := Move.fetched (F := F) k epoch purpose t hc
  have hk : a.IsFetching k epoch := stage?_of_getElem? hc
  have htalk := given_talk (ε := ε) (φ := φ) (α := α) purpose k t
  refine ⟨?_, ?_, ?_, ?_, ?_⟩
  · show (a.store epoch t).passTurn.token = some t
    rw [passTurn_token, store_token, if_pos he]
  · exact (Left.of_passedOn (ho.store epoch t)
      ((ho.store epoch t).passedOn ((stage?_store epoch t a k).trans hk) (purpose.stageWith t))
      (purpose.stageWith_isWaiting t) (purpose.stageWith_holdsTurn t)).of_store.none_fetching ho hk
  · exact List.filterMap_eq_nil_iff.mpr (by simpa [Event.fetch?] using htalk.fetch?)
  · intro c u hmem
    simp only [List.mem_cons, reduceCtorEq, Event.obtained.injEq, false_or] at hmem
    rcases hmem with ⟨-, rfl⟩ | hmem
    · rfl
    · exact absurd hmem (htalk.not_obtained c u)
  · intro c hmem
    rcases (Waits.of_mem_line ho hmem).move ho m with hw | hf | hd | ⟨u, hu, -⟩
    · exact Or.inl hw
    · have hnone := htalk.fetch? (.fetch c) (by simpa using hf)
      cases hnone
    · exact Or.inr (Or.inr hd)
    · rw [hdry k epoch hk] at hu
      cases hu

/-- As long as it is usable and not invalidated, the token stays, and is all that callers get. -/
theorem move (h : Stocked t line a later) (ho : Orderly a) (m : Move F a b events)
    (hno : .invalidated ∉ events) (ht : t.isExpiredAt b.wallClock = false) :
    Stocked t line b (later ++ events) := by
  have husable : a.usable = some t := usable_eq_some_iff.mpr ⟨h.token, m.unexpired ht⟩
  -- whoever has the turn finds the token, and begins no fetch
  have hneeded : ∀ j, .fetch j ∉ events := by
    intro j hj
    rw [m.usable_of_fetch hj] at husable
    cases husable
  obtain ⟨htoken, hidle, hunfetched⟩ := (m.supply ho).idle h.idle hneeded hno
  have honly : ∀ c u, .obtained c u ∈ events → u = t := by
    intro c u hmem
    rcases m.usable_of_obtained hmem with hu | hfetched
    · rw [husable] at hu
      exact (Option.some.inj hu).symm
    · exact absurd hfetched (hunfetched c _)
  refine ⟨htoken.trans h.token, hidle, ?_, ?_, ?_⟩
  · have hnone : fetchesIn events = [] :=
      List.eq_nil_iff_forall_not_mem.mpr fun j hj => hneeded j (mem_fetchesIn.mp hj)
    rw [fetchesIn, List.filterMap_append]
    exact List.append_eq_nil_iff.mpr ⟨h.unfetched, hnone⟩
  · intro c u hmem
    exact (List.mem_append.mp hmem).elim (h.only c u) (honly c u)
  · intro c hc
    rcases h.attended c hc with hw | hgot | hgone
    · rcases hw.move ho m with hw | hf | hd | ⟨u, hu, hgot⟩
      · exact Or.inl hw
      · exact absurd hf (hneeded c)
      · exact Or.inr (Or.inr (List.mem_append_right later hd))
      · rw [honly c u hgot] at hgot
        exact Or.inr (Or.inl (List.mem_append_right later hgot))
    · exact Or.inr (Or.inl (List.mem_append_left events hgot))
    · exact Or.inr (Or.inr (List.mem_append_left events hgone))

end Stocked

/-! ### No usable token is stored -/

/-- Nothing usable is stored; callers have obtained tokens of their own fetches only, and those of the
line have made a fetch, or wait, or went away. -/
structure Barren (line : List Nat) (a : Access ε φ α) (later : List (Event ε φ α)) : Prop where
  usable : a.usable = none
  own : ∀ c u, .obtained c u ∈ later → .fetched c (.ok u) ∈ later
  attended : ∀ c ∈ line, a.Waits c ∨ .fetch c ∈ later ∨ .dropped c ∈ later

namespace Barren

variable {line : List Nat}

/-- As long as fetches give nothing but tokens that have expired, nothing usable gets stored. -/
theorem move (h : Barren line a later) (ho : Orderly a) (m : Move F a b events)
    (hexpired : ∀ c u, .fetched c (.ok u) ∈ events → u.isExpiredAt a.wallClock = true) :
    Barren line b (later ++ events) := by
  have hclock := m.wallClock_le
  refine ⟨?_, ?_, ?_⟩
  · cases m.supply ho with
    | aside hb he hf hw hev hobtained => exact usable_eq_none_of_le hb hclock h.usable
    | fetch j hb he hgranted hstages => exact usable_eq_none_of_le hb hclock h.usable
    | failed j epoch e hj hb he hl hmore => exact usable_eq_none_of_le hb hclock h.usable
    | dropped j hb he hl => exact usable_eq_none_of_le hb hclock h.usable
    | invalidated hb he hs => rw [Access.usable, hb]; rfl
    | fetched j epoch u hj hb he hl hmore =>
      have hu : u.isExpiredAt a.wallClock = true := hexpired j u (by simp)
      split at hb
      · refine usable_eq_none_iff.mpr fun v hv => ?_
        rw [hb] at hv
        cases hv
        exact u.isExpiredAt_mono hclock hu
      · exact usable_eq_none_of_le hb hclock h.usable
  · intro c u hmem
    rcases List.mem_append.mp hmem with hmem | hmem
    · exact List.mem_append_left events (h.own c u hmem)
    · rcases m.usable_of_obtained hmem with hu | hfetched
      · rw [h.usable] at hu
        cases hu
      · exact List.mem_append_right later hfetched
  · intro c hc
    rcases h.attended c hc with hw | hf | hgone
    · rcases hw.move ho m with hw | hf | hd | ⟨u, hu, -⟩
      · exact Or.inl hw
      · exact Or.inr (Or.inl (List.mem_append_right later hf))
      · exact Or.inr (Or.inr (List.mem_append_right later hd))
      · rw [h.usable] at hu
        cases hu
    · exact Or.inr (Or.inl (List.mem_append_left events hf))
    · exact Or.inr (Or.inr (List.mem_append_left events hgone))

end Barren

/-! ### Runs -/

/-- From a fetch that gave a token on, as long as the token is usable and not invalidated. -/
theorem stocked_runFrom (F : Family ε φ) (ho : Orderly a) (hdry : Dry a) (t : Token)
    (hs : a.stage? k = some (.fetching a.epoch)) (post : List (Act ε φ α))
    (hno : .invalidated ∉ seen (a.runFrom F (.fetched k (.ok t) :: post)).2)
    (ht : t.isExpiredAt (a.runFrom F (.fetched k (.ok t) :: post)).1.wallClock = false) :
    .obtained k t ∈ seen (a.runFrom F (.fetched k (.ok t) :: post)).2 ∧
      Stocked t a.line (a.runFrom F (.fetched k (.ok t) :: post)).1
        (seen (a.runFrom F (.fetched k (.ok t) :: post)).2) := by
  obtain ⟨⟨purpose, stage⟩, hc, rfl⟩ := Option.map_eq_some_iff.mp hs
  have hfirst : a.step F (.fetched k (.ok t)) =
      ((a.store a.epoch t).passTurn.setStage k (purpose.stageWith t),
        .fetched k (.ok t) :: .obtained k t :: purpose.given k t) := by
    show a.fetched F k (.ok t) = _
    unfold fetched
    rw [hc]
    dsimp only
    rw [obtain_eq]
    rfl
  have hstart := Stocked.fetched F ho hdry t hc rfl
  have ho' := ho.move (Move.fetched (F := F) k a.epoch purpose t hc)
  simp only [seen_runFrom, runFrom_fst, History.after_cons, hfirst] at hno ht ⊢
  generalize (a.store a.epoch t).passTurn.setStage k (purpose.stageWith t) = a' at hstart ho' hno ht ⊢
  refine ⟨by simp, ?_⟩
  -- a token that is usable at the end was so all the time
  have hall := runFrom_induct_seen (F := F) (a := a')
    (P := fun b later => Orderly b ∧ (t.isExpiredAt b.wallClock = false → .invalidated ∉ later →
      Stocked t a.line b ((.fetched k (.ok t) :: .obtained k t :: purpose.given k t) ++ later)))
    ⟨ho', fun _ _ => by rwa [List.append_nil]⟩ ?_ post
  · rw [seen_runFrom, runFrom_fst] at hall
    exact hall.2 ht fun hmem => hno (List.mem_append_right _ hmem)
  · intro b later b' events ⟨ho, h⟩ m
    refine ⟨ho.move m, fun ht hno => ?_⟩
    rw [List.mem_append, not_or] at hno
    rw [← List.append_assoc]
    exact (h (m.unexpired ht) hno.1).move ho m hno.2 ht

/-- From any moment without a usable token on, as long as fetches give none. -/
theorem barren_runFrom (F : Family ε φ) (ho : Orderly a) (hu : a.usable = none)
    (acts : List (Act ε φ α))
    (hexpired : ∀ time c u, (time, .fetched c (.ok u)) ∈ (a.runFrom F acts).2 →
      u.isExpiredAt time = true) :
    Barren a.line (a.runFrom F acts).1 (seen (a.runFrom F acts).2) := by
  have hstart : Barren a.line a ([] : List (Event ε φ α)) :=
    ⟨hu, by simp, fun c hc => Or.inl (Waits.of_mem_line ho hc)⟩
  refine (runFrom_induct (F := F) (P := fun b later => Orderly b ∧
    ((∀ time c u, (time, .fetched c (.ok u)) ∈ later → u.isExpiredAt time = true) →
      Barren a.line b (seen later))) ⟨ho, fun _ => hstart⟩ ?_ acts).2 hexpired
  intro b later b' events ⟨ho, h⟩ m
  refine ⟨ho.move m, fun hexpired => ?_⟩
  rw [History.seen_append, History.seen_map_stamp]
  refine (h fun time c u hmem => hexpired time c u (List.mem_append_left _ hmem)).move ho m ?_
  exact fun c u hmem =>
    hexpired b.wallClock c u (List.mem_append_right _ (List.mem_map.mpr ⟨_, hmem, rfl⟩))

theorem fetched_of_returned_error (F : Family ε φ) (a : Access ε φ α) (acts : List (Act ε φ α))
    (e : ε) (h : .returned c (.token (.error e)) ∈ seen (a.runFrom F acts).2) :
    .fetched c (.error e) ∈ seen (a.runFrom F acts).2 := by
  refine runFrom_induct_seen (F := F) (P := fun _ later =>
    .returned c (.token (.error e)) ∈ later → .fetched c (.error e) ∈ later) (by simp) ?_ acts h
  intro b later b' events h m hmem
  rcases List.mem_append.mp hmem with hmem | hmem
  · exact List.mem_append_left events (h hmem)
  · exact List.mem_append_right later (m.fetched_of_returned_error hmem)

/-- Of the caller that fetches and those in line, only the former has begun a fetch. -/
theorem Logged.fetches_of_line {past : List (Event ε φ α)} (h : Logged a past) (ho : Orderly a)
    {epoch : Nat} (hk : a.IsFetching k epoch) :
    (fetchesIn past).filter (· ∈ k :: a.line) = [k] := by
  have hmem : k ∈ fetchesIn past := mem_fetchesIn.mpr ((h.fetching k).mpr ⟨epoch, hk⟩).1
  have hline : ∀ c ∈ fetchesIn past, decide (c ∈ k :: a.line) = (c == k) := by
    intro c hc
    have hno : c ∉ a.line := fun hl =>
      h.waiting c (Waits.of_mem_line ho hl).isWaiting _ (mem_fetchesIn.mp hc) rfl
    simp [hno, Bool.beq_eq_decide_eq]
  rw [List.filter_congr hline, List.filter_beq, List.count_eq_one_of_mem h.once hmem]
  rfl

/-- **A fetch is shared by those in line as long as its token is usable, and no longer.** A caller's
fetch of the present epoch is over, with whatever result, while others stand in line.

If it gave a token that is usable at the end, and nothing is invalidated, then of all of them only that
caller has made a fetch, nobody makes one afterwards, and nobody obtains another token. A caller that
stood in line has obtained the token, unless it has not moved yet or went away.

If neither that fetch nor a later one gives a token that is usable at its arrival, then whoever obtains
a token has fetched it itself, and a caller that stood in line makes a fetch of its own, unless it has
not moved yet or went away. In any case whoever returns an error has got it from its own fetch. -/
theorem fetch_shared_while_usable (F : Family ε φ) (start : Timestamp) (pre post : List (Act ε φ α))
    {k : Nat} (result : Except ε Token)
    (hk : (run F start pre).1.stage? k = some (.fetching (run F start pre).1.epoch)) :
    ∃ after,
      (run F start (pre ++ .fetched k result :: post)).2 = (run F start pre).2 ++ after ∧
      (∀ t, result = .ok t →
        t.isExpiredAt (run F start (pre ++ .fetched k result :: post)).1.wallClock = false →
        .invalidated ∉ seen after →
        (fetchesIn (seen (run F start (pre ++ .fetched k result :: post)).2)).filter
            (· ∈ k :: (run F start pre).1.line) = [k] ∧
          fetchesIn (seen after) = [] ∧
          .obtained k t ∈ seen after ∧
          (∀ c u, .obtained c u ∈ seen after → u = t) ∧
          ∀ c ∈ (run F start pre).1.line,
            (run F start (pre ++ .fetched k result :: post)).1.Waits c ∨
              .obtained c t ∈ seen after ∨ .dropped c ∈ seen after) ∧
      ((∀ time c u, (time, .fetched c (.ok u)) ∈ after → u.isExpiredAt time = true) →
        (∀ c u, .obtained c u ∈ seen after → .fetched c (.ok u) ∈ seen after) ∧
          ∀ c ∈ (run F start pre).1.line,
            (run F start (pre ++ .fetched k result :: post)).1.Waits c ∨
              .fetch c ∈ seen after ∨ .dropped c ∈ seen after) ∧
      ∀ c e, .returned c (.token (.error e)) ∈ seen after → .fetched c (.error e) ∈ seen after := by
  obtain ⟨ho, hl⟩ := logged_run F start pre
  have hdry := dry_run F start pre
  rw [run_append]
  dsimp only
  generalize (run F start pre).1 = a at hk ho hl hdry ⊢
  generalize (run F start pre).2 = past at hl ⊢
  refine ⟨_, rfl, ?_, ?_, ?_⟩
  · rintro t rfl ht hno
    obtain ⟨hgot, hstocked⟩ := stocked_runFrom F ho hdry t hk post hno ht
    refine ⟨?_, hstocked.unfetched, hgot, hstocked.only, hstocked.attended⟩
    rw [History.seen_append, fetchesIn, List.filterMap_append, ← fetchesIn, ← fetchesIn,
      hstocked.unfetched, List.append_nil]
    exact hl.fetches_of_line ho hk
  · intro hexpired
    have hbarren := barren_runFrom F ho (hdry k _ hk) _ hexpired
    exact ⟨hbarren.own, hbarren.attended⟩
  · exact fun c e => fetched_of_returned_error F a _ e

/-- Two callers stand in line while a third one fetches a token, and both get that token. -/
theorem line_shares_fetch :
    (run (α := Unit) plain { secs := 0 } [.begin .token, .resume 0, .begin .token, .begin .token]).1.line =
        [1, 2] ∧
      fetchesIn (seen (run (α := Unit) plain { secs := 0 } ([.begin .token, .resume 0, .begin .token,
        .begin .token] ++ .fetched 0 (.ok { secret := "new" }) :: [.resume 1, .resume 2])).2) = [0] ∧
      ∃ after,
        (run (α := Unit) plain { secs := 0 } ([.begin .token, .resume 0, .begin .token, .begin .token] ++
            .fetched 0 (.ok { secret := "new" }) :: [.resume 1, .resume 2])).2 =
          (run plain { secs := 0 } [.begin .token, .resume 0, .begin .token, .begin .token]).2 ++ after ∧
        ∀ c ∈ [0, 1, 2], .obtained c { secret := "new" } ∈ seen after := by
  obtain ⟨after, hsplit, hshared, -⟩ :=
    fetch_shared_while_usable (α := Unit) plain { secs := 0 }
      [.begin .token, .resume 0, .begin .token, .begin .token] [.resume 1, .resume 2] (k := 0)
      (.ok { secret := "new" }) rfl
  have hlast : after = [.fetched 0 (.ok { secret := "new" }), .obtained 0 { secret := "new" },
      .returned 0 (.token (.ok { secret := "new" })), .obtained 1 { secret := "new" },
      .returned 1 (.token (.ok { secret := "new" })), .obtained 2 { secret := "new" },
      .returned 2 (.token (.ok { secret := "new" }))].map (({ secs := 0 } : Timestamp), ·) :=
    (congrArg (List.drop 4) hsplit).symm
  obtain ⟨honce, -, hfirst, -, hothers⟩ := hshared _ rfl rfl (by simp [hlast, seen])
  refine ⟨rfl, honce, after, hsplit, ?_⟩
  have hline : ∀ c ∈ [1, 2], .obtained c { secret := "new" } ∈ seen after := by
    intro c hc
    rcases hothers c hc with ⟨stage, hs, hw⟩ | hgot | hgone
    · have hover : stage = .returned (.token (.ok { secret := "new" })) := by
        rcases List.mem_pair.mp hc with rfl | rfl <;> exact (Option.some.inj hs).symm
      rw [hover] at hw
      cases hw
    · exact hgot
    · simp [hlast, seen] at hgone
  simpa [hfirst] using hline

/-- A fetch fails while another caller stands in line. -/
def failedFetch : List (Act Unit Unit Unit) :=
  [.begin .token, .resume 0, .begin .token, .fetched 0 (.error ()), .resume 1,
    .fetched 1 (.ok { secret := "new" })]

/-- A fetch gives an expired token while another caller stands in line. -/
def staleFetch : List (Act Unit Unit Unit) :=
  [.begin .token, .resume 0, .begin .token,
    .fetched 0 (.ok { secret := "old", expiresAt := some { secs := 0 } }), .resume 1]

/-- In both cases the caller in line makes a fetch of its own, and does not get the outcome of the other
one. -/
theorem line_refetches :
    fetchesIn (seen (run plain { secs := 0 } failedFetch).2) = [0, 1] ∧
      .returned 0 (.token (.error ())) ∈ seen (run plain { secs := 0 } failedFetch).2 ∧
      .returned 1 (.token (.ok { secret := "new" })) ∈ seen (run plain { secs := 0 } failedFetch).2 ∧
      fetchesIn (seen (run plain { secs := 0 } staleFetch).2) = [0, 1] := by
  decide

end IntentLoop.Auth.Access
