import IntentLoop.Proofs.Engine.Runs
import Mathlib.Data.List.Chain
/-!
# What subscribers and the observer see

All that an act can do to the broadcast is an `Airing`: a state is published, a stream is made, read
or given up, or the broadcast is closed. Two invariants go through it. `Published` is about the
whole run: it ties the state that is current, and the calls of the observer, to the states published
so far. `Follows` is about one stream: what its reader has found and what is still queued are
together what it is `due`, that is, the state that was current when it was made and all that were
published later. The other streams occur in neither of them, so that it does not matter when they
are made, how fast they are read and when they are given up.
-/

namespace IntentLoop

variable {σ ι ε : Type}

/-! ### Reading -/

namespace StateStream

variable (stream : StateStream σ)

theorem awaited_read :
    stream.read.1.awaited = some none ↔ stream.attached = false ∧ stream.queue = [] := by
  unfold read
  cases stream.queue with
  | nil => cases stream.attached <;> simp [Reading.awaited]
  | cons s rest => simp [Reading.awaited]

theorem taken_read : stream.read.1.taken = stream.queue.head? := by
  unfold read
  cases stream.queue with
  | nil => cases stream.attached <;> rfl
  | cons s rest => rfl

end StateStream

namespace Broadcast

theorem read_cases (n : Nat) (b : Broadcast σ) :
    (∃ stream s rest, b.streams[n]? = some stream ∧ stream.held = true ∧ stream.queue = s :: rest ∧
        b.read n =
          (.state s, { b with streams := b.streams.set n { stream with queue := rest } })) ∨
      ∃ reading, (∀ s, reading ≠ .state s) ∧ b.read n = (reading, b) := by
  unfold read
  cases hn : b.streams[n]? with
  | none => exact Or.inr ⟨.ended, fun s h => (by cases h), rfl⟩
  | some stream =>
    by_cases hh : stream.held = true
    · cases hq : stream.queue with
      | nil =>
        obtain ⟨hlt, hget⟩ := List.getElem?_eq_some_iff.mp hn
        have hset : b.streams.set n stream = b.streams := hget ▸ List.set_getElem_self hlt
        simp only [hh, if_true, StateStream.read, hq, hset]
        cases stream.attached
        · exact Or.inr ⟨.ended, fun s h => (by cases h), rfl⟩
        · exact Or.inr ⟨.pending, fun s h => (by cases h), rfl⟩
      | cons s rest =>
        refine Or.inl ⟨stream, s, rest, rfl, hh, hq, ?_⟩
        simp only [hh, if_true, StateStream.read, hq]
    · refine Or.inr ⟨.ended, fun s h => (by cases h), ?_⟩
      simp only [hh, if_false, Bool.false_eq_true]

theorem read_of_held {b : Broadcast σ} {n : Nat} {stream : StateStream σ}
    (h : b.streams[n]? = some stream) (hh : stream.held = true) : (b.read n).1 = stream.read.1 := by
  unfold read
  rw [h]
  simp only [hh, if_true]

theorem read_of_not_held {b : Broadcast σ} {n : Nat} {stream : StateStream σ}
    (h : b.streams[n]? = some stream) (hh : stream.held = false) : (b.read n).1 = .ended := by
  unfold read
  rw [h]
  simp only [hh, Bool.false_eq_true, if_false]

end Broadcast

namespace Engine

/-! ### What an act does to the broadcast -/

/-- Nothing of states made public or found. -/
structure Unheard (events : List (Event σ ι ε)) : Prop where
  published : publishedIn events = []
  observed : observedIn events = []
  found : ∀ n, foundIn n events = []

theorem Private.unheard {events : List (Event σ ι ε)} (h : Private events) : Unheard events :=
  ⟨h.publishedIn_eq_nil, h.observedIn_eq_nil, h.foundIn_eq_nil⟩

/-- What is told of an intent is as unheard as what is told after the decision on it. -/
theorem Unheard.receipt {called more : List (Event σ ι ε)} (h : Unheard more) (hc : Private called)
    (i : ι) : Unheard (.received i :: called ++ more) where
  published := (hc.publishedIn_cons i more).trans h.published
  observed := (hc.observedIn_cons i more).trans h.observed
  found n := (hc.foundIn_cons i n more).trans (h.found n)

/-- All that an act can do to the broadcast. -/
inductive Airing (S : Setup σ ι ε) (b : Broadcast σ) : Broadcast σ → List (Event σ ι ε) → Prop
  | still {events : List (Event σ ι ε)} (h : Unheard events) : Airing S b b events
  | published {events : List (Event σ ι ε)} (next : σ) (hopen : b.closed = false)
      (hdiff : S.rules.same b.last next = false) (hp : publishedIn events = [next])
      (ho : observedIn events = if S.observer.isSome then [next] else [])
      (hf : ∀ n, foundIn n events = []) :
      Airing S b { b with last := next, streams := b.streams.map (·.deliver next) } events
  | subscribed : Airing S b b.subscribe [.subscribed b.streams.length]
  | read (n : Nat) : Airing S b (b.read n).2 [.found n (b.read n).1]
  | unsubscribed (n : Nat) : Airing S b (b.unsubscribe n) [.unsubscribed n]
  | closed {events : List (Event σ ι ε)} (h : Unheard events) : Airing S b b.close events

theorem Airing.news {S : Setup σ ι ε} {b : Broadcast σ} {called more : List (Event σ ι ε)}
    (hc : Private called) (i : ι) (next : σ) (hopen : b.closed = false)
    (hdiff : S.rules.same b.last next = false) (hm : Unheard more) :
    Airing S b { b with last := next, streams := b.streams.map (·.deliver next) }
      (.received i :: called ++ Engine.news S next ++ more) := by
  rw [List.append_assoc]
  refine .published next hopen hdiff ?_ ?_ ?_
  · rw [hc.publishedIn_cons, publishedIn_append, publishedIn_news, hm.published]
    rfl
  · rw [hc.observedIn_cons, observedIn_append, observedIn_news, hm.observed, List.append_nil]
  · intro n
    rw [hc.foundIn_cons, foundIn_append, foundIn_news, hm.found]
    rfl

theorem receipt_airing {S : Setup σ ι ε} {state : σ} {previous : Option ι} {i : ι} {e : Engine σ ι}
    {after : Engine σ ι × List (Event σ ι ε)} (hr : Receipt S state previous i e after) :
    Airing S e.broadcast after.1.broadcast after.2 := by
  cases hr with
  | crashed p called hd =>
    exact .still (Unheard.receipt ⟨rfl, rfl, fun _ => rfl⟩ hd.silent i)
  | skipped f called hd _ =>
    rw [← List.append_nil (.received i :: called)]
    exact .still (Unheard.receipt ⟨rfl, rfl, fun _ => rfl⟩ hd.silent i)
  | failed p effect called hd =>
    have hb : ((e.track effect).halt S i p).1.broadcast = e.broadcast := track_broadcast effect e
    rw [hb]
    exact .still (Unheard.receipt ⟨rfl, rfl, fun _ => rfl⟩ hd.silent i)
  | kept next effect called hd _ =>
    have hb : (e.track effect).broadcast = e.broadcast := track_broadcast effect e
    dsimp only
    rw [hb]
    exact .still (Unheard.receipt ⟨rfl, rfl, fun _ => rfl⟩ hd.silent i)
  | published next effect called hd hopen hdiff _ =>
    dsimp only [announce]
    rw [track_broadcast]
    exact .news hd.silent i next hopen hdiff ⟨rfl, rfl, fun _ => rfl⟩
  | unnoticed next effect called p hd hopen hdiff _ =>
    dsimp only [announce, retire]
    rw [track_broadcast]
    exact .news hd.silent i next hopen hdiff ⟨rfl, rfl, fun _ => rfl⟩

theorem worked_airing {S : Setup σ ι ε} {e : Engine σ ι} {after : Engine σ ι × List (Event σ ι ε)}
    (hw : Worked S e after) : Airing S e.broadcast after.1.broadcast after.2 := by
  cases hw with
  | ended _ => exact .still ⟨rfl, rfl, fun _ => rfl⟩
  | stopped _ _ _ _ => exact .still ⟨rfl, rfl, fun _ => rfl⟩
  | idle _ _ _ _ _ => exact .still ⟨rfl, rfl, fun _ => rfl⟩
  | received _ _ _ _ _ _ _ hr =>
    have ha := receipt_airing hr
    exact ha

theorem step_airing (S : Setup σ ι ε) (e : Engine σ ι) (act : Act ι) :
    Airing S e.broadcast (e.step S act).1.broadcast (e.step S act).2 := by
  have apart : ∀ after : Engine σ ι × List (Event σ ι ε), Beside e after →
      Airing S e.broadcast after.1.broadcast after.2 := by
    intro after h
    rw [h.broadcast]
    exact .still h.silent.unheard
  cases act with
  | submit i => exact apart _ (e.step_apart S rfl)
  | effect id intents exit => exact apart _ (e.step_apart S rfl)
  | resume id => exact apart _ (e.step_apart S rfl)
  | work => exact worked_airing (work_worked S e)
  | subscribe => exact .subscribed
  | read n => exact .read n
  | unsubscribe n => exact .unsubscribed n
  | destroy => exact .closed ⟨rfl, rfl, fun _ => rfl⟩
  | drop => exact .closed ⟨rfl, rfl, fun _ => rfl⟩

/-! ### The published states -/

/-- Two neighbours that subscribers can tell apart. -/
def Differ (S : Setup σ ι ε) (s t : σ) : Prop := S.rules.same s t = false

/-- What a subscriber of the broadcast is due, by what is told later. -/
def due (b : Broadcast σ) (later : List (Event σ ι ε)) : List σ :=
  if b.closed then [] else b.last :: publishedIn later

/-- What is told since a broadcast stood at `first`, and where it stands now. -/
structure Published (S : Setup σ ι ε) (first : σ) (b : Broadcast σ) (later : List (Event σ ι ε)) :
    Prop where
  current : (first :: publishedIn later).getLast? = some b.last
  distinct : (first :: publishedIn later).IsChain (Differ S)
  observed : observedIn later = if S.observer.isSome then publishedIn later else []

namespace Published

variable {S : Setup σ ι ε} {first : σ} {b b' : Broadcast σ} {later events : List (Event σ ι ε)}

theorem start (b : Broadcast σ) : Published S b.last b [] where
  current := rfl
  distinct := List.isChain_singleton _
  observed := by
    split <;> rfl

theorem quiet (h : Published S first b later) (hp : publishedIn events = [])
    (ho : observedIn events = []) (hlast : b'.last = b.last) :
    Published S first b' (later ++ events) where
  current := by
    rw [publishedIn_append, hp, List.append_nil, hlast]
    exact h.current
  distinct := by
    rw [publishedIn_append, hp, List.append_nil]
    exact h.distinct
  observed := by
    rw [publishedIn_append, observedIn_append, hp, ho, List.append_nil, List.append_nil]
    exact h.observed

theorem airing (h : Published S first b later) (ha : Airing S b b' events) :
    Published S first b' (later ++ events) := by
  cases ha with
  | still hu => exact h.quiet hu.published hu.observed rfl
  | subscribed => exact h.quiet rfl rfl rfl
  | read n => exact h.quiet rfl rfl (b.read_last n)
  | unsubscribed n => exact h.quiet rfl rfl rfl
  | closed hu => exact h.quiet hu.published hu.observed rfl
  | published next _ hdiff hp ho _ =>
    refine ⟨?_, ?_, ?_⟩
    · rw [publishedIn_append, hp, ← List.cons_append, List.getLast?_append]
      rfl
    · rw [publishedIn_append, hp, ← List.cons_append, List.isChain_append]
      refine ⟨h.distinct, List.isChain_singleton next, ?_⟩
      rw [h.current]
      rintro s hs t ht
      cases hs
      cases ht
      exact hdiff
    · rw [publishedIn_append, observedIn_append, hp, ho, h.observed]
      split <;> rfl

theorem due_isChain (h : Published S b.last b' later) : (due b later).IsChain (Differ S) := by
  unfold due
  split
  · exact List.isChain_nil
  · exact h.distinct

end Published

/-! ### One subscriber -/

theorem due_append_of_nil (b : Broadcast σ) (later : List (Event σ ι ε))
    {events : List (Event σ ι ε)} (hp : publishedIn events = []) :
    due b (later ++ events) = due b later := by
  rw [due, publishedIn_append, hp, List.append_nil, due]

/-- A stream that was made of the broadcast `b₀`, after `later`. -/
structure Follows (b₀ b : Broadcast σ) (later : List (Event σ ι ε)) (stream : StateStream σ) :
    Prop where
  made : b.streams[b₀.streams.length]? = some stream
  /-- A reader who did not go away has lost nothing. -/
  whole : stream.held = true →
    foundIn b₀.streams.length later ++ stream.queue = due b₀ later
  part : foundIn b₀.streams.length later <+: due b₀ later
  fed : stream.held = true → b.closed = false → stream.attached = true
  unfed : b.closed = true → stream.attached = false
  /-- A broadcast does not open again, and says nothing more. -/
  closed : b₀.closed = true → b.closed = true ∧ publishedIn later = []

namespace Follows

variable {S : Setup σ ι ε} {b₀ b b' : Broadcast σ} {later events : List (Event σ ι ε)}
  {stream : StateStream σ}

theorem start (b : Broadcast σ) :
    Follows b b.subscribe ([] : List (Event σ ι ε))
      { queue := if b.closed then [] else [b.last], attached := !b.closed, held := true } where
  made := by simp [Broadcast.subscribe]
  whole _ := by
    unfold due
    cases b.closed <;> rfl
  part := List.nil_prefix
  fed _ hopen := by
    have : b.closed = false := hopen
    simp [this]
  unfed hclosed := by
    have : b.closed = true := hclosed
    simp [this]
  closed h := ⟨h, rfl⟩

/-- Nothing is published and the reader finds nothing, whatever else becomes of the stream. -/
theorem quiet {stream' : StateStream σ} (h : Follows b₀ b later stream)
    (hp : publishedIn events = []) (hf : foundIn b₀.streams.length events = [])
    (hmade : b'.streams[b₀.streams.length]? = some stream')
    (hqueue : stream'.held = true → stream.held = true ∧ stream'.queue = stream.queue)
    (hfed : stream'.held = true → b'.closed = false → stream'.attached = true)
    (hunfed : b'.closed = true → stream'.attached = false)
    (hclosed : b.closed = true → b'.closed = true) :
    Follows b₀ b' (later ++ events) stream' where
  made := hmade
  whole hh := by
    rw [due_append_of_nil b₀ later hp, foundIn_append, hf, List.append_nil, (hqueue hh).2]
    exact h.whole (hqueue hh).1
  part := by
    rw [due_append_of_nil b₀ later hp, foundIn_append, hf, List.append_nil]
    exact h.part
  fed := hfed
  unfed := hunfed
  closed hc := by
    rw [publishedIn_append, hp, List.append_nil]
    exact ⟨hclosed (h.closed hc).1, (h.closed hc).2⟩

theorem apart (h : Follows b₀ b later stream) (hp : publishedIn events = [])
    (hf : foundIn b₀.streams.length events = [])
    (hmade : b'.streams[b₀.streams.length]? = some stream) (hc : b'.closed = b.closed) :
    Follows b₀ b' (later ++ events) stream :=
  h.quiet hp hf hmade (fun hh => ⟨hh, rfl⟩) (hc ▸ h.fed) (hc ▸ h.unfed) hc.trans

theorem took (h : Follows b₀ b later stream) (hheld : stream.held = true) {s : σ} {rest : List σ}
    (hq : stream.queue = s :: rest) :
    Follows b₀
      { b with streams := b.streams.set b₀.streams.length { stream with queue := rest } }
      (later ++ [(.found b₀.streams.length (.state s) : Event σ ι ε)])
      { stream with queue := rest } := by
  have hfound : foundIn b₀.streams.length [(.found b₀.streams.length (.state s) : Event σ ι ε)] =
      [s] := by
    simp [foundIn, Event.found?]
  have hdue : due b₀ (later ++ [(.found b₀.streams.length (.state s) : Event σ ι ε)]) =
      due b₀ later := due_append_of_nil b₀ later rfl
  have hwhole : foundIn b₀.streams.length later ++ [s] ++ rest = due b₀ later := by
    rw [List.append_assoc, List.singleton_append, ← hq]
    exact h.whole hheld
  refine ⟨?_, ?_, ?_, h.fed, h.unfed, ?_⟩
  · exact List.getElem?_set_self (List.getElem?_eq_some_iff.mp h.made).1
  · intro _
    rw [foundIn_append, hfound, hdue]
    exact hwhole
  · rw [foundIn_append, hfound, hdue]
    exact ⟨rest, hwhole⟩
  · rw [publishedIn_append]
    exact fun hc => ⟨(h.closed hc).1, (List.append_nil _).trans (h.closed hc).2⟩

theorem read (h : Follows b₀ b later stream) (n : Nat) :
    ∃ stream', Follows b₀ (b.read n).2
      (later ++ [(.found n (b.read n).1 : Event σ ι ε)]) stream' := by
  rcases b.read_cases n with ⟨other, s, rest, hn, hheld, hq, hread⟩ | ⟨reading, hno, hread⟩
  · rw [hread]
    by_cases heq : n = b₀.streams.length
    · subst heq
      obtain rfl : other = stream := Option.some.inj (hn.symm.trans h.made)
      exact ⟨_, h.took hheld hq⟩
    · refine ⟨stream, h.apart rfl ?_ ?_ rfl⟩
      · simp [foundIn, Event.found?, heq]
      · exact (List.getElem?_set_ne heq).trans h.made
  · rw [hread]
    refine ⟨stream, h.apart rfl ?_ h.made rfl⟩
    cases reading with
    | state s => exact absurd rfl (hno s)
    | pending => rfl
    | ended => rfl

theorem unsubscribe (h : Follows b₀ b later stream) (n : Nat) :
    ∃ stream', Follows b₀ (b.unsubscribe n)
      (later ++ [(.unsubscribed n : Event σ ι ε)]) stream' := by
  by_cases heq : n = b₀.streams.length
  · subst heq
    refine ⟨{ stream with held := false, queue := [] }, h.quiet rfl rfl ?_ ?_ ?_ h.unfed id⟩
    · rw [Broadcast.unsubscribe, List.getElem?_modify_eq, h.made]
      rfl
    · intro hh
      cases hh
    · intro hh
      cases hh
  · exact ⟨stream, h.apart rfl rfl ((List.getElem?_modify_ne _ _ heq).trans h.made) rfl⟩

theorem close (h : Follows b₀ b later stream) (hu : Unheard events) :
    Follows b₀ b.close (later ++ events) { stream with attached := false } := by
  refine h.quiet hu.published (hu.found _) ?_ (fun hh => ⟨hh, rfl⟩) ?_ (fun _ => rfl) (fun _ => rfl)
  · rw [Broadcast.close, List.getElem?_map, h.made]
    rfl
  · intro _ hopen
    cases hopen

theorem deliver (h : Follows b₀ b later stream) {next : σ} (hopen : b.closed = false)
    (hp : publishedIn events = [next]) (hf : foundIn b₀.streams.length events = []) :
    Follows b₀ { b with last := next, streams := b.streams.map (·.deliver next) }
      (later ++ events) (stream.deliver next) := by
  have hfirst : b₀.closed = false := by
    cases hc : b₀.closed with
    | false => rfl
    | true => exact (h.closed hc).1.symm.trans hopen
  have hdue : due b₀ (later ++ events) = due b₀ later ++ [next] := by
    simp only [due, hfirst, publishedIn_append, hp]
    rfl
  have hfound : foundIn b₀.streams.length (later ++ events) = foundIn b₀.streams.length later := by
    rw [foundIn_append, hf, List.append_nil]
  have hheld : (stream.deliver next).held = stream.held := by
    unfold StateStream.deliver
    split <;> rfl
  -- a stream that is still held is still fed, and so the state reaches it
  have hreach : stream.held = true →
      stream.deliver next = { stream with queue := stream.queue ++ [next] } := by
    intro hh
    unfold StateStream.deliver
    simp only [h.fed hh hopen, hh, Bool.and_self, if_true]
  refine ⟨?_, ?_, ?_, ?_, ?_, ?_⟩
  · rw [List.getElem?_map, h.made]
    rfl
  · intro hh
    rw [hheld] at hh
    rw [hfound, hdue, hreach hh, ← List.append_assoc, h.whole hh]
  · rw [hfound, hdue]
    exact h.part.trans (List.prefix_append _ _)
  · intro hh _
    rw [hheld] at hh
    rw [hreach hh]
    exact h.fed hh hopen
  · intro hclosed
    rw [hopen] at hclosed
    cases hclosed
  · intro hclosed
    rw [hfirst] at hclosed
    cases hclosed

theorem airing (h : Follows b₀ b later stream) (ha : Airing S b b' events) :
    ∃ stream', Follows b₀ b' (later ++ events) stream' := by
  have hlt : b₀.streams.length < b.streams.length := (List.getElem?_eq_some_iff.mp h.made).1
  cases ha with
  | still hu => exact ⟨stream, h.apart hu.published (hu.found _) h.made rfl⟩
  | subscribed =>
    exact ⟨stream, h.apart rfl rfl ((List.getElem?_append_left hlt).trans h.made) rfl⟩
  | read n => exact h.read n
  | unsubscribed n => exact h.unsubscribe n
  | closed hu => exact ⟨_, h.close hu⟩
  | published next hopen _ hp _ hf => exact ⟨_, h.deliver hopen hp (hf _)⟩

theorem awaited (h : Follows b₀ b later stream) (hheld : stream.held = true) :
    (b.read b₀.streams.length).1.awaited = some none ↔ b.closed = true ∧ stream.queue = [] := by
  rw [Broadcast.read_of_held h.made hheld, stream.awaited_read]
  constructor
  · rintro ⟨hunfed, hq⟩
    refine ⟨?_, hq⟩
    cases hc : b.closed with
    | true => rfl
    | false =>
      rw [h.fed hheld hc] at hunfed
      cases hunfed
  · rintro ⟨hc, hq⟩
    exact ⟨h.unfed hc, hq⟩

theorem taken (h : Follows b₀ b later stream) (hheld : stream.held = true) :
    (b.read b₀.streams.length).1.taken = stream.queue.head? := by
  rw [Broadcast.read_of_held h.made hheld, stream.taken_read]

theorem ended (h : Follows b₀ b later stream) (hc : b₀.closed = true) :
    (b.read b₀.streams.length).1 = .ended := by
  cases hheld : stream.held with
  | false => exact Broadcast.read_of_not_held h.made hheld
  | true =>
    have hq : stream.queue = [] := by
      have hwhole := h.whole hheld
      simp only [due, hc, if_true] at hwhole
      exact (List.append_eq_nil_iff.mp hwhole).2
    rw [Broadcast.read_of_held h.made hheld, StateStream.read, hq]
    simp only [h.unfed (h.closed hc).1, Bool.false_eq_true, if_false]

end Follows

/-! ### Runs -/

theorem published_runFrom (S : Setup σ ι ε) (e : Engine σ ι) (acts : List (Act ι)) :
    Published S e.broadcast.last (e.runFrom S acts).1.broadcast (e.runFrom S acts).2 :=
  runFrom_induct (P := fun e' past => Published S e.broadcast.last e'.broadcast past)
    (.start e.broadcast) fun act _ {e' _} h => h.airing (step_airing S e' act)

theorem follows_runFrom (S : Setup σ ι ε) (e : Engine σ ι) (acts : List (Act ι)) :
    ∃ stream, Follows e.broadcast ((e.step S .subscribe).1.runFrom S acts).1.broadcast
      ((e.step S .subscribe).1.runFrom S acts).2 stream := by
  refine runFrom_induct
    (P := fun e' past => ∃ stream, Follows e.broadcast e'.broadcast past stream)
    ⟨_, .start e.broadcast⟩ ?_
  rintro act _ e' past ⟨stream, h⟩
  exact h.airing (step_airing S e' act)

/-- **All views of the states agree.** In every run the state that is current is the one published
last, no state is published twice in a row, and the observer is told of every published state but
the first. Every stream that is made in a run gives its reader what the stream is due, in order and
without two that are the same in a row; as long as there is a reader, nothing is missing but what is
still queued.

A reader who waits is told of the end as soon as the broadcast is closed and nothing is queued, and
not before. One who does not wait gets a state whenever one is queued. After the close nothing is
published, and a stream that is made then has ended. -/
theorem views_agree (S : Setup σ ι ε) (acts : List (Act ι)) :
    ((S.initial :: publishedIn (run S acts).2).getLast? = some (run S acts).1.current ∧
      (S.initial :: publishedIn (run S acts).2).IsChain (Differ S) ∧
      observedIn (run S acts).2 = if S.observer.isSome then publishedIn (run S acts).2 else []) ∧
    ∀ pre post, acts = pre ++ .subscribe :: post →
      ∀ n, n = (run S pre).1.broadcast.streams.length →
        ∃ later stream, (run S acts).2 = (run S pre).2 ++ .subscribed n :: later ∧
          (run S acts).1.broadcast.streams[n]? = some stream ∧
          (due (run S pre).1.broadcast later).IsChain (Differ S) ∧
          foundIn n later <+: due (run S pre).1.broadcast later ∧
          (stream.held = true →
            foundIn n later ++ stream.queue = due (run S pre).1.broadcast later ∧
            (((run S acts).1.broadcast.read n).1.awaited = some none ↔
              (run S acts).1.broadcast.closed = true ∧ stream.queue = []) ∧
            ((run S acts).1.broadcast.read n).1.taken = stream.queue.head?) ∧
          ((run S pre).1.broadcast.closed = true →
            publishedIn later = [] ∧ ((run S acts).1.broadcast.read n).1 = .ended) := by
  have hall := published_runFrom S (.start S) acts
  refine ⟨⟨hall.current, hall.distinct, hall.observed⟩, ?_⟩
  rintro pre post rfl n rfl
  obtain ⟨stream, h⟩ := follows_runFrom S (run S pre).1 post
  have hlater := published_runFrom S ((run S pre).1.step S .subscribe).1 post
  rw [run_split]
  refine ⟨_, stream, rfl, h.made, ?_, h.part, fun hheld => ⟨h.whole hheld, ?_, ?_⟩, ?_⟩
  · exact hlater.due_isChain
  · exact h.awaited hheld
  · exact h.taken hheld
  · exact fun hc => ⟨(h.closed hc).2, h.ended hc⟩

/-- The last intent is the state. -/
def setter : Setup Nat Nat Unit where
  rules := {
    same := fun a b => a == b
    valid := fun _ _ => .ok true
    reduce := fun i _ => .ok i
    describe := fun i => toString i }
  settings := {}
  initial := 0
  filter := .allowAll
  handler := none
  reporter := .log
  observer := some { name := "log", notice := fun _ => .ok () }

/-- The second state is published after the stream was made, and is queued behind the first one when
the engine is let go. -/
theorem setter_stream :
    ∃ (later : List (Event Nat Nat Unit)) (stream : StateStream Nat),
      (run setter [.submit 1, .submit 2, .work, .subscribe, .work, .read 0, .drop]).2 =
        (run setter [.submit 1, .submit 2, .work]).2 ++ .subscribed 0 :: later ∧
      foundIn 0 later = [1] ∧ stream.queue = [2] ∧
      foundIn 0 later ++ stream.queue =
        due (run setter [.submit 1, .submit 2, .work]).1.broadcast later := by
  obtain ⟨later, stream, hlater, hmade, -, -, hheld, -⟩ :=
    (views_agree setter [.submit 1, .submit 2, .work, .subscribe, .work, .read 0, .drop]).2
      [.submit 1, .submit 2, .work] [.work, .read 0, .drop] rfl 0 rfl
  obtain rfl : (⟨[2], false, true⟩ : StateStream Nat) = stream := Option.some.inj hmade
  have hwhole := (hheld rfl).1
  have hlast : foundIn 0 later = [1] :=
    congrArg (fun events => foundIn 0 (events.drop 9)) hlater.symm
  exact ⟨later, _, hlater, hlast, rfl, hwhole⟩

end Engine

end IntentLoop
