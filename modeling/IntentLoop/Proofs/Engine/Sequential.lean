import IntentLoop.Proofs.Engine.Runs
/-!
# The sequential reading of an engine

Whatever the order in which intents are submitted and the worker, the effects and the subscribers
move, an engine publishes what a plain loop over the received intents would. `Sequential.take` is
one round of that loop. It remembers the last intent, whatever came of it, and it compares a new
state with the state before it; the broadcast compares it with the state that was published last.
The two may differ, as a state that is the same as the last one is not published and yet kept.
`InStep` ties them together: the last published state is the same as the worker's, so that, sameness
being an equivalence, both comparisons come out alike.

The result is about runs in which every callback answers (`Event.Answered`) and nobody has begun to
tear the engine down.
-/

namespace IntentLoop.Engine

variable {σ ι ε : Type}

/-! ### The loop -/

/-- Does the filter take the intent for a repeat? The first one never is. -/
def repeats (filter : IntentFilter ι) (previous : Option ι) (i : ι) : Attempt Bool :=
  match previous with
  | none => .ok false
  | some p => filter.repeats p i

/-- Where the loop stands. -/
structure Sequential (σ ι : Type) where
  state : σ
  /-- The last intent, whatever came of it. -/
  previous : Option ι
  /-- The states that are new to those who only know the one before. -/
  emitted : List σ

/-- One intent. -/
def Sequential.take (rules : Rules σ ι) (filter : IntentFilter ι) (r : Sequential σ ι) (i : ι) :
    Attempt (Sequential σ ι) := do
  if ← repeats filter r.previous i then
    return { r with previous := some i }
  else if ← rules.valid i r.state then
    let next ← rules.reduce i r.state
    return {
      state := next
      previous := some i
      emitted := if rules.same next r.state then r.emitted else r.emitted ++ [next] }
  else
    return { r with previous := some i }

def sequential (rules : Rules σ ι) (filter : IntentFilter ι) (initial : σ) (intents : List ι) :
    Attempt (Sequential σ ι) :=
  intents.foldlM (Sequential.take rules filter)
    { state := initial, previous := none, emitted := [initial] }

theorem sequential_concat {rules : Rules σ ι} {filter : IntentFilter ι} {initial : σ}
    {intents : List ι} {r : Sequential σ ι} (h : sequential rules filter initial intents = .ok r)
    (i : ι) : sequential rules filter initial (intents ++ [i]) = r.take rules filter i := by
  unfold sequential at h ⊢
  rw [List.foldlM_append, h]
  exact bind_pure (r.take rules filter i)

namespace Sequential

variable {rules : Rules σ ι} {filter : IntentFilter ι} {r : Sequential σ ι} {i : ι}

theorem take_repeat (h : repeats filter r.previous i = .ok true) :
    r.take rules filter i = .ok { r with previous := some i } := by
  simp [take, h, bind, Except.bind, pure, Except.pure]

theorem take_invalid (h : repeats filter r.previous i = .ok false)
    (hv : rules.valid i r.state = .ok false) :
    r.take rules filter i = .ok { r with previous := some i } := by
  simp [take, h, hv, bind, Except.bind, pure, Except.pure]

theorem take_valid {next : σ} (h : repeats filter r.previous i = .ok false)
    (hv : rules.valid i r.state = .ok true) (hr : rules.reduce i r.state = .ok next) :
    r.take rules filter i =
      .ok { state := next, previous := some i,
            emitted := if rules.same next r.state then r.emitted else r.emitted ++ [next] } := by
  simp [take, h, hv, hr, bind, Except.bind, pure, Except.pure]

end Sequential

/-! ### Callbacks that answer -/

/-- The callback that the event tells of, if any, has answered. -/
def Event.Answered (S : Setup σ ι ε) : Event σ ι ε → Prop
  | .compared previous next => ∃ b, S.filter.repeats previous next = .ok b
  | .validated i state => ∃ b, S.rules.valid i state = .ok b
  | .performed state i => ∀ h, S.handler = some h → ∃ effect, h.perform state i = .ok effect
  | .reduced i state => ∃ next, S.rules.reduce i state = .ok next
  | .observed state => ∀ o, S.observer = some o → o.notice state = .ok ()
  | _ => True

/-- All callbacks have answered. -/
def Calm (S : Setup σ ι ε) (past : List (Event σ ι ε)) : Prop := ∀ event ∈ past, event.Answered S

theorem Calm.left {S : Setup σ ι ε} {past later : List (Event σ ι ε)} (h : Calm S (past ++ later)) :
    Calm S past := fun event hmem => h event (List.mem_append_left later hmem)

theorem Calm.right {S : Setup σ ι ε} {past later : List (Event σ ι ε)}
    (h : Calm S (past ++ later)) : Calm S later :=
  fun event hmem => h event (List.mem_append_right past hmem)

theorem Calm.tail {S : Setup σ ι ε} {event : Event σ ι ε} {later : List (Event σ ι ε)}
    (h : Calm S (event :: later)) : Calm S later :=
  fun other hmem => h other (List.mem_cons_of_mem event hmem)

theorem repeats_of_calm {S : Setup σ ι ε} {previous : Option ι} {i : ι} {answer : Attempt Bool}
    {called : List (Event σ ι ε)} (hc : compare S previous i = (answer, called))
    (h : Calm S called) : ∃ b, repeats S.filter previous i = .ok b ∧ answer = .ok b := by
  cases previous with
  | none =>
    cases hc
    exact ⟨false, rfl, rfl⟩
  | some p =>
    cases hc
    obtain ⟨b, hb⟩ := h (.compared p i) (List.mem_singleton.mpr rfl)
    exact ⟨b, hb, hb⟩

theorem perform_of_calm {S : Setup σ ι ε} {state : σ} {i : ι} {id : Nat}
    {answer : Attempt (Option ε)} {called : List (Event σ ι ε)}
    (hp : perform S state i id = (answer, called)) (h : Calm S called) :
    ∃ effect, answer = .ok effect := by
  unfold perform at hp
  cases hh : S.handler with
  | none =>
    rw [hh] at hp
    cases hp
    exact ⟨none, rfl⟩
  | some handler =>
    rw [hh] at hp
    dsimp only at hp
    cases he : handler.perform state i with
    | error p =>
      rw [he] at hp
      cases hp
      obtain ⟨effect, hok⟩ := h (.performed state i) (List.mem_singleton.mpr rfl) handler hh
      rw [he] at hok
      cases hok
    | ok effect =>
      rw [he] at hp
      cases effect <;> cases hp
      · exact ⟨none, rfl⟩
      · exact ⟨some _, rfl⟩

/-- Where all callbacks answer, an intent is a repeat, or invalid, or reduced. -/
theorem Decided.of_calm {S : Setup σ ι ε} {state : σ} {previous : Option ι} {i : ι} {id : Nat}
    {f : Fate σ ε} {called : List (Event σ ι ε)} (hd : Decided S state previous i id (f, called))
    (h : Calm S called) :
    (repeats S.filter previous i = .ok true ∧ f = .repeated) ∨
      (repeats S.filter previous i = .ok false ∧ S.rules.valid i state = .ok false ∧ f = .refused) ∨
      ∃ next effect, repeats S.filter previous i = .ok false ∧ S.rules.valid i state = .ok true ∧
        S.rules.reduce i state = .ok next ∧ f = .applied next effect := by
  cases hd with
  | crashed hc =>
    obtain ⟨b, -, hb⟩ := repeats_of_calm hc h
    cases hb
  | repeated hc =>
    obtain ⟨b, hrep, hb⟩ := repeats_of_calm hc h.left
    cases hb
    exact Or.inl ⟨hrep, rfl⟩
  | unvalidated hc hv =>
    obtain ⟨b, hb⟩ := h.right _ (List.mem_singleton.mpr rfl)
    rw [hv] at hb
    cases hb
  | refused hc hv =>
    obtain ⟨b, hrep, hb⟩ := repeats_of_calm hc h.left.left
    cases hb
    exact Or.inr (Or.inl ⟨hrep, hv, rfl⟩)
  | unperformed hc hv hp =>
    obtain ⟨effect, heffect⟩ := perform_of_calm hp h.right
    cases heffect
  | unreduced hc hv hp hr =>
    obtain ⟨next, hn⟩ := h.right _ (List.mem_singleton.mpr rfl)
    rw [hr] at hn
    cases hn
  | applied hc hv hp hr =>
    obtain ⟨b, hrep, hb⟩ := repeats_of_calm hc h.left.left.left
    cases hb
    exact Or.inr (Or.inr ⟨_, _, hrep, hv, hr, rfl⟩)

theorem notice_of_calm {S : Setup σ ι ε} {next : σ} (h : Calm S (news S next)) :
    notice S next = .ok () := by
  unfold news at h
  unfold notice
  cases ho : S.observer with
  | none => rfl
  | some o =>
    rw [ho] at h
    exact h (.observed next) (by simp) o ho

/-! ### The invariant -/

/-- The engine is where the loop is. -/
structure InStep (S : Setup σ ι ε) (e : Engine σ ι) (past : List (Event σ ι ε))
    (r : Sequential σ ι) : Prop where
  read : sequential S.rules S.filter S.initial (receivedIn past) = .ok r
  worker : e.worker = .alive r.state r.previous
  emitted : r.emitted = S.initial :: publishedIn past
  same : S.rules.same e.broadcast.last r.state = true
  opened : e.broadcast.closed = false
  running : e.shutdown = false

namespace InStep

variable {S : Setup σ ι ε} {e : Engine σ ι} {past : List (Event σ ι ε)} {r : Sequential σ ι}

theorem start (hsame : Equivalence fun a b => S.rules.same a b = true) :
    InStep S (.start S) [] { state := S.initial, previous := none, emitted := [S.initial] } where
  read := rfl
  worker := rfl
  emitted := rfl
  same := hsame.refl S.initial
  opened := rfl
  running := rfl

theorem beside (h : InStep S e past r) {after : Engine σ ι × List (Event σ ι ε)}
    (hb : Beside e after) : InStep S after.1 (past ++ after.2) r where
  read := by
    rw [receivedIn_append, hb.silent.receivedIn_eq_nil, List.append_nil]
    exact h.read
  worker := hb.worker.trans h.worker
  emitted := by
    rw [publishedIn_append, hb.silent.publishedIn_eq_nil, List.append_nil]
    exact h.emitted
  same := by
    rw [hb.broadcast]
    exact h.same
  opened := by
    rw [hb.broadcast]
    exact h.opened
  running := hb.shutdown.trans h.running

theorem streams (h : InStep S e past r) {b : Broadcast σ} {events : List (Event σ ι ε)}
    (hlast : b.last = e.broadcast.last) (hclosed : b.closed = e.broadcast.closed)
    (hr : receivedIn events = []) (hp : publishedIn events = []) :
    InStep S { e with broadcast := b } (past ++ events) r where
  read := by
    rw [receivedIn_append, hr, List.append_nil]
    exact h.read
  worker := h.worker
  emitted := by
    rw [publishedIn_append, hp, List.append_nil]
    exact h.emitted
  same := hlast.symm ▸ h.same
  opened := hclosed.trans h.opened
  running := h.running

theorem skip (h : InStep S e past r) {i : ι} {called : List (Event σ ι ε)} (hp : Private called)
    (ht : r.take S.rules S.filter i = .ok { r with previous := some i }) :
    InStep S { e with worker := .alive r.state (some i) } (past ++ .received i :: called)
      { r with previous := some i } where
  read := by
    have hi : receivedIn (.received i :: called) = [i] := congrArg (i :: ·) hp.receivedIn_eq_nil
    rw [receivedIn_append, hi, sequential_concat h.read, ht]
  worker := rfl
  emitted := by
    have hn : publishedIn (.received i :: called) = [] := hp.publishedIn_eq_nil
    rw [publishedIn_append, hn, List.append_nil]
    exact h.emitted
  same := h.same
  opened := h.opened
  running := h.running

/-- An intent is reduced, and the new state becomes the worker's. -/
theorem reduce (h : InStep S e past r) {i : ι} {next : σ} {after : Engine σ ι}
    {events : List (Event σ ι ε)} (hrep : repeats S.filter r.previous i = .ok false)
    (hv : S.rules.valid i r.state = .ok true) (hr : S.rules.reduce i r.state = .ok next)
    (hi : receivedIn events = [i])
    (hp : publishedIn events = if S.rules.same next r.state then [] else [next])
    (hw : after.worker = .alive next (some i))
    (hlast : S.rules.same after.broadcast.last next = true)
    (hopen : after.broadcast.closed = false) (hrun : after.shutdown = false) :
    ∃ r', InStep S after (past ++ events) r' := by
  refine ⟨{ state := next, previous := some i, emitted :=
    if S.rules.same next r.state then r.emitted else r.emitted ++ [next] }, ?_, hw, ?_,
    hlast, hopen, hrun⟩
  · rw [receivedIn_append, hi, sequential_concat h.read, Sequential.take_valid hrep hv hr]
  · rw [publishedIn_append, hp, h.emitted]
    split
    · rw [List.append_nil]
    · rfl

/-- **An intent is taken as the loop takes it, and published where the loop emits it.** -/
theorem receipt (hsame : Equivalence fun a b => S.rules.same a b = true) (h : InStep S e past r)
    {i : ι} {after : Engine σ ι × List (Event σ ι ε)}
    (hr : Receipt S r.state r.previous i e after) (hcalm : Calm S after.2) :
    ∃ r', InStep S after.1 (past ++ after.2) r' := by
  cases hr with
  | crashed p called hd =>
    have hc : Calm S called := hcalm.left.tail
    rcases hd.of_calm hc with ⟨-, hno⟩ | ⟨-, -, hno⟩ | ⟨_, _, -, -, -, hno⟩ <;> cases hno
  | failed p effect called hd =>
    have hc : Calm S called := hcalm.left.tail
    rcases hd.of_calm hc with ⟨-, hno⟩ | ⟨-, -, hno⟩ | ⟨_, _, -, -, -, hno⟩ <;> cases hno
  | skipped f called hd hskip =>
    rcases hd.of_calm hcalm.tail with ⟨hrep, -⟩ | ⟨hrep, hv, -⟩ | ⟨_, _, -, -, -, hno⟩
    · exact ⟨_, h.skip hd.silent (Sequential.take_repeat hrep)⟩
    · exact ⟨_, h.skip hd.silent (Sequential.take_invalid hrep hv)⟩
    · subst hno
      rcases hskip with hno | hno <;> cases hno
  | kept next effect called hd hsuppressed =>
    rcases hd.of_calm hcalm.left.tail with ⟨-, hno⟩ | ⟨-, -, hno⟩ | ⟨_, _, hrep, hv, hred, heq⟩
    · cases hno
    · cases hno
    · cases heq
      have hlast : S.rules.same e.broadcast.last next = true := by
        rcases hsuppressed with hclosed | hlast
        · rw [h.opened] at hclosed
          cases hclosed
        · exact hlast
      -- both the old state and the new one are the same as the state published last
      have hstay : S.rules.same next r.state = true := hsame.trans (hsame.symm hlast) h.same
      refine h.reduce hrep hv hred (hd.silent.receivedIn_cons i _) ?_ rfl ?_ ?_ ?_
      · rw [hd.silent.publishedIn_cons, if_pos hstay]
        rfl
      · exact track_broadcast effect e ▸ hlast
      · exact (congrArg Broadcast.closed (track_broadcast effect e)).trans h.opened
      · exact (track_shutdown effect e).trans h.running
  | published next effect called hd hopen hdiff hn =>
    rcases hd.of_calm hcalm.left.left.tail with
      ⟨-, hno⟩ | ⟨-, -, hno⟩ | ⟨_, _, hrep, hv, hred, heq⟩
    · cases hno
    · cases hno
    · cases heq
      have hmove : ¬S.rules.same next r.state = true := by
        intro hstay
        rw [hsame.trans h.same (hsame.symm hstay)] at hdiff
        cases hdiff
      refine h.reduce hrep hv hred ?_ ?_ rfl (hsame.refl next) ?_ ?_
      · rw [List.append_assoc, hd.silent.receivedIn_cons, receivedIn_append, receivedIn_news]
        rfl
      · rw [List.append_assoc, hd.silent.publishedIn_cons, publishedIn_append, publishedIn_news,
          if_neg hmove]
        rfl
      · exact (congrArg Broadcast.closed (track_broadcast effect e)).trans hopen
      · exact (track_shutdown effect e).trans h.running
  | unnoticed next effect called p hd hopen hdiff hn =>
    rw [notice_of_calm hcalm.left.right] at hn
    cases hn

theorem work (hsame : Equivalence fun a b => S.rules.same a b = true) (h : InStep S e past r)
    {after : Engine σ ι × List (Event σ ι ε)} (hw : Worked S e after) (hcalm : Calm S after.2) :
    ∃ r', InStep S after.1 (past ++ after.2) r' := by
  cases hw with
  | ended hdead =>
    rw [isAlive, h.worker] at hdead
    cases hdead
  | stopped _ _ _ hstop =>
    rw [h.running] at hstop
    cases hstop
  | idle => exact ⟨r, h.beside (.refl e)⟩
  | received state previous hw _ i rest _ hr =>
    rw [h.worker] at hw
    cases hw
    have hrest : InStep S { e with inbox := rest } past r :=
      ⟨h.read, h.worker, h.emitted, h.same, h.opened, h.running⟩
    exact hrest.receipt hsame hr hcalm

theorem step (hsame : Equivalence fun a b => S.rules.same a b = true) (h : InStep S e past r)
    {act : Act ι} (hact : act ≠ .destroy ∧ act ≠ .drop) (hcalm : Calm S (e.step S act).2) :
    ∃ r', InStep S (e.step S act).1 (past ++ (e.step S act).2) r' := by
  cases act with
  | submit i => exact ⟨r, h.beside (e.step_apart S rfl)⟩
  | effect id intents exit => exact ⟨r, h.beside (e.step_apart S rfl)⟩
  | resume id => exact ⟨r, h.beside (e.step_apart S rfl)⟩
  | work => exact h.work hsame (work_worked S e) hcalm
  | subscribe => exact ⟨r, h.streams rfl rfl rfl rfl⟩
  | read n =>
    exact ⟨r, h.streams (e.broadcast.read_last n) (e.broadcast.read_closed n) rfl rfl⟩
  | unsubscribe n => exact ⟨r, h.streams rfl rfl rfl rfl⟩
  | destroy => exact absurd rfl hact.1
  | drop => exact absurd rfl hact.2

end InStep

/-- As long as all callbacks answer and no teardown has begun, the engine is where the loop is. -/
theorem inStep_run {S : Setup σ ι ε} (hsame : Equivalence fun a b => S.rules.same a b = true)
    {acts : List (Act ι)} (hacts : ∀ act ∈ acts, act ≠ .destroy ∧ act ≠ .drop)
    (hcalm : Calm S (run S acts).2) : ∃ r, InStep S (run S acts).1 (run S acts).2 r := by
  refine runFrom_induct (P := fun e past => Calm S past → ∃ r, InStep S e past r)
    (fun _ => ⟨_, .start hsame⟩) ?_ hcalm
  intro act hmem e past ih hc
  obtain ⟨r, h⟩ := ih hc.left
  exact h.step hsame (hacts act hmem) hc.right

/-- **An engine publishes what the loop emits.** In whatever order intents are submitted and the
worker, the effects and the subscribers move: while all callbacks answer and no teardown has begun,
the loop over the intents received so far ends in the worker's state, and what it emits is the
initial state and the states published so far. Runs that receive the same intents in the same order
therefore publish the same states, however else they differ.

Only sameness has to be an equivalence. It may take different states for the same, and a state that
is not published for that reason is nevertheless the one that the next intent meets. -/
theorem published_eq_sequential (S : Setup σ ι ε)
    (hsame : Equivalence fun a b => S.rules.same a b = true) (acts : List (Act ι))
    (hacts : ∀ act ∈ acts, act ≠ .destroy ∧ act ≠ .drop) (hcalm : Calm S (run S acts).2) :
    (∃ r, sequential S.rules S.filter S.initial (receivedIn (run S acts).2) = .ok r ∧
      (run S acts).1.worker = .alive r.state r.previous ∧
      r.emitted = S.initial :: publishedIn (run S acts).2) ∧
    ∀ others : List (Act ι), (∀ act ∈ others, act ≠ .destroy ∧ act ≠ .drop) →
      Calm S (run S others).2 → receivedIn (run S others).2 = receivedIn (run S acts).2 →
        publishedIn (run S others).2 = publishedIn (run S acts).2 := by
  obtain ⟨r, h⟩ := inStep_run hsame hacts hcalm
  refine ⟨⟨r, h.read, h.worker, h.emitted⟩, ?_⟩
  intro others hothers hcalm' hreceived
  obtain ⟨r', h'⟩ := inStep_run hsame hothers hcalm'
  -- one list of intents has one reading
  have hr : r' = r := by
    have heq := h'.read
    rw [hreceived, h.read] at heq
    exact (Except.ok.inj heq).symm
  subst hr
  exact (List.cons.inj (h'.emitted.symm.trans h.emitted)).2

/-- A counter of which subscribers see the last digit only, and to which anything but tens may be
added only from ten on. -/
def counter : Setup Nat Nat Unit where
  rules := {
    same := fun a b => a % 10 == b % 10
    valid := fun i s => .ok (i % 10 == 0 || 10 ≤ s)
    reduce := fun i s => .ok (s + i)
    describe := fun i => toString i }
  settings := {}
  initial := 0
  filter := .structural
  handler := none
  reporter := .log
  observer := none

/-- The state 20 is not published, and yet it is the one to which 3 may be added. -/
theorem counter_published :
    ∃ r, sequential counter.rules counter.filter 0 [20, 3, 3] = .ok r ∧ r.state = 23 ∧
      r.emitted = [0, 23] := by
  have hsame : Equivalence fun a b => counter.rules.same a b = true :=
    ⟨fun a => beq_self_eq_true (a % 10), fun h => beq_iff_eq.mpr (beq_iff_eq.mp h).symm,
      fun h h' => beq_iff_eq.mpr ((beq_iff_eq.mp h).trans (beq_iff_eq.mp h'))⟩
  have hcalm : ∀ past, Calm counter past := by
    intro past event _
    cases event <;> first | trivial | exact ⟨_, rfl⟩ | exact fun _ h => nomatch h
  obtain ⟨⟨r, hread, hworker, hemitted⟩, -⟩ := published_eq_sequential counter hsame
    [.submit 20, .submit 3, .work, .subscribe, .work, .submit 3, .work] (by decide) (hcalm _)
  exact ⟨r, hread, (Worker.alive.inj hworker).1.symm, hemitted⟩

end IntentLoop.Engine
