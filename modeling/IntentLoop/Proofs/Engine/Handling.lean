import IntentLoop.Proofs.Engine.Halting
/-!
# The calls of the effect handler

The handler is shown a state that nobody else may ever see: the worker's own, which is not published
where it is the same as the one published last. Which states these are follows from the received
intents alone. `admitted` reads the intents one after another; it leaves out those that the filter or
the validation turns away, and it pairs each of the others with the state that all admitted ones before
it were reduced to. A callback that breaks off ends the reading.

* `turn`: what is asked about an admitted intent. It is validated, shown to the handler and reduced,
  always in the same state; a handler that breaks off has the last word.
* `Reads`: where the reading stands while the worker is alive.
* `handled_in_turn`: a run asks about the admitted intents and about no others, in the order in which
  they were received.
-/

namespace IntentLoop.Engine

variable {σ ι ε : Type} {S : Setup σ ι ε} {e : Engine σ ι}

/-! ### Reading the received intents -/

/-- Is the intent, received in a state and after another one, neither a repeat nor invalid? -/
def admits (S : Setup σ ι ε) (state : σ) (previous : Option ι) (i : ι) : Attempt Bool := do
  if ← repeats S.filter previous i then return false
  S.rules.valid i state

/-- What the handler says to an intent. -/
def answer (S : Setup σ ι ε) (state : σ) (i : ι) : Attempt (Option ε) :=
  match S.handler with
  | none => .ok none
  | some h => h.perform state i

/-- The state that comes of an admitted intent. -/
def handled (S : Setup σ ι ε) (state : σ) (i : ι) : Attempt σ := do
  let _ ← answer S state i
  S.rules.reduce i state

/-- The admitted ones of the intents that are received in a state and after another intent, each with
the state that it meets. -/
def admitted (S : Setup σ ι ε) (state : σ) (previous : Option ι) : List ι → List (σ × ι)
  | [] => []
  | i :: rest =>
    match admits S state previous i with
    | .error _ => []
    | .ok false => admitted S state (some i) rest
    | .ok true =>
      (state, i) ::
        match handled S state i with
        | .error _ => []
        | .ok next => admitted S next (some i) rest

/-- The state to which intents are reduced one after another. -/
def reached (S : Setup σ ι ε) (state : σ) (calls : List (σ × ι)) : Attempt σ :=
  calls.foldlM (fun s call => S.rules.reduce call.2 s) state

theorem reached_append (S : Setup σ ι ε) (state : σ) (calls more : List (σ × ι)) :
    reached S state (calls ++ more) = reached S state calls >>= fun s => reached S s more :=
  List.foldlM_append

section

variable {state : σ} {previous : Option ι} {i : ι}

theorem admits_of_repeat (h : repeats S.filter previous i = .ok true) :
    admits S state previous i = .ok false := by
  simp [admits, h, bind, Except.bind, pure, Except.pure]

theorem admits_of_new (h : repeats S.filter previous i = .ok false) :
    admits S state previous i = S.rules.valid i state := by
  simp [admits, h, bind, Except.bind]

theorem admits_eq_ok_true :
    admits S state previous i = .ok true ↔
      repeats S.filter previous i = .ok false ∧ S.rules.valid i state = .ok true := by
  constructor
  · intro h
    cases hr : repeats S.filter previous i with
    | error p => simp [admits, hr, bind, Except.bind] at h
    | ok b =>
      cases b with
      | true =>
        rw [admits_of_repeat hr] at h
        cases h
      | false => exact ⟨rfl, (admits_of_new hr).symm.trans h⟩
  · intro ⟨hr, hv⟩
    exact (admits_of_new hr).trans hv

theorem handled_of_answer {effect : Option ε} (h : answer S state i = .ok effect) :
    handled S state i = S.rules.reduce i state := by
  simp [handled, h, bind, Except.bind]

theorem handled_of_error {p : Panic} (h : answer S state i = .error p) :
    handled S state i = .error p := by
  simp [handled, h, bind, Except.bind]

theorem reduce_of_handled {next : σ} (h : handled S state i = .ok next) :
    S.rules.reduce i state = .ok next := by
  cases ha : answer S state i with
  | error p =>
    rw [handled_of_error ha] at h
    cases h
  | ok effect => exact (handled_of_answer ha).symm.trans h

@[simp] theorem admitted_nil (S : Setup σ ι ε) (state : σ) (previous : Option ι) :
    admitted S state previous [] = [] := rfl

theorem admitted_of_error {p : Panic} (h : admits S state previous i = .error p) (rest : List ι) :
    admitted S state previous (i :: rest) = [] := by
  rw [admitted, h]

theorem admitted_of_skipped (h : admits S state previous i = .ok false) (rest : List ι) :
    admitted S state previous (i :: rest) = admitted S state (some i) rest := by
  rw [admitted, h]

theorem admitted_of_broken {p : Panic} (h : admits S state previous i = .ok true)
    (hn : handled S state i = .error p) (rest : List ι) :
    admitted S state previous (i :: rest) = [(state, i)] := by
  rw [admitted, h]
  dsimp only
  rw [hn]

theorem admitted_of_handled {next : σ} (h : admits S state previous i = .ok true)
    (hn : handled S state i = .ok next) (rest : List ι) :
    admitted S state previous (i :: rest) = (state, i) :: admitted S next (some i) rest := by
  rw [admitted, h]
  dsimp only
  rw [hn]

theorem admitted_singleton (h : admits S state previous i = .ok true) :
    admitted S state previous [i] = [(state, i)] := by
  cases hn : handled S state i with
  | error p => exact admitted_of_broken h hn []
  | ok next => exact admitted_of_handled h hn []

end

/-- The states of the admitted intents are those that the ones before are reduced to; and where the
handler or the reduction breaks off, there are no more. -/
theorem admitted_split {state : σ} {previous : Option ι} {intents : List ι}
    {before after : List (σ × ι)} {s : σ} {i : ι}
    (h : admitted S state previous intents = before ++ (s, i) :: after) :
    reached S state before = .ok s ∧ S.rules.valid i s = .ok true ∧
      ∀ p, handled S s i = .error p → after = [] := by
  induction intents generalizing state previous before with
  | nil => exact absurd h (by simp)
  | cons j rest ih =>
    cases ha : admits S state previous j with
    | error p =>
      rw [admitted_of_error ha] at h
      exact absurd h (by simp)
    | ok b =>
    cases b with
    | false =>
      rw [admitted_of_skipped ha] at h
      exact ih h
    | true =>
    have hvalid := (admits_eq_ok_true.mp ha).2
    cases hn : handled S state j with
    | error p =>
      rw [admitted_of_broken ha hn] at h
      obtain ⟨rfl, hcons⟩ := List.append_eq_singleton_iff.mp h.symm |>.resolve_right (by simp)
      obtain ⟨hpair, rfl⟩ := List.cons.inj hcons
      obtain ⟨rfl, rfl⟩ := Prod.mk.inj hpair
      exact ⟨rfl, hvalid, fun _ _ => rfl⟩
    | ok next =>
      rw [admitted_of_handled ha hn] at h
      cases before with
      | nil =>
        obtain ⟨hpair, -⟩ := List.cons.inj h
        obtain ⟨rfl, rfl⟩ := Prod.mk.inj hpair
        refine ⟨rfl, hvalid, fun p hp => ?_⟩
        rw [hn] at hp
        cases hp
      | cons first before =>
        obtain ⟨rfl, hrest⟩ := List.cons.inj h
        obtain ⟨hreached, hlater⟩ := ih hrest
        refine ⟨?_, hlater⟩
        show (S.rules.reduce j state >>= fun s => reached S s before) = .ok s
        rw [reduce_of_handled hn]
        exact hreached

/-! ### What is asked about an intent -/

/-- Does the event tell of a callback about an intent that is valid? -/
def Event.isTurn (S : Setup σ ι ε) : Event σ ι ε → Bool
  | .validated i state => (S.rules.valid i state matches .ok true)
  | .performed _ _ | .reduced _ _ => true
  | _ => false

/-- The callbacks about intents that are valid: validation, handler and reduction, in order. -/
def turnsIn (S : Setup σ ι ε) (past : List (Event σ ι ε)) : List (Event σ ι ε) :=
  past.filter (·.isTurn S)

def Event.performed? : Event σ ι ε → Option (σ × ι)
  | .performed state i => some (state, i)
  | _ => none

/-- The calls of the handler, in order. -/
def performedIn (past : List (Event σ ι ε)) : List (σ × ι) := past.filterMap Event.performed?

/-- What the handler is asked, if there is one. -/
def asked (S : Setup σ ι ε) (call : σ × ι) : List (Event σ ι ε) :=
  if S.handler.isSome then [.performed call.1 call.2] else []

/-- The callbacks about an admitted intent in the state that it meets. -/
def turn (S : Setup σ ι ε) (call : σ × ι) : List (Event σ ι ε) :=
  .validated call.2 call.1 :: asked S call ++
    match answer S call.1 call.2 with
    | .ok _ => [.reduced call.2 call.1]
    | .error _ => []

@[simp] theorem turnsIn_append (S : Setup σ ι ε) (past later : List (Event σ ι ε)) :
    turnsIn S (past ++ later) = turnsIn S past ++ turnsIn S later := List.filter_append ..

theorem turnsIn_of_workless {events : List (Event σ ι ε)} (h : Workless events) :
    turnsIn S events = [] := by
  refine List.filter_eq_nil_iff.mpr fun event hmem => ?_
  have hevent := h event hmem
  cases event <;> first | exact Bool.false_ne_true | cases hevent

theorem turnsIn_news (S : Setup σ ι ε) (next : σ) : turnsIn S (news S next) = [] := by
  unfold news
  cases S.observer <;> rfl

theorem performedIn_turnsIn (S : Setup σ ι ε) (past : List (Event σ ι ε)) :
    performedIn (turnsIn S past) = performedIn past := by
  refine (List.filterMap_filter ..).trans (congrArg (List.filterMap · past) (funext fun event => ?_))
  cases event with
  | validated => exact ite_self none
  | performed | reduced => rfl
  | _ => rfl

theorem performedIn_turn {h : Handler σ ι ε} (hS : S.handler = some h) (call : σ × ι) :
    performedIn (turn S call) = [call] := by
  unfold turn asked
  rw [hS]
  cases answer S call.1 call.2 <;> rfl

theorem performedIn_turns {h : Handler σ ι ε} (hS : S.handler = some h) (calls : List (σ × ι)) :
    performedIn (calls.flatMap (turn S)) = calls := by
  induction calls with
  | nil => rfl
  | cons call calls ih =>
    have hcons : performedIn (turn S call ++ calls.flatMap (turn S)) =
        performedIn (turn S call) ++ performedIn (calls.flatMap (turn S)) := List.filterMap_append
    rw [List.flatMap_cons, hcons, performedIn_turn hS, ih]
    rfl

theorem compare_repeats {previous : Option ι} {i : ι} {b : Attempt Bool}
    {compared : List (Event σ ι ε)} (h : compare S previous i = (b, compared)) :
    repeats S.filter previous i = b ∧ turnsIn S compared = [] := by
  cases previous <;> cases h <;> exact ⟨rfl, rfl⟩

theorem perform_answer {state : σ} {i : ι} {id : Nat} {effect : Attempt (Option ε)}
    {performed : List (Event σ ι ε)} (h : perform S state i id = (effect, performed)) :
    answer S state i = effect ∧ turnsIn S performed = asked S (state, i) := by
  unfold perform at h
  unfold answer asked
  split at h
  · rename_i hS
    cases h
    rw [hS]
    exact ⟨rfl, rfl⟩
  · rename_i handler hS
    rw [hS]
    split at h <;> rename_i hp <;> cases h <;> exact ⟨hp, rfl⟩

theorem isTurn_validated {i : ι} {state : σ} :
    (.validated i state : Event σ ι ε).isTurn S = true ↔ S.rules.valid i state = .ok true := by
  unfold Event.isTurn
  dsimp only
  split
  · rename_i hv
    exact ⟨fun _ => hv, fun _ => rfl⟩
  · rename_i hv
    exact ⟨nofun, fun h => absurd h hv⟩

theorem turnsIn_validated {i : ι} {state : σ} (h : S.rules.valid i state = .ok true) :
    turnsIn S [(.validated i state : Event σ ι ε)] = [.validated i state] :=
  List.filter_cons_of_pos (isTurn_validated.mpr h)

theorem turnsIn_unvalidated {i : ι} {state : σ} (h : S.rules.valid i state ≠ .ok true) :
    turnsIn S [(.validated i state : Event σ ι ε)] = [] :=
  List.filter_cons_of_neg (mt isTurn_validated.mp h)

namespace Decided

variable {state : σ} {previous : Option ι} {i : ι} {id : Nat} {f : Fate σ ε}
  {called : List (Event σ ι ε)}

/-- The callbacks that decide an intent are its turn if it is admitted, and else no turn at all. -/
theorem turns (hd : Decided S state previous i id (f, called)) :
    turnsIn S called = (admitted S state previous [i]).flatMap (turn S) := by
  cases hd with
  | crashed hc =>
    obtain ⟨hr, hcompared⟩ := compare_repeats hc
    have ha : ∃ p, admits S state previous i = .error p := by
      simp [admits, hr, bind, Except.bind]
    obtain ⟨p, ha⟩ := ha
    rw [admitted_of_error ha, hcompared]
    rfl
  | repeated hc =>
    obtain ⟨hr, hcompared⟩ := compare_repeats hc
    rw [admitted_of_skipped (admits_of_repeat hr), turnsIn_append, hcompared]
    rfl
  | unvalidated hc hv =>
    obtain ⟨hr, hcompared⟩ := compare_repeats hc
    rw [admitted_of_error ((admits_of_new hr).trans hv), turnsIn_append, hcompared,
      turnsIn_unvalidated (by rw [hv]; nofun)]
    rfl
  | refused hc hv =>
    obtain ⟨hr, hcompared⟩ := compare_repeats hc
    rw [admitted_of_skipped ((admits_of_new hr).trans hv), turnsIn_append, turnsIn_append, hcompared,
      turnsIn_unvalidated (by rw [hv]; nofun)]
    rfl
  | unperformed hc hv hp =>
    obtain ⟨hr, hcompared⟩ := compare_repeats hc
    obtain ⟨ha, hperformed⟩ := perform_answer hp
    rw [admitted_singleton ((admits_of_new hr).trans hv), turnsIn_append, turnsIn_append, hcompared,
      turnsIn_validated hv, hperformed, List.flatMap_singleton]
    unfold turn
    rw [ha]
    simp
  | unreduced hc hv hp _ | applied hc hv hp _ =>
    obtain ⟨hr, hcompared⟩ := compare_repeats hc
    obtain ⟨ha, hperformed⟩ := perform_answer hp
    have hreduced : turnsIn S [(.reduced i state : Event σ ι ε)] = [.reduced i state] := rfl
    rw [admitted_singleton ((admits_of_new hr).trans hv), turnsIn_append, turnsIn_append,
      turnsIn_append, hcompared, turnsIn_validated hv, hperformed, hreduced, List.flatMap_singleton]
    unfold turn
    rw [ha]
    rfl

theorem skips (hd : Decided S state previous i id (f, called)) (hf : f = .repeated ∨ f = .refused) :
    admits S state previous i = .ok false := by
  cases hd with
  | repeated hc => exact admits_of_repeat (compare_repeats hc).1
  | refused hc hv => exact (admits_of_new (compare_repeats hc).1).trans hv
  | crashed | unvalidated | unperformed | unreduced | applied => rcases hf with hf | hf <;> cases hf

theorem applies {next : σ} {effect : Option ε}
    (hd : Decided S state previous i id (.applied next effect, called)) :
    admits S state previous i = .ok true ∧ handled S state i = .ok next := by
  cases hd with
  | applied hc hv hp hr =>
    exact ⟨(admits_of_new (compare_repeats hc).1).trans hv,
      (handled_of_answer (perform_answer hp).1).trans hr⟩

end Decided

/-! ### One intent -/

/-- What a worker is after an intent, if it is still alive. -/
inductive Onward (S : Setup σ ι ε) (state : σ) (previous : Option ι) (i : ι) : Worker σ ι → Prop
  | ended {worker : Worker σ ι} (h : ∀ s q, worker ≠ .alive s q) : Onward S state previous i worker
  | skipped (ha : admits S state previous i = .ok false) :
      Onward S state previous i (.alive state (some i))
  | reduced {next : σ} (ha : admits S state previous i = .ok true)
      (hn : handled S state i = .ok next) : Onward S state previous i (.alive next (some i))

theorem Receipt.handles {state : σ} {previous : Option ι} {i : ι}
    {after : Engine σ ι × List (Event σ ι ε)} (h : Receipt S state previous i e after) :
    turnsIn S after.2 = (admitted S state previous [i]).flatMap (turn S) ∧
      Onward S state previous i after.1.worker := by
  have told : ∀ {f : Fate σ ε} {called rest : List (Event σ ι ε)},
      Decided S state previous i e.effects.length (f, called) → turnsIn S rest = [] →
      turnsIn S (.received i :: called ++ rest) =
        (admitted S state previous [i]).flatMap (turn S) := by
    intro f called rest hd hrest
    rw [turnsIn_append, hrest, List.append_nil]
    exact hd.turns
  cases h with
  | crashed p called hd => exact ⟨told hd rfl, .ended nofun⟩
  | skipped f called hd hskip => exact ⟨hd.turns, .skipped (hd.skips hskip)⟩
  | failed p effect called hd => exact ⟨told hd rfl, .ended nofun⟩
  | kept next effect called hd => exact ⟨told hd rfl, .reduced hd.applies.1 hd.applies.2⟩
  | published next effect called hd =>
    rw [List.append_assoc]
    exact ⟨told hd (by rw [turnsIn_append, turnsIn_news]; rfl),
      .reduced hd.applies.1 hd.applies.2⟩
  | unnoticed next effect called p hd =>
    rw [List.append_assoc]
    exact ⟨told hd (by rw [turnsIn_append, turnsIn_news]; rfl), .ended nofun⟩

/-! ### Runs -/

/-- The reading of the received intents has come to a state and a last intent, and goes on from
there. -/
structure Reads (S : Setup σ ι ε) (intents : List ι) (state : σ) (previous : Option ι) : Prop where
  last : previous = intents.getLast?
  state_eq : reached S S.initial (admitted S S.initial none intents) = .ok state
  append : ∀ rest, admitted S S.initial none (intents ++ rest) =
    admitted S S.initial none intents ++ admitted S state previous rest

namespace Reads

variable {intents : List ι} {state : σ} {previous : Option ι}

theorem nil (S : Setup σ ι ε) : Reads S [] S.initial none := ⟨rfl, rfl, fun _ => rfl⟩

theorem skipped (h : Reads S intents state previous) {i : ι}
    (ha : admits S state previous i = .ok false) : Reads S (intents ++ [i]) state (some i) := by
  have hsame : admitted S S.initial none (intents ++ [i]) = admitted S S.initial none intents := by
    rw [h.append, admitted_of_skipped ha, admitted_nil, List.append_nil]
  refine ⟨List.getLast?_concat.symm, ?_, fun rest => ?_⟩
  · rw [hsame, h.state_eq]
  · rw [hsame, List.append_assoc, h.append, List.singleton_append, admitted_of_skipped ha]

theorem reduced (h : Reads S intents state previous) {i : ι} {next : σ}
    (ha : admits S state previous i = .ok true) (hn : handled S state i = .ok next) :
    Reads S (intents ++ [i]) next (some i) := by
  have hmore : admitted S S.initial none (intents ++ [i]) =
      admitted S S.initial none intents ++ [(state, i)] := by
    rw [h.append, admitted_singleton ha]
  refine ⟨List.getLast?_concat.symm, ?_, fun rest => ?_⟩
  · have hlast : reached S state [(state, i)] = .ok next := by
      show (S.rules.reduce i state >>= pure) = .ok next
      rw [reduce_of_handled hn]
      rfl
    rw [hmore, reached_append, h.state_eq]
    exact hlast
  · rw [hmore, List.append_assoc, h.append, List.singleton_append, admitted_of_handled ha hn]
    simp

theorem onward (h : Reads S intents state previous) {i : ι} {worker : Worker σ ι}
    (ho : Onward S state previous i worker) {s : σ} {q : Option ι} (hw : worker = .alive s q) :
    Reads S (intents ++ [i]) s q := by
  cases ho with
  | ended hdead => exact absurd hw (hdead s q)
  | skipped ha =>
    cases hw
    exact h.skipped ha
  | reduced ha hn =>
    cases hw
    exact h.reduced ha hn

end Reads

/-- A run asks about the admitted ones of the intents received so far, all of which the worker lived to
see. -/
structure Handled (S : Setup σ ι ε) (e : Engine σ ι) (past : List (Event σ ι ε)) : Prop where
  told : turnsIn S past = (admitted S S.initial none (receivedIn past)).flatMap (turn S)
  alive : ∀ state previous, e.worker = .alive state previous →
    Reads S (receivedIn past) state previous
  met : ∀ before i after, receivedIn past = before ++ i :: after →
    ∃ state, Reads S before state before.getLast?

namespace Handled

variable {past : List (Event σ ι ε)}

theorem start (S : Setup σ ι ε) : Handled S (start S) [] where
  told := rfl
  alive := by
    intro state previous hw
    cases hw
    exact .nil S
  met := by
    intro before i after h
    exact absurd h (by simp [receivedIn])

theorem silent (h : Handled S e past) {e' : Engine σ ι} {events : List (Event σ ι ε)}
    (hw : ∀ state previous, e'.worker = .alive state previous → e.worker = .alive state previous)
    (hr : receivedIn events = []) (ht : turnsIn S events = []) : Handled S e' (past ++ events) where
  told := by
    rw [turnsIn_append, ht, receivedIn_append, hr, List.append_nil, List.append_nil]
    exact h.told
  alive := by
    intro state previous halive
    rw [receivedIn_append, hr, List.append_nil]
    exact h.alive state previous (hw state previous halive)
  met := by
    rw [receivedIn_append, hr, List.append_nil]
    exact h.met

theorem receipt (h : Handled S e past) {state : σ} {previous : Option ι} {i : ι}
    (hw : e.worker = .alive state previous) {e' : Engine σ ι}
    {after : Engine σ ι × List (Event σ ι ε)} (hr : Receipt S state previous i e' after) :
    Handled S after.1 (past ++ after.2) := by
  obtain ⟨hturns, honward⟩ := hr.handles
  have hreads := h.alive state previous hw
  have hreceived : receivedIn (past ++ after.2) = receivedIn past ++ [i] := by
    rw [receivedIn_append, hr.receivedIn]
  constructor
  case told =>
    rw [turnsIn_append, hreceived, hreads.append, List.flatMap_append, hturns, h.told]
  case alive =>
    intro s q halive
    rw [hreceived]
    exact hreads.onward honward halive
  case met =>
    intro before j later hsplit
    rw [hreceived] at hsplit
    rcases append_cons_eq_append_cons hsplit with ⟨rfl, -, -⟩ | ⟨mid, -, hnil⟩ | ⟨mid, hmid, -⟩
    · exact ⟨state, hreads.last ▸ hreads⟩
    · exact absurd hnil (by simp)
    · exact h.met before j mid hmid

theorem work (h : Handled S e past) {after : Engine σ ι × List (Event σ ι ε)}
    (hw : Worked S e after) : Handled S after.1 (past ++ after.2) := by
  cases hw with
  | ended | idle => exact h.silent (fun _ _ hw => hw) rfl rfl
  | stopped => exact h.silent (fun _ _ hw => nomatch hw) rfl rfl
  | received state previous hw _ i rest _ hr => exact h.receipt hw hr

theorem step (h : Handled S e past) (act : Act ι) :
    Handled S (e.step S act).1 (past ++ (e.step S act).2) := by
  by_cases hact : act = .work
  · subst hact
    exact h.work (work_worked S e)
  · have hwork := step_workless S e hact
    refine h.silent (fun state previous hw => ?_) ?_ (turnsIn_of_workless hwork)
    · rw [← (step_others S e hact).1]
      exact hw
    · rw [← receivedIn_workIn, hwork.workIn]
      rfl

end Handled

theorem handled_run (S : Setup σ ι ε) (acts : List (Act ι)) :
    Handled S (run S acts).1 (run S acts).2 :=
  runFrom_induct (P := Handled S) (.start S) fun act _ _ _ h => h.step act

/-- **The handler is called once for every admitted intent**, in the order in which they were received
and in the states to which the admitted ones before are reduced. A received intent is admitted just when
the filter calls it no repeat of the one received before it and it is valid in the worker's state. Each
admitted one is validated, shown to the handler and reduced in that same state; only a handler that
breaks off keeps its intent from being reduced, and then, as after a reduction that breaks off, it was
the last. -/
theorem handled_in_turn (S : Setup σ ι ε) (acts : List (Act ι)) :
    (turnsIn S (run S acts).2 =
        (admitted S S.initial none (receivedIn (run S acts).2)).flatMap (turn S) ∧
      ∀ h, S.handler = some h →
        performedIn (run S acts).2 = admitted S S.initial none (receivedIn (run S acts).2)) ∧
    (∀ before i after, receivedIn (run S acts).2 = before ++ i :: after →
      ∃ state, reached S S.initial (admitted S S.initial none before) = .ok state ∧
        ((repeats S.filter before.getLast? i = .ok false ∧ S.rules.valid i state = .ok true ∧
            admitted S S.initial none (before ++ [i]) =
              admitted S S.initial none before ++ [(state, i)]) ∨
          (¬(repeats S.filter before.getLast? i = .ok false ∧ S.rules.valid i state = .ok true) ∧
            admitted S S.initial none (before ++ [i]) = admitted S S.initial none before))) ∧
    (∀ before state i after,
      admitted S S.initial none (receivedIn (run S acts).2) = before ++ (state, i) :: after →
        reached S S.initial before = .ok state ∧ S.rules.valid i state = .ok true ∧
          ∀ p, handled S state i = .error p → after = []) ∧
    ∀ state previous, (run S acts).1.worker = .alive state previous →
      reached S S.initial (admitted S S.initial none (receivedIn (run S acts).2)) = .ok state := by
  have h := handled_run S acts
  refine ⟨⟨h.told, fun handler hS => ?_⟩, ?_, fun _ _ _ _ hsplit => admitted_split hsplit,
    fun state previous hw => (h.alive state previous hw).state_eq⟩
  · rw [← performedIn_turnsIn S, h.told, performedIn_turns hS]
  · intro before i after hsplit
    obtain ⟨state, hreads⟩ := h.met before i after hsplit
    refine ⟨state, hreads.state_eq, ?_⟩
    rw [hreads.append, ← admits_eq_ok_true]
    cases ha : admits S state before.getLast? i with
    | error p => exact Or.inr ⟨nofun, by rw [admitted_of_error ha, List.append_nil]⟩
    | ok b =>
    cases b with
    | false => exact Or.inr ⟨nofun, by rw [admitted_of_skipped ha, admitted_nil, List.append_nil]⟩
    | true =>
      obtain ⟨hr, hv⟩ := admits_eq_ok_true.mp ha
      exact Or.inl ⟨hr, hv, by rw [admitted_singleton ha]⟩

/-- A counter of which subscribers see the last digit only. It takes no 7, and its handler breaks off at
43. -/
def touchy : Setup Nat Nat Unit where
  rules := {
    same := fun a b => a % 10 == b % 10
    valid := fun i _ => .ok (i != 7)
    reduce := fun i s => .ok (s + i)
    describe := fun i => toString i }
  settings := {}
  initial := 0
  filter := .structural
  handler := some {
    name := "guard"
    perform := fun s _ => if s = 43 then .error .wordless else .ok none }
  reporter := .log
  observer := none

/-- The handler is shown the state 20, which is not published, and neither the 7 nor the second 20 in a
row. It is not called after it has broken off, although another 1 was queued. -/
theorem touchy_handled :
    performedIn (run touchy ([20, 7, 20, 20, 3, 1, 2].map .submit ++ .replicate 7 .work)).2 =
        [(0, 20), (20, 20), (40, 3), (43, 1)] ∧
      publishedIn (run touchy ([20, 7, 20, 20, 3, 1, 2].map .submit ++ .replicate 7 .work)).2 = [43] ∧
      handled touchy 43 1 = .error .wordless ∧
      reached touchy 0 [(0, 20), (20, 20), (40, 3)] = .ok 43 := by
  obtain ⟨⟨-, hperformed⟩, -, hsplit, -⟩ := handled_in_turn touchy
    ([20, 7, 20, 20, 3, 1, 2].map .submit ++ .replicate 7 .work)
  obtain ⟨hreached, -, -⟩ := hsplit [(0, 20), (20, 20), (40, 3)] 43 1 [] (by decide)
  exact ⟨(hperformed _ rfl).trans (by decide), by decide, rfl, hreached⟩

end IntentLoop.Engine
