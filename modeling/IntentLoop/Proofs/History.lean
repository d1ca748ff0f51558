import Mathlib.Algebra.GroupWithZero.Nat
/-!
# Histories

Whatever acts here, an engine or a cache, is a function that takes a state and an act to the next
state and to what is told of the act, and a run of it puts what each act tells behind what was told
before. What can be said of runs without looking at that function is said here: a run can be cut in
two anywhere (`after_append`, `after_cons`), and what every act keeps holds after it
(`after_induct`). Where each act is told with its instant, the instants can be left out again
(`after_stamped`, `seen_after`).

Callers, sessions, fetches and streams are numbered by those before them, and are kept in lists that
only grow at their ends (`getElem?_append_singleton`); what is counted over such a list changes with
the one that moves (`sum_map_set_add`). Of two things that happened, one came first
(`append_cons_eq_append_cons`).
-/

namespace IntentLoop

theorem getElem?_append_singleton {β : Type} (l : List β) (b : β) (i : Nat) :
    (l ++ [b])[i]? = if i = l.length then some b else l[i]? := by
  by_cases hi : i = l.length
  · rw [if_pos hi, hi, List.getElem?_concat_length]
  · rw [if_neg hi]
    by_cases hlt : i < l.length
    · exact List.getElem?_append_left hlt
    · rw [List.getElem?_eq_none (by rw [List.length_append, List.length_singleton]; omega),
        List.getElem?_eq_none (by omega)]

theorem getElem?_set_cases {β : Type} {l : List β} {i k : Nat} {new b : β}
    (h : (l.set i new)[k]? = some b) : (k = i ∧ b = new) ∨ (k ≠ i ∧ l[k]? = some b) := by
  by_cases hk : k = i
  · subst hk
    have hlt : k < l.length := by
      have hlast := (List.getElem?_eq_some_iff.mp h).1
      rwa [List.length_set] at hlast
    rw [List.getElem?_set_self hlt] at h
    exact Or.inl ⟨rfl, (Option.some.inj h).symm⟩
  · rw [List.getElem?_set_ne (Ne.symm hk)] at h
    exact Or.inr ⟨hk, h⟩

theorem sum_map_set_add {β : Type} (f : β → Nat) {l : List β} {i : Nat} {old : β}
    (h : l[i]? = some old) (new : β) :
    ((l.set i new).map f).sum + f old = (l.map f).sum + f new := by
  induction l generalizing i with
  | nil => cases h
  | cons b rest ih =>
    cases i with
    | zero =>
      obtain rfl : b = old := Option.some.inj h
      simp only [List.set_cons_zero, List.map_cons, List.sum_cons]
      omega
    | succ i =>
      have hrest := ih h
      simp only [List.set_cons_succ, List.map_cons, List.sum_cons]
      omega

/-- Of two places in a list, one is the first, or they are the same. -/
theorem append_cons_eq_append_cons {β : Type} {before before' after after' : List β} {b b' : β}
    (h : before ++ b :: after = before' ++ b' :: after') :
    (before = before' ∧ b = b' ∧ after = after') ∨
      (∃ mid, before' = before ++ b :: mid ∧ after = mid ++ b' :: after') ∨
      ∃ mid, before = before' ++ b' :: mid ∧ after' = mid ++ b :: after := by
  rcases List.append_eq_append_iff.mp h with ⟨mid, hbefore, hrest⟩ | ⟨mid, hbefore, hrest⟩
  · cases mid with
    | nil =>
      rw [List.append_nil] at hbefore
      obtain ⟨rfl, rfl⟩ := List.cons.inj hrest
      exact Or.inl ⟨hbefore.symm, rfl, rfl⟩
    | cons first mid =>
      obtain ⟨rfl, hafter⟩ := List.cons.inj hrest
      exact Or.inr (Or.inl ⟨mid, hbefore, hafter⟩)
  · cases mid with
    | nil =>
      rw [List.append_nil] at hbefore
      obtain ⟨rfl, rfl⟩ := List.cons.inj hrest
      exact Or.inl ⟨hbefore, rfl, rfl⟩
    | cons first mid =>
      obtain ⟨rfl, hafter⟩ := List.cons.inj hrest
      exact Or.inr (Or.inr ⟨mid, hbefore, hafter⟩)

namespace History

variable {σ α β : Type} (step : σ → α → σ × List β)

/-- One more act. -/
def extend (past : σ × List β) (act : α) : σ × List β :=
  ((step past.1 act).1, past.2 ++ (step past.1 act).2)

/-- The state after a list of acts, and all that was told. -/
def after (s : σ) (acts : List α) : σ × List β := acts.foldl (extend step) (s, [])

theorem foldl_extend (acts : List α) (s : σ) (past : List β) :
    acts.foldl (extend step) (s, past) =
      ((after step s acts).1, past ++ (after step s acts).2) := by
  induction acts generalizing s past with
  | nil => rw [after, List.foldl_nil, List.foldl_nil, List.append_nil]
  | cons act rest ih =>
    rw [after, List.foldl_cons, List.foldl_cons]
    simp only [extend]
    rw [ih, ih, List.nil_append, List.append_assoc]

theorem after_append (s : σ) (acts more : List α) :
    after step s (acts ++ more) =
      ((after step (after step s acts).1 more).1,
        (after step s acts).2 ++ (after step (after step s acts).1 more).2) := by
  rw [after, List.foldl_append, ← foldl_extend]
  rfl

theorem after_cons (s : σ) (act : α) (acts : List α) :
    after step s (act :: acts) =
      ((after step (step s act).1 acts).1,
        (step s act).2 ++ (after step (step s act).1 acts).2) := by
  rw [← foldl_extend]
  rfl

theorem after_induct {P : σ → List β → Prop} {s : σ} {acts : List α} (start : P s [])
    (keep : ∀ act ∈ acts, ∀ {s past}, P s past → P (step s act).1 (past ++ (step s act).2)) :
    P (after step s acts).1 (after step s acts).2 :=
  List.foldlRecOn (motive := fun run => P run.1 run.2) acts (extend step) start
    fun _ hP act hmem => keep act hmem hP

/-! ### Instants -/

section Instants

variable {τ : Type} (clock : σ → τ)

/-- An act, with the instant of all that is told of it. -/
def stamped (s : σ) (act : α) : σ × List (τ × β) :=
  ((step s act).1, (step s act).2.map (clock s, ·))

/-- What was told, without the instants. -/
def seen (history : List (τ × β)) : List β := history.map (·.2)

theorem seen_append (past later : List (τ × β)) : seen (past ++ later) = seen past ++ seen later :=
  List.map_append

theorem seen_map_stamp (time : τ) (events : List β) : seen (events.map (time, ·)) = events := by
  simp [seen, Function.comp_def]

theorem after_stamped (s : σ) (acts : List α) :
    (after (stamped step clock) s acts).1 = (after step s acts).1 := by
  induction acts generalizing s with
  | nil => rfl
  | cons act rest ih =>
    rw [after_cons, after_cons]
    exact ih (step s act).1

theorem seen_after (s : σ) (acts : List α) :
    seen (after (stamped step clock) s acts).2 = (after step s acts).2 := by
  induction acts generalizing s with
  | nil => rfl
  | cons act rest ih =>
    rw [after_cons, after_cons, seen_append]
    dsimp only [stamped]
    rw [seen_map_stamp, ih]

end Instants

end History

end IntentLoop
