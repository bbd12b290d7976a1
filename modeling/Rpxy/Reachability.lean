import Mathlib.Data.List.Perm.Basic

/-!
# Reachable states of a labelled step function

A system is an initial state and a partial step function: action `a` is enabled in state `s`
when `step s a = some s'`. A concurrent program becomes such a system when its actions name
the task that moves next and its steps are the program's atomic sections (one lock-protected
section, one atomic load or read-modify-write); every interleaving is then a list of actions.
The results are the invariant rule (an inductive invariant holds in every reachable state)
and runs of action lists, whose ends are exactly the reachable states.
-/

namespace Rpxy.Reachability

variable {σ α : Type} (init : σ) (step : σ → α → Option σ)

/-- The states reached from `init` by any sequence of enabled actions. -/
inductive Reachable : σ → Prop
  | init : Reachable init
  | step {s s' : σ} {a : α} : Reachable s → step s a = some s' → Reachable s'

/-- Runs the actions in order; `none` as soon as one is not enabled. -/
def run : σ → List α → Option σ
  | s, [] => some s
  | s, a :: as => (step s a).bind fun s' => run s' as

variable {init step}

/-- The invariant rule: a property of the initial state that every step preserves holds in
every reachable state. -/
theorem Reachable.invariant {I : σ → Prop} (h0 : I init)
    (hstep : ∀ s a s', I s → step s a = some s' → I s') {s : σ} (h : Reachable init step s) : I s := by
  induction h with
  | init => exact h0
  | step _ hs ih => exact hstep _ _ _ ih hs

@[simp] theorem run_nil (s : σ) : run step s [] = some s := rfl

theorem run_cons (s : σ) (a : α) (as : List α) :
    run step s (a :: as) = (step s a).bind fun s' => run step s' as := rfl

/-- A run from a reachable state ends in a reachable state. -/
theorem Reachable.run {s s' : σ} (h : Reachable init step s) :
    ∀ {as : List α}, run step s as = some s' → Reachable init step s' := by
  intro as
  induction as generalizing s with
  | nil =>
    intro hr
    cases hr
    exact h
  | cons a as ih =>
    intro hr
    rw [run_cons, Option.bind_eq_some_iff] at hr
    obtain ⟨s₁, hs₁, hr⟩ := hr
    exact ih (h.step hs₁) hr

theorem run_append (s : σ) (as bs : List α) :
    run step s (as ++ bs) = (run step s as).bind fun s' => run step s' bs := by
  induction as generalizing s with
  | nil => rfl
  | cons a as ih =>
    simp only [List.cons_append, run_cons, ih, Option.bind_assoc]

/-- The reachable states are exactly the ends of the runs from `init`. -/
theorem reachable_iff_run {s : σ} : Reachable init step s ↔ ∃ as, run step init as = some s := by
  constructor
  · intro h
    induction h with
    | init => exact ⟨[], rfl⟩
    | @step s s' a _ hs ih =>
      obtain ⟨as, has⟩ := ih
      exact ⟨as ++ [a], by simp [run_append, has, run_cons, hs]⟩
  · rintro ⟨as, has⟩
    exact Reachable.init.run has

/-- Progress and a measure that every step lowers: from every reachable state some run reaches a
state where `P` holds. -/
theorem exists_run_of_progress {P : σ → Prop} (measure : σ → Nat)
    (hdec : ∀ s a s', step s a = some s' → measure s' < measure s)
    (hprog : ∀ s, Reachable init step s → ¬P s → ∃ a s', step s a = some s') {s : σ}
    (hs : Reachable init step s) : ∃ as s', run step s as = some s' ∧ P s' := by
  suffices h : ∀ n s, measure s < n → Reachable init step s → ∃ as s', run step s as = some s' ∧ P s' from
    h _ s (Nat.lt_succ_self _) hs
  intro n
  induction n with
  | zero => intro s hlt; omega
  | succ n ih =>
    intro s hlt hs
    by_cases hP : P s
    · exact ⟨[], s, rfl, hP⟩
    · obtain ⟨a, s₁, hs₁⟩ := hprog s hs hP
      obtain ⟨as, s', hrun, hP'⟩ := ih s₁ (by have := hdec s a s₁ hs₁; omega) (hs.step hs₁)
      exact ⟨a :: as, s', by rw [run_cons, hs₁]; exact hrun, hP'⟩

/-! ### Tasks kept in a list

A state that keeps its tasks in a list moves task `i` by `set` and ends it by `eraseIdx`;
counting the tasks of a kind after either is counting before it, less the old task, plus
the new one, and what the tasks hold together is what the others hold plus what task `i`
holds. -/

theorem countP_set_add {τ : Type} (p : τ → Bool) {l : List τ} {i : Nat} {t : τ} (hi : l[i]? = some t)
    (t' : τ) : (l.set i t').countP p + (if p t then 1 else 0) = l.countP p + (if p t' then 1 else 0) := by
  obtain ⟨hlt, rfl⟩ := List.getElem?_eq_some_iff.mp hi
  have hset := (List.set_perm_cons_eraseIdx hlt t').countP_eq p
  have hl := (List.getElem_cons_eraseIdx_perm hlt).countP_eq p
  simp only [List.countP_cons] at hset hl
  omega

theorem countP_eraseIdx_add {τ : Type} (p : τ → Bool) {l : List τ} {i : Nat} {t : τ} (hi : l[i]? = some t) :
    (l.eraseIdx i).countP p + (if p t then 1 else 0) = l.countP p := by
  obtain ⟨hlt, rfl⟩ := List.getElem?_eq_some_iff.mp hi
  simpa only [List.countP_cons] using (List.getElem_cons_eraseIdx_perm hlt).countP_eq p

theorem append_flatMap_perm_eraseIdx {τ β : Type} (base : List β) (f : τ → List β) {l : List τ}
    {i : Nat} {t : τ} (hi : l[i]? = some t) :
    List.Perm (base ++ l.flatMap f) (base ++ f t ++ (l.eraseIdx i).flatMap f) := by
  obtain ⟨hlt, rfl⟩ := List.getElem?_eq_some_iff.mp hi
  rw [List.append_assoc]
  refine List.Perm.append_left base ?_
  simpa using ((List.getElem_cons_eraseIdx_perm hlt).flatMap_right f).symm

theorem append_flatMap_set_perm_eraseIdx {τ β : Type} (base : List β) (f : τ → List β) {l : List τ}
    {i : Nat} {t : τ} (hi : l[i]? = some t) (t' : τ) :
    List.Perm (base ++ (l.set i t').flatMap f) (base ++ f t' ++ (l.eraseIdx i).flatMap f) := by
  obtain ⟨hlt, rfl⟩ := List.getElem?_eq_some_iff.mp hi
  rw [List.append_assoc]
  refine List.Perm.append_left base ?_
  simpa using (List.set_perm_cons_eraseIdx hlt t').flatMap_right f

end Rpxy.Reachability
