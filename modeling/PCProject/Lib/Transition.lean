import Mathlib.Data.Finset.Card

namespace PCProject

/-- A labelled transition system. A label carries every choice of the scheduler and
of the environment, so one step is a function of the state and its label. -/
structure System (σ α : Type) where
  init : σ → Prop
  step : σ → α → Option σ

namespace System
variable {σ α : Type} (S : System σ α)

/-- The states of all runs. -/
inductive Reach : σ → Prop
  | start {s : σ} : S.init s → Reach s
  | next {s t : σ} {a : α} : Reach s → S.step s a = some t → Reach t

/-- The states of the runs whose steps all meet a condition on the state before the step. -/
inductive ReachVia (ok : σ → α → Bool) : σ → Prop
  | start {s : σ} : S.init s → ReachVia ok s
  | next {s t : σ} {a : α} : ReachVia ok s → ok s a = true → S.step s a = some t → ReachVia ok t

/-- Execution of an explicit schedule. -/
def exec (s : σ) : List α → Option σ
  | [] => some s
  | a :: rest => (S.step s a).bind fun t => exec t rest

/-- Execution of an explicit schedule whose steps all meet a condition. -/
def execVia (ok : σ → α → Bool) (s : σ) : List α → Option σ
  | [] => some s
  | a :: rest => if ok s a then (S.step s a).bind fun t => execVia ok t rest else none

variable {S}

/-- An inductive invariant holds in every reachable state. The step may use that the
state before it is reachable, so invariants proved earlier can be used in later ones. -/
theorem Reach.invariant {I : σ → Prop} (base : ∀ s, S.init s → I s)
    (keep : ∀ s a t, S.Reach s → I s → S.step s a = some t → I t) {s : σ} (reach : S.Reach s) : I s := by
  induction reach with
  | start initial => exact base _ initial
  | next before step ih => exact keep _ _ _ before ih step

theorem ReachVia.invariant {ok : σ → α → Bool} {I : σ → Prop} (base : ∀ s, S.init s → I s)
    (keep : ∀ s a t, I s → ok s a = true → S.step s a = some t → I t) {s : σ} (reach : S.ReachVia ok s) : I s := by
  induction reach with
  | start initial => exact base _ initial
  | next _ allowed step ih => exact keep _ _ _ ih allowed step

theorem ReachVia.reach {ok : σ → α → Bool} {s : σ} (via : S.ReachVia ok s) : S.Reach s := by
  induction via with
  | start initial => exact .start initial
  | next _ _ step ih => exact .next ih step

theorem Reach.exec {s t : σ} {schedule : List α} (reach : S.Reach s)
    (run : S.exec s schedule = some t) : S.Reach t := by
  induction schedule generalizing s with
  | nil => cases run; exact reach
  | cons a rest ih =>
    obtain ⟨middle, step, run⟩ := Option.bind_eq_some_iff.mp run
    exact ih (reach.next step) run

theorem ReachVia.exec {ok : σ → α → Bool} {s t : σ} {schedule : List α} (via : S.ReachVia ok s)
    (run : S.execVia ok s schedule = some t) : S.ReachVia ok t := by
  induction schedule generalizing s with
  | nil => cases run; exact via
  | cons a rest ih =>
    unfold execVia at run
    split at run
    · rename_i allowed
      obtain ⟨middle, step, run⟩ := Option.bind_eq_some_iff.mp run
      exact ih (via.next allowed step) run
    · cases run

theorem exec_eq_execVia (s : σ) (schedule : List α) : S.exec s schedule = S.execVia (fun _ _ => true) s schedule := by
  induction schedule generalizing s with
  | nil => rfl
  | cons a rest ih =>
    simp only [System.exec, execVia, if_true]
    exact congrArg _ (funext ih)

theorem execVia_append {ok : σ → α → Bool} {s t : σ} {first second : List α} (run : S.execVia ok s first = some t) :
    S.execVia ok s (first ++ second) = S.execVia ok t second := by
  induction first generalizing s with
  | nil =>
    cases run
    rfl
  | cons a rest ih =>
    unfold execVia at run
    split at run
    · rename_i allowed
      obtain ⟨middle, step, run⟩ := Option.bind_eq_some_iff.mp run
      rw [List.cons_append, execVia, if_pos allowed, step]
      exact ih run
    · cases run

theorem exec_append {s t : σ} {first second : List α} (run : S.exec s first = some t) :
    S.exec s (first ++ second) = S.exec t second := by
  rw [exec_eq_execVia] at run ⊢
  rw [execVia_append run, ← exec_eq_execVia]

/-- An invariant that also speaks of the labels taken so far. -/
theorem execVia_invariant {ok : σ → α → Bool} {I : List α → σ → Prop} {s t : σ} {schedule : List α} (base : I [] s)
    (keep : ∀ past s a t, I past s → ok s a = true → S.step s a = some t → I (past ++ [a]) t)
    (run : S.execVia ok s schedule = some t) : I schedule t := by
  suffices ∀ rest past s, I past s → S.execVia ok s rest = some t → I (past ++ rest) t from
    this schedule [] s base run
  intro rest
  induction rest with
  | nil =>
    intro past s inv run
    cases run
    simpa using inv
  | cons a rest ih =>
    intro past s inv run
    unfold execVia at run
    split at run
    · rename_i allowed
      obtain ⟨middle, step, run⟩ := Option.bind_eq_some_iff.mp run
      simpa using ih (past ++ [a]) middle (keep _ _ _ _ inv allowed step) run
    · cases run

theorem exec_invariant {I : List α → σ → Prop} {s t : σ} {schedule : List α} (base : I [] s)
    (keep : ∀ past s a t, I past s → S.step s a = some t → I (past ++ [a]) t)
    (run : S.exec s schedule = some t) : I schedule t :=
  execVia_invariant base (fun past s a t inv _ step => keep past s a t inv step) (exec_eq_execVia s schedule ▸ run)

/-- What the steps with the labels of a schedule keep holds after it. -/
theorem exec_keeps {I : σ → Prop} {s t : σ} {schedule : List α} (inv : I s)
    (keep : ∀ a ∈ schedule, ∀ s t, I s → S.step s a = some t → I t) (run : S.exec s schedule = some t) : I t := by
  induction schedule generalizing s with
  | nil => cases run; exact inv
  | cons a rest ih =>
    obtain ⟨middle, step, run⟩ := Option.bind_eq_some_iff.mp run
    have next := keep a List.mem_cons_self s middle inv step
    exact ih next (fun a member => keep a (List.mem_cons_of_mem _ member)) run

/-- If every step lowers a measure, a run can be continued until no step is left. -/
theorem Reach.ends (measure : σ → Nat)
    (fewer : ∀ s a t, S.Reach s → S.step s a = some t → measure t < measure s) {s : σ} (reach : S.Reach s) :
    ∃ schedule t, S.exec s schedule = some t ∧ ∀ a, S.step t a = none := by
  induction left : measure s using Nat.strong_induction_on generalizing s with
  | _ left ih =>
    by_cases over_ : ∀ a, S.step s a = none
    · exact ⟨[], s, rfl, over_⟩
    · obtain ⟨a, more⟩ := not_forall.mp over_
      obtain ⟨next, step⟩ := Option.ne_none_iff_exists'.mp more
      obtain ⟨schedule, last, run, stuck⟩ := ih (measure next) (left ▸ fewer s a next reach step) (reach.next step) rfl
      exact ⟨a :: schedule, last, Option.bind_eq_some_iff.mpr ⟨next, step, run⟩, stuck⟩

/-- Projection of a system onto a component: every step of the whole is a step of the
component or leaves it alone, so the component only passes through its own reachable states. -/
theorem Reach.project {τ β : Type} {T : System τ β} (f : σ → τ)
    (base : ∀ s, S.init s → T.init (f s))
    (keep : ∀ s a t, S.Reach s → S.step s a = some t → f t = f s ∨ ∃ b, T.step (f s) b = some (f t))
    {s : σ} (reach : S.Reach s) : T.Reach (f s) := by
  induction reach with
  | start initial => exact .start (base _ initial)
  | next before step ih =>
    rcases keep _ _ _ before step with same | ⟨b, moved⟩
    · exact same ▸ ih
    · exact ih.next moved

/-- Projection onto a component that may be cut off: a last change of what is seen of it need not be a step of the
component, if nothing of it changes any more after that. -/
theorem Reach.projectUntil {τ β : Type} {T : System τ β} (f : σ → τ) {last : σ → τ → Prop}
    (base : ∀ s, S.init s → T.init (f s))
    (keep : ∀ s a t, S.Reach s → T.Reach (f s) → S.step s a = some t →
      f t = f s ∨ (∃ b, T.step (f s) b = some (f t)) ∨ last t (f s))
    (stay : ∀ s a t u, S.Reach s → last s u → S.step s a = some t → last t u)
    {s : σ} (reach : S.Reach s) : T.Reach (f s) ∨ ∃ u, T.Reach u ∧ last s u := by
  induction reach with
  | start initial => exact Or.inl (.start (base _ initial))
  | next before step ih =>
    rcases ih with inside | ⟨u, inside, ended⟩
    · rcases keep _ _ _ before inside step with same | ⟨b, moved⟩ | ended
      · exact Or.inl (same ▸ inside)
      · exact Or.inl (inside.next moved)
      · exact Or.inr ⟨_, inside, ended⟩
    · exact Or.inr ⟨u, inside, stay _ _ _ u before ended step⟩

end System
end PCProject
