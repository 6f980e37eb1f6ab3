import PCProject.Lib.Transition
import Mathlib.Data.List.Count

namespace PCProject.System
variable {σ α : Type} (S : System σ α)

/-- What a schedule adds up to, if the step by `a` from `s` counts as `price s a`. -/
def spent (price : σ → α → Nat) (s : σ) : List α → Nat
  | [] => 0
  | a :: rest => price s a + (S.step s a).elim 0 fun t => spent price t rest

variable {S} {s t : σ} {schedule : List α}

theorem spent_cons {price : σ → α → Nat} {a : α} {rest : List α} (step : S.step s a = some t) :
    S.spent price s (a :: rest) = price s a + S.spent price t rest := by
  rw [spent, step]
  rfl

/-- A price that only depends on whether the label is of some kind counts the labels of that kind. -/
theorem spent_label (p : α → Bool) (run : S.exec s schedule = some t) :
    S.spent (fun _ a => (p a).toNat) s schedule = schedule.countP p := by
  induction schedule generalizing s with
  | nil => rfl
  | cons a rest ih =>
    obtain ⟨middle, step, run⟩ := Option.bind_eq_some_iff.mp run
    rw [spent_cons step, ih run, List.countP_cons]
    cases p a with
    | false => exact Nat.zero_add _
    | true => exact Nat.add_comm _ _

/-- A run whose steps all meet a condition is a run. -/
theorem exec_of_via {ok : σ → α → Bool} (run : S.execVia ok s schedule = some t) : S.exec s schedule = some t := by
  induction schedule generalizing s with
  | nil => exact run
  | cons a rest ih =>
    unfold execVia at run
    split at run
    · obtain ⟨middle, step, run⟩ := Option.bind_eq_some_iff.mp run
      exact Option.bind_eq_some_iff.mpr ⟨middle, step, ih run⟩
    · cases run

/-- A constant price. -/
theorem spent_const (k : Nat) (run : S.exec s schedule = some t) :
    S.spent (fun _ _ => k) s schedule = k * schedule.length := by
  induction schedule generalizing s with
  | nil => rfl
  | cons a rest ih =>
    obtain ⟨middle, step, run⟩ := Option.bind_eq_some_iff.mp run
    rw [spent_cons step, ih run, List.length_cons, Nat.mul_succ, Nat.add_comm]

theorem spent_append {first second : List α} {price : σ → α → Nat} (run : S.exec s first = some t) :
    S.spent price s (first ++ second) = S.spent price s first + S.spent price t second := by
  induction first generalizing s with
  | nil =>
    cases run
    exact (Nat.zero_add _).symm
  | cons a rest ih =>
    obtain ⟨middle, step, run⟩ := Option.bind_eq_some_iff.mp run
    rw [List.cons_append, spent_cons step, spent_cons step, ih run, Nat.add_assoc]

/-- The rule of the potential: where every step is paid by what it gains and by what the potential loses, a whole run
is. The steps keep an invariant and meet a condition. -/
theorem spent_le_via {ok : σ → α → Bool} {I : σ → Prop} {price gain : σ → α → Nat} (potential : σ → Nat) (inv : I s)
    (pays : ∀ a ∈ schedule, ∀ s t, I s → ok s a = true → S.step s a = some t →
      I t ∧ potential t + price s a ≤ potential s + gain s a)
    (run : S.execVia ok s schedule = some t) :
    potential t + S.spent price s schedule ≤ potential s + S.spent gain s schedule := by
  induction schedule generalizing s with
  | nil =>
    cases run
    rfl
  | cons a rest ih =>
    unfold execVia at run
    split at run
    · rename_i allowed
      obtain ⟨middle, step, run⟩ := Option.bind_eq_some_iff.mp run
      obtain ⟨inv', first⟩ := pays a List.mem_cons_self s middle inv allowed step
      have later := ih inv' (fun a member => pays a (List.mem_cons_of_mem _ member)) run
      rw [spent_cons step, spent_cons step]
      omega
    · cases run

theorem Reach.spent_le {potential : σ → Nat} {price gain : σ → α → Nat} (reach : S.Reach s)
    (pays : ∀ s a t, S.Reach s → S.step s a = some t → potential t + price s a ≤ potential s + gain s a)
    (run : S.exec s schedule = some t) :
    potential t + S.spent price s schedule ≤ potential s + S.spent gain s schedule :=
  spent_le_via potential reach (fun a _ s t reach _ step => ⟨reach.next step, pays s a t reach step⟩)
    (exec_eq_execVia s schedule ▸ run)

/-- If the steps of some kind keep an invariant and lower a measure, a run can be continued by such steps until none is
left. -/
theorem rests_via {I : σ → Prop} (p : α → Bool) (measure : σ → Nat) (inv : I s)
    (lowers : ∀ s a t, I s → p a = true → S.step s a = some t → I t ∧ measure t < measure s) :
    ∃ schedule t, S.exec s schedule = some t ∧ (∀ a ∈ schedule, p a = true) ∧ I t ∧
      ∀ a, p a = true → S.step t a = none := by
  induction left : measure s using Nat.strong_induction_on generalizing s with
  | _ left ih =>
    by_cases done : ∀ a, p a = true → S.step s a = none
    · exact ⟨[], s, rfl, by simp, inv, done⟩
    · simp only [not_forall] at done
      obtain ⟨a, kind, more⟩ := done
      obtain ⟨middle, step⟩ := Option.ne_none_iff_exists'.mp more
      obtain ⟨inv', fewer⟩ := lowers s a middle inv kind step
      obtain ⟨schedule, t, run, kinds, rest⟩ := ih (measure middle) (left ▸ fewer) inv' rfl
      exact ⟨a :: schedule, t, Option.bind_eq_some_iff.mpr ⟨middle, step, run⟩, List.forall_mem_cons.mpr ⟨kind, kinds⟩,
        rest⟩

theorem Reach.rests (p : α → Bool) (measure : σ → Nat) (reach : S.Reach s)
    (fewer : ∀ s a t, S.Reach s → p a = true → S.step s a = some t → measure t < measure s) :
    ∃ schedule t, S.exec s schedule = some t ∧ (∀ a ∈ schedule, p a = true) ∧
      ∀ a, p a = true → S.step t a = none := by
  obtain ⟨schedule, t, run, kinds, -, rest⟩ := rests_via p measure reach fun s a t before kind step =>
    ⟨before.next step, fewer s a t before kind step⟩
  exact ⟨schedule, t, run, kinds, rest⟩

end PCProject.System
