import Mathlib.Data.Int.Notation
import Mathlib.Tactic.Common

namespace PCProject
variable {σ ε : Type}

/-- What is known of a computation that has succeeded. -/
theorem bind_ok {α β : Type} {x : Except ε α} {f : α → Except ε β} {b : β} (run : x >>= f = .ok b) :
    ∃ a, x = .ok a ∧ f a = .ok b := by
  cases x with
  | error e => cases run
  | ok a => exact ⟨a, rfl, run⟩

/-- A computation does not fail in some way if neither part of it does. -/
theorem bind_ne_error {α β : Type} {x : Except ε α} {f : α → Except ε β} {e : ε} (first : x ≠ .error e)
    (rest : ∀ a, f a ≠ .error e) : x >>= f ≠ .error e := by
  cases x with
  | error e' => exact fun failed => first (congrArg Except.error (Except.error.inj failed))
  | ok a => exact rest a

/-- Some rounds of a loop whose counter goes up by one. -/
def forRounds (body : Int → σ → Except ε σ) (i : Int) : Nat → σ → Except ε σ
  | 0, s => .ok s
  | rounds + 1, s => do
    let s ← body i s
    forRounds body (i + 1) rounds s

/-- `for (i = lo; i < hi; ++i)` with a body that may fail and cannot change the bounds. -/
def forRange (lo hi : Int) (body : Int → σ → Except ε σ) (s : σ) : Except ε σ := forRounds body lo (hi - lo).toNat s

/-- The loop rule: an invariant that every round keeps, and under which no round fails. -/
theorem forRange_invariant {lo hi : Int} {body : Int → σ → Except ε σ} {s : σ} {I : Int → σ → Prop}
    (order : lo ≤ hi) (enter : I lo s)
    (round : ∀ i s, lo ≤ i → i < hi → I i s → ∃ s', body i s = .ok s' ∧ I (i + 1) s') :
    ∃ s', forRange lo hi body s = .ok s' ∧ I hi s' := by
  suffices ∀ rounds i s, lo ≤ i → i + (rounds : Nat) = hi → I i s →
      ∃ s', forRounds body i rounds s = .ok s' ∧ I hi s' from
    this (hi - lo).toNat lo s (Int.le_refl lo) (by omega) enter
  intro rounds
  induction rounds with
  | zero =>
    intro i s _ last inv
    have here : i = hi := by simpa using last
    exact ⟨s, rfl, here ▸ inv⟩
  | succ rounds ih =>
    intro i s above last inv
    obtain ⟨middle, step, inv'⟩ := round i s above (by omega) inv
    obtain ⟨s', rest, done⟩ := ih (i + 1) middle (by omega) (by omega) inv'
    refine ⟨s', ?_, done⟩
    rw [forRounds, step]
    exact rest

/-- What every round keeps if it succeeds is kept by a loop that succeeds. -/
theorem forRange_keeps {lo hi : Int} {body : Int → σ → Except ε σ} {s s' : σ} {I : σ → Prop} (enter : I s)
    (round : ∀ i s s', lo ≤ i → i < hi → I s → body i s = .ok s' → I s') (run : forRange lo hi body s = .ok s') :
    I s' := by
  suffices ∀ rounds i s, lo ≤ i → (rounds ≠ 0 → i + (rounds : Nat) ≤ hi) → I s →
      forRounds body i rounds s = .ok s' → I s' from
    this (hi - lo).toNat lo s (Int.le_refl lo) (by omega) enter run
  intro rounds
  induction rounds with
  | zero =>
    intro i s _ _ inv run
    cases run
    exact inv
  | succ rounds ih =>
    intro i s above last inv run
    obtain ⟨middle, step, rest⟩ := bind_ok run
    have here := last (by omega)
    exact ih (i + 1) middle (by omega) (by omega) (round i s middle above (by omega) inv step) rest

/-- A loop does not fail in some way if no round does. -/
theorem forRange_ne_error {lo hi : Int} {body : Int → σ → Except ε σ} {e : ε} (round : ∀ i s, body i s ≠ .error e)
    (s : σ) : forRange lo hi body s ≠ .error e := by
  suffices ∀ rounds i s, forRounds body i rounds s ≠ .error e from this _ lo s
  intro rounds
  induction rounds with
  | zero => exact fun i s => nofun
  | succ rounds ih => exact fun i s => bind_ne_error (round i s) fun s => ih (i + 1) s

/-- The loop rule for a loop that counts up from 0: the invariant speaks of the number of rounds made. -/
theorem forRange_count {n : Nat} {body : Int → σ → Except ε σ} {s : σ} {I : Nat → σ → Prop} (enter : I 0 s)
    (round : ∀ (k : Nat) s, k < n → I k s → ∃ s', body k s = .ok s' ∧ I (k + 1) s') :
    ∃ s', forRange 0 n body s = .ok s' ∧ I n s' := by
  refine forRange_invariant (I := fun i s => I i.toNat s) (Int.natCast_nonneg n) enter fun i s low high inv => ?_
  obtain ⟨k, rfl⟩ := Int.eq_ofNat_of_zero_le low
  exact round k s (Int.ofNat_lt.mp high) inv

/-- The same for a loop over a list: the invariant speaks of the items that are left. -/
theorem foldlM_invariant {α : Type} {body : σ → α → Except ε σ} {items : List α} {s : σ} {I : List α → σ → Prop}
    (enter : I items s) (round : ∀ a rest s, I (a :: rest) s → ∃ s', body s a = .ok s' ∧ I rest s') :
    ∃ s', items.foldlM body s = .ok s' ∧ I [] s' := by
  induction items generalizing s with
  | nil => exact ⟨s, rfl, enter⟩
  | cons a rest ih =>
    obtain ⟨middle, step, inv⟩ := round a rest s enter
    obtain ⟨s', run, done⟩ := ih inv
    refine ⟨s', ?_, done⟩
    rw [List.foldlM_cons, step]
    exact run

end PCProject
