import Mathlib.Algebra.BigOperators.Fin
import Mathlib.Algebra.Order.BigOperators.Group.Finset

namespace PCProject
variable {ι β M : Type} [DecidableEq ι] [Fintype ι]

/-- How a sum over all threads changes when one thread moves. Written additively, so that
it needs no subtraction. -/
theorem sum_update_add [AddCommMonoid M] (g : β → M) (f : ι → β) (t : ι) (c : β) :
    (∑ u, g (Function.update f t c u)) + g (f t) = (∑ u, g (f u)) + g c := by
  rw [← Finset.add_sum_erase _ _ (Finset.mem_univ t), ← Finset.add_sum_erase _ (fun u => g (f u)) (Finset.mem_univ t)]
  have others : ∑ u ∈ Finset.univ.erase t, g (Function.update f t c u) = ∑ u ∈ Finset.univ.erase t, g (f u) := by
    refine Finset.sum_congr rfl fun u member => ?_
    rw [Function.update_of_ne (Finset.ne_of_mem_erase member)]
  rw [others, Function.update_self]
  ac_rfl

/-- A move that keeps the summand of its thread keeps the sum. -/
theorem sum_update_same [AddCommMonoid M] (g : β → M) (f : ι → β) {t : ι} {c : β} (same : g c = g (f t)) :
    ∑ u, g (Function.update f t c u) = ∑ u, g (f u) := by
  refine Finset.sum_congr rfl fun u _ => ?_
  by_cases here : u = t
  · subst here
    rw [Function.update_self, same]
  · rw [Function.update_of_ne here]

/-- Entries labelled with a thread, counted thread by thread. -/
theorem sum_countP_fst (p : β → Bool) (entries : List (ι × β)) :
    ∑ t, (entries.countP fun e => e.1 = t ∧ p e.2) = (entries.map Prod.snd).countP p := by
  induction entries with
  | nil => simp
  | cons e rest ih =>
    simp only [List.countP_cons, List.map_cons, Finset.sum_add_distrib, ih]
    cases p e.2 with
    | false => simp
    | true => simp

end PCProject
