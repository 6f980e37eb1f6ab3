import Mathlib.Data.List.Count
import Mathlib.Tactic.Common

namespace PCProject
variable {α : Type} {l : List α} {i : Nat} {a : α}

theorem getElem?_set_found (found : l[i]? = some a) (b : α) : (l.set i b)[i]? = some b :=
  List.getElem?_set_self (List.getElem?_eq_some_iff.mp found).1

/-- How a count changes when one entry of a list does. -/
theorem countP_set_add {p : α → Bool} (b : α) (found : l[i]? = some a) :
    (l.set i b).countP p + (if p a then 1 else 0) = l.countP p + (if p b then 1 else 0) := by
  obtain ⟨inside, rfl⟩ := List.getElem?_eq_some_iff.mp found
  rw [List.countP_set inside]
  have member : p l[i] = true → 0 < l.countP p := fun hit => List.countP_pos_iff.mpr ⟨_, List.getElem_mem inside, hit⟩
  split
  · have positive := member (by assumption)
    omega
  · omega

/-- Counting entries by their places. -/
theorem countP_range_getElem? {p : α → Bool} : (List.range l.length).countP (fun i => l[i]?.any p) = l.countP p := by
  have places : (List.range l.length).map (l[·]?) = l.map some := by
    refine List.ext_getElem? fun i => ?_
    rcases Nat.lt_or_ge i l.length with inside | outside
    · simp [inside]
    · simp [outside]
  calc (List.range l.length).countP (fun i => l[i]?.any p)
    _ = ((List.range l.length).map (l[·]?)).countP (Option.any p) := by rw [List.countP_map]; rfl
    _ = l.countP p := by rw [places, List.countP_map]; rfl

/-- What holds of all entries still does when one of them is replaced. -/
theorem forall_mem_set {p : α → Prop} {b : α} (all : ∀ a ∈ l, p a) (new : p b) : ∀ a ∈ l.set i b, p a := by
  intro a member
  rcases List.mem_or_eq_of_mem_set member with old | here
  · exact all a old
  · rw [here]
    exact new

end PCProject
