import Mathlib.Data.List.Nodup
import Mathlib.Logic.Function.Basic

namespace PCProject

/-- A partial memory of nodes. An address without a node is not allocated. -/
abbrev Cells (A N : Type) := A → Option N

namespace Cells
variable {A N : Type} [DecidableEq A]

def store (cells : Cells A N) (p : A) (node : N) : Cells A N := Function.update cells p (some node)

def free (cells : Cells A N) (p : A) : Cells A N := Function.update cells p none

@[simp] theorem store_self (cells : Cells A N) (p : A) (node : N) : cells.store p node p = some node := by
  simp [store]

theorem store_ne (cells : Cells A N) {p a : A} (node : N) (other : a ≠ p) : cells.store p node a = cells a := by
  simp [store, other]

@[simp] theorem free_self (cells : Cells A N) (p : A) : cells.free p p = none := by
  simp [free]

theorem free_ne (cells : Cells A N) {p a : A} (other : a ≠ p) : cells.free p a = cells a := by
  simp [free, other]

@[simp] theorem free_store (cells : Cells A N) (p : A) (node : N) : (cells.store p node).free p = cells.free p := by
  simp [free, store]

end Cells

variable {A N : Type}

/-- The nodes met on the way from one pointer to another, following the links of a
singly linked structure. -/
inductive Segment (link : N → Option A) (cells : Cells A N) : Option A → List (A × N) → Option A → Prop
  | nil {p : Option A} : Segment link cells p [] p
  | cons {p : A} {node : N} {rest : List (A × N)} {stop : Option A} : cells p = some node →
      Segment link cells (link node) rest stop → Segment link cells (some p) ((p, node) :: rest) stop

namespace Segment
variable {link : N → Option A} {cells : Cells A N} {p q stop : Option A} {xs ys : List (A × N)}

theorem append_iff : Segment link cells p (xs ++ ys) stop ↔
    ∃ middle, Segment link cells p xs middle ∧ Segment link cells middle ys stop := by
  induction xs generalizing p with
  | nil =>
    constructor
    · exact fun rest => ⟨p, .nil, rest⟩
    · rintro ⟨_, first, rest⟩
      cases first
      exact rest
  | cons x xs ih =>
    constructor
    · intro whole
      cases whole with
      | cons node rest =>
        obtain ⟨middle, first, last⟩ := ih.mp rest
        exact ⟨middle, .cons node first, last⟩
    · rintro ⟨middle, first, last⟩
      cases first with
      | cons node first => exact .cons node (ih.mpr ⟨middle, first, last⟩)

theorem mem (path : Segment link cells p xs stop) {a : A} {node : N} (member : (a, node) ∈ xs) :
    cells a = some node := by
  induction path with
  | nil => cases member
  | cons stored _ ih =>
    rcases List.mem_cons.mp member with same | later
    · cases same; exact stored
    · exact ih later

theorem allocated (path : Segment link cells p xs stop) {a : A} (member : a ∈ xs.map Prod.fst) :
    cells a ≠ none := by
  obtain ⟨⟨b, node⟩, inside, rfl⟩ := List.mem_map.mp member
  simp [path.mem inside]

/-- A segment only depends on the nodes it visits. -/
theorem frame {other : Cells A N} (path : Segment link cells p xs stop)
    (agree : ∀ a ∈ xs.map Prod.fst, other a = cells a) : Segment link other p xs stop := by
  induction path with
  | nil => exact .nil
  | cons stored _ ih =>
    refine .cons ((agree _ (by simp)).trans stored) (ih fun a member => agree a ?_)
    simpa using Or.inr (by simpa using member)

/-- The links leave no choice: two ways to the end visit the same nodes. -/
theorem unique (first : Segment link cells p xs none) (second : Segment link cells p ys none) : xs = ys := by
  induction xs generalizing p ys with
  | nil => cases first; cases second; rfl
  | cons x xs ih =>
    cases first with
    | cons stored rest =>
      cases second with
      | cons stored' rest' =>
        cases Option.some.inj (stored.symm.trans stored')
        rw [ih rest rest']

/-- A path that ends does not visit an address twice. -/
theorem nodup (path : Segment link cells p xs none) : (xs.map Prod.fst).Nodup := by
  induction xs generalizing p with
  | nil => exact List.nodup_nil
  | cons x xs ih =>
    cases path with
    | @cons a node rest stop stored rest =>
      refine List.nodup_cons.mpr ⟨fun again => ?_, ih rest⟩
      obtain ⟨⟨b, node'⟩, member, same⟩ := List.mem_map.mp again
      obtain ⟨before, after, split⟩ := List.append_of_mem member
      rw [split, append_iff] at rest
      obtain ⟨middle, ahead, back⟩ := rest
      have loop : Segment link cells (some a) ((a, node) :: xs) none :=
        .cons stored (split ▸ append_iff.mpr ⟨middle, ahead, back⟩)
      have start : middle = some a := by
        cases back
        exact congrArg some same
      subst start
      have lengths := congrArg List.length (loop.unique back)
      rw [split] at lengths
      simp only [List.length_cons, List.length_append] at lengths
      omega

end Segment
end PCProject
