import PCProject.Lib.LinkedCells

namespace PCProject

/-- A memory that holds exactly the blocks of some slots, each at the address of its slot. -/
structure Layout {S A N : Type} (address : S → A) (block : S → N) (used : S → Prop) (cells : Cells A N) : Prop where
  stored : ∀ slot, used slot → cells (address slot) = some (block slot)
  others : ∀ a, (∀ slot, used slot → a ≠ address slot) → cells a = none

namespace Layout
variable {S A N : Type} {address : S → A} {block : S → N} {used used' added : S → Prop} {cells cells' : Cells A N}
  {slot : S}

theorem empty (none_ : ∀ slot, ¬used slot) : Layout address block used (fun _ => none) where
  stored slot here := absurd here (none_ slot)
  others _ _ := rfl

theorem congr (layout : Layout address block used cells) (same : ∀ slot, used slot ↔ used' slot) :
    Layout address block used' cells where
  stored slot here := layout.stored slot ((same slot).mpr here)
  others a outside := layout.others a fun slot here => outside slot ((same slot).mp here)

theorem eq_empty (layout : Layout address block used cells) (none_ : ∀ slot, ¬used slot) : cells = fun _ => none :=
  funext fun a => layout.others a fun slot here => absurd here (none_ slot)

theorem fresh (layout : Layout address block used cells) (apart : Function.Injective address) (unused : ¬used slot) :
    cells (address slot) = none :=
  layout.others _ fun _ here same => unused (apart same ▸ here)

/-- More slots come into use, and nothing else changes. -/
theorem extend (layout : Layout address block used cells) (apart : Function.Injective address)
    (stored : ∀ slot, added slot → cells' (address slot) = some (block slot))
    (frame : ∀ a, (∀ slot, added slot → a ≠ address slot) → cells' a = cells a) :
    Layout address block (fun slot => used slot ∨ added slot) cells' where
  stored slot here := by
    by_cases new : added slot
    · exact stored slot new
    · rw [frame (address slot) fun other inside same => new (apart same ▸ inside)]
      exact layout.stored slot (here.resolve_right new)
  others a outside := by
    rw [frame a fun slot new => outside slot (Or.inr new)]
    exact layout.others a fun slot here => outside slot (Or.inl here)

theorem free [DecidableEq A] (layout : Layout address block used cells) (apart : Function.Injective address)
    (slot : S) :
    Layout address block (fun other => used other ∧ other ≠ slot) (cells.free (address slot)) where
  stored other here := by
    rw [Cells.free_ne _ fun same => here.2 (apart same)]
    exact layout.stored other here.1
  others a outside := by
    by_cases here : a = address slot
    · rw [here, Cells.free_self]
    · rw [Cells.free_ne _ here]
      exact layout.others a fun other used same => outside other ⟨used, fun equal => here (equal ▸ same)⟩ same

end Layout

end PCProject
