import PCProject.TankList

namespace PCProject
variable {α : Type}

/-- What an operation on a tank may do to the heap: the blocks in use that are not the tank's own
stay as they are, and the tank does not take over one of them. -/
structure TankMove (tank : Tank) (heap : TankHeap α) (tank' : Tank) (heap' : TankHeap α) : Prop where
  frame : ∀ q, tank.data ≠ some q → heap q ≠ none → heap' q = heap q
  pointer : ∀ q, tank'.data = some q → tank.data = some q ∨ heap q = none

namespace TankMove
variable {tank tank' tank'' : Tank} {heap heap' heap'' : TankHeap α}

theorem same (pointer : tank'.data = tank.data) : TankMove tank heap tank' heap :=
  ⟨fun _ _ _ => rfl, fun _ own => Or.inl (pointer ▸ own)⟩

theorem step (first : TankMove tank heap tank' heap') (second : TankMove tank' heap' tank'' heap'') :
    TankMove tank heap tank'' heap'' := by
  have foreign : ∀ q, tank.data ≠ some q → heap q ≠ none → tank'.data ≠ some q := by
    intro q other used own
    exact (first.pointer q own).elim other used
  refine ⟨fun q other used => ?_, fun q own => ?_⟩
  · have kept := first.frame q other used
    exact (second.frame q (foreign q other used) (kept ▸ used)).trans kept
  · by_contra outside
    obtain ⟨other, used⟩ := not_or.mp outside
    have kept := first.frame q other used
    exact (second.pointer q own).elim (foreign q other used) (kept ▸ used)

end TankMove

variable {tank tank' : Tank} {heap heap' : TankHeap α} {answer : Option Nat} {size : Nat}

theorem tankMalloc_move {bytes : Nat} (step : tankMalloc size bytes heap answer = .ok heap') :
    TankMove ⟨none, 0, 0⟩ heap ⟨answer, 0, 0⟩ heap' := by
  cases answer with
  | none =>
    cases step
    exact .same rfl
  | some q =>
    simp only [tankMalloc] at step
    split at step
    · rename_i unused
      cases step
      have free : heap q = none := Option.isNone_iff_eq_none.mp unused
      refine ⟨fun a _ used => Cells.store_ne _ _ ?_, fun a own => Or.inr ?_⟩
      · intro here
        exact used (here ▸ free)
      · exact Option.some.inj own ▸ free
    · cases step

theorem tankRealloc_move {bytes n m k l : Nat} {data : Option Nat}
    (step : tankRealloc size bytes heap data answer = .ok heap') : TankMove ⟨data, n, m⟩ heap ⟨answer, k, l⟩ heap' := by
  cases data with
  | none =>
    have moved := tankMalloc_move step
    exact ⟨fun q _ => moved.frame q (by simp), fun q own => Or.inr ((moved.pointer q own).resolve_left (by simp))⟩
  | some p =>
    simp only [tankRealloc] at step
    split at step
    · cases step
    · split at step
      · cases step
        refine ⟨fun q other _ => ?_, fun q own => by simp at own⟩
        split
        · exact Cells.free_ne _ fun same => other (congrArg some same.symm)
        · rfl
      · rename_i q
        split at step
        · rename_i legal
          cases step
          refine ⟨fun a other used => ?_, fun a own => ?_⟩
          · have foreign : a ≠ p := fun same => other (congrArg some same.symm)
            have away : a ≠ q := by
              intro here
              rcases legal with own | unused
              · exact foreign (here.trans own)
              · exact used (here ▸ Option.isNone_iff_eq_none.mp unused)
            rw [Cells.store_ne _ _ away, Cells.free_ne _ foreign]
          · cases own
            rcases legal with own | unused
            · exact Or.inl (congrArg some own.symm)
            · exact Or.inr (Option.isNone_iff_eq_none.mp unused)
        · cases step

theorem tankWrite_move {n m k l index : Nat} {data : Option Nat} {item : α}
    (step : tankWrite heap data index item = .ok heap') : TankMove ⟨data, n, m⟩ heap ⟨data, k, l⟩ heap' := by
  cases data with
  | none => cases step
  | some p =>
    simp only [tankWrite] at step
    split at step
    · cases step
    · split at step
      · cases step
        exact ⟨fun q other _ => Cells.store_ne _ _ fun same => other (congrArg some same.symm), fun _ own => Or.inl own⟩
      · cases step

theorem tankFree_move {n m : Nat} {data : Option Nat} (step : tankFree heap data = .ok heap') :
    TankMove ⟨data, n, m⟩ heap ⟨none, 0, 0⟩ heap' := by
  cases data with
  | none =>
    cases step
    exact .same rfl
  | some p =>
    simp only [tankFree] at step
    split at step
    · cases step
      exact ⟨fun q other _ => Cells.free_ne _ fun same => other (congrArg some same.symm), fun _ own => by cases own⟩
    · cases step

theorem Tank.create_move {capacity : Nat} (step : Tank.create size capacity heap answer = .ok (tank', heap')) :
    TankMove ⟨none, 0, 0⟩ heap tank' heap' := by
  obtain ⟨heap₁, allocation, step⟩ := bind_ok step
  obtain ⟨_, _, step⟩ := bind_ok step
  cases step
  have moved := tankMalloc_move allocation
  exact ⟨moved.frame, moved.pointer⟩

theorem Tank.resize_move {capacity : Nat} (step : tank.resize size capacity heap answer = .ok (tank', heap')) :
    TankMove tank heap tank' heap' := by
  obtain ⟨_, _, step⟩ := bind_ok step
  obtain ⟨heap₁, allocation, step⟩ := bind_ok step
  obtain ⟨_, _, step⟩ := bind_ok step
  cases step
  exact tankRealloc_move allocation

theorem Tank.resizeIf_move {condition : Prop} [Decidable condition] {capacity : Nat}
    (step : tank.resizeIf condition size capacity heap answer = .ok (tank', heap')) :
    TankMove tank heap tank' heap' := by
  unfold Tank.resizeIf at step
  split at step
  · exact Tank.resize_move step
  · cases step
    exact .same rfl

theorem Tank.pushBack_move {item : α} (step : tank.pushBack size item heap answer = .ok (tank', heap')) :
    TankMove tank heap tank' heap' := by
  unfold Tank.pushBack at step
  obtain ⟨⟨tank₁, heap₁⟩, grow, step⟩ := bind_ok step
  obtain ⟨heap₂, written, step⟩ := bind_ok step
  cases step
  exact (Tank.resizeIf_move grow).step (tankWrite_move written)

theorem Tank.popBack_move {removed : α} (step : tank.popBack size heap answer = .ok (removed, tank', heap')) :
    TankMove tank heap tank' heap' := by
  unfold Tank.popBack at step
  obtain ⟨_, _, step⟩ := bind_ok step
  obtain ⟨_, _, step⟩ := bind_ok step
  obtain ⟨⟨tank₁, heap₁⟩, shrink, step⟩ := bind_ok step
  cases step
  have shortened : TankMove tank heap { tank with filled := tank.filled - 1 } heap := .same rfl
  exact shortened.step (Tank.resizeIf_move shrink)

theorem Tank.freeArray_move (step : tank.freeArray heap = .ok (tank', heap')) : TankMove tank heap tank' heap' := by
  obtain ⟨heap₁, freed, step⟩ := bind_ok step
  cases step
  exact tankFree_move freed

/-- No operation touches the blocks of others. -/
theorem TankOp.run_move {op : TankOp α} {reply : TankReply α}
    (step : op.run size answer tank heap = .ok (reply, tank', heap')) : TankMove tank heap tank' heap' := by
  cases op with
  | pushBack item =>
    obtain ⟨_, push, step⟩ := bind_ok step
    cases step
    exact Tank.pushBack_move push
  | popBack =>
    obtain ⟨⟨removed, after⟩, pop, step⟩ := bind_ok step
    cases step
    exact Tank.popBack_move pop
  | «at» | subscript =>
    obtain ⟨_, _, step⟩ := bind_ok step
    cases step
    exact .same rfl
  | size =>
    cases step
    exact .same rfl
  | resize capacity =>
    obtain ⟨_, resized, step⟩ := bind_ok step
    cases step
    exact Tank.resize_move resized
  | freeArray =>
    obtain ⟨_, freed, step⟩ := bind_ok step
    cases step
    exact Tank.freeArray_move freed

/-- What a tank holds depends on its own block only. -/
theorem Tank.Holds.frame {xs : List α} (holds : tank.Holds size heap xs)
    (same : ∀ p, tank.data = some p → heap' p = heap p) : tank.Holds size heap' xs := by
  have stored := holds.stored
  refine ⟨holds.filled, holds.fits, ?_⟩
  cases pointer : tank.data with
  | none =>
    rw [pointer] at stored
    exact stored
  | some p =>
    rw [pointer] at stored
    obtain ⟨rest, here, lengths⟩ := stored
    exact ⟨rest, (same p pointer).trans here, lengths⟩

theorem Tank.Holds.used {xs : List α} (holds : tank.Holds size heap xs) {p : Nat} (pointer : tank.data = some p) :
    heap p ≠ none := by
  have stored := holds.stored
  rw [pointer] at stored
  obtain ⟨rest, here, _⟩ := stored
  simp [here]

end PCProject
