import PCProject.TankOwnership

namespace PCProject
variable {α : Type}

/-- At least half of the capacity is in use, up to the rounding of the half. -/
structure Tank.HalfUsed (tank : Tank) : Prop where
  power : tank.maxCapacity = 0 ∨ ∃ k, tank.maxCapacity = 2 ^ k
  used : tank.maxCapacity / 2 ≤ tank.filled
  room : tank.filled ≤ tank.maxCapacity

/-- The half is rounded down only for the capacity 1, since the other ones are even. -/
theorem Tank.HalfUsed.capacity_le {tank : Tank} (half : tank.HalfUsed) :
    tank.maxCapacity ≤ max 1 (2 * tank.filled) := by
  have used := half.used
  rcases half.power with none_left | ⟨k, power⟩
  · omega
  · cases k with
    | zero => omega
    | succ k =>
      have even : tank.maxCapacity = 2 * 2 ^ k := by rw [power, Nat.pow_succ, Nat.mul_comm]
      omega

theorem Tank.HalfUsed.empty {data : Option Nat} : Tank.HalfUsed ⟨data, 0, 0⟩ :=
  ⟨Or.inl rfl, by simp, by simp⟩

section Capacities
variable {size capacity : Nat} {tank tank' : Tank} {heap heap' : TankHeap α} {answer : Option Nat}

theorem Tank.resize_capacity (step : tank.resize size capacity heap answer = .ok (tank', heap')) :
    tank'.filled = tank.filled ∧ tank'.maxCapacity = capacity := by
  obtain ⟨_, _, step⟩ := bind_ok step
  obtain ⟨_, _, step⟩ := bind_ok step
  obtain ⟨_, _, step⟩ := bind_ok step
  cases step
  exact ⟨rfl, rfl⟩

theorem Tank.resizeIf_capacity {condition : Prop} [Decidable condition]
    (step : tank.resizeIf condition size capacity heap answer = .ok (tank', heap')) :
    tank'.filled = tank.filled ∧ tank'.maxCapacity = if condition then capacity else tank.maxCapacity := by
  unfold Tank.resizeIf at step
  split at step
  · rename_i asked
    rw [if_pos asked]
    exact Tank.resize_capacity step
  · rename_i enough
    cases step
    rw [if_neg enough]
    exact ⟨rfl, rfl⟩

theorem Tank.pushBack_capacity {item : α} (step : tank.pushBack size item heap answer = .ok (tank', heap')) :
    tank'.filled = sizeT (tank.filled + 1) ∧
      tank'.maxCapacity = if tank.maxCapacity ≤ tank.filled then tank.grown else tank.maxCapacity := by
  unfold Tank.pushBack at step
  obtain ⟨⟨resized, heap₁⟩, grow, step⟩ := bind_ok step
  obtain ⟨heap₂, _, step⟩ := bind_ok step
  cases step
  obtain ⟨filled, room⟩ := Tank.resizeIf_capacity grow
  exact ⟨congrArg (fun n => sizeT (n + 1)) filled, room⟩

theorem Tank.popBack_capacity {removed : α} (step : tank.popBack size heap answer = .ok (removed, tank', heap')) :
    tank'.filled = tank.filled - 1 ∧
      tank'.maxCapacity =
        if tank.filled - 1 < tank.maxCapacity / 2 then tank.maxCapacity / 2 else tank.maxCapacity := by
  unfold Tank.popBack at step
  obtain ⟨_, _, step⟩ := bind_ok step
  obtain ⟨_, _, step⟩ := bind_ok step
  obtain ⟨⟨resized, heap₁⟩, shrink, step⟩ := bind_ok step
  cases step
  exact Tank.resizeIf_capacity shrink

end Capacities

section Steps
variable {tank tank' : Tank}

/-- A full tank doubles its capacity before the element comes in, from 0 to 1. -/
theorem Tank.HalfUsed.pushed (half : tank.HalfUsed) (filled : tank'.filled = tank.filled + 1)
    (capacity : tank'.maxCapacity = if tank.maxCapacity ≤ tank.filled then
      (if 0 < tank.maxCapacity then 2 * tank.maxCapacity else 1) else tank.maxCapacity) : tank'.HalfUsed := by
  obtain ⟨power, used, room⟩ := half
  by_cases full : tank.maxCapacity ≤ tank.filled
  · by_cases positive : 0 < tank.maxCapacity
    · rw [if_pos full, if_pos positive] at capacity
      refine ⟨Or.inr ?_, by omega, by omega⟩
      obtain ⟨k, power⟩ := power.resolve_left (Nat.ne_of_gt positive)
      exact ⟨k + 1, by rw [capacity, power, Nat.pow_succ, Nat.mul_comm]⟩
    · rw [if_pos full, if_neg positive] at capacity
      exact ⟨Or.inr ⟨0, capacity⟩, by omega, by omega⟩
  · rw [if_neg full] at capacity
    exact ⟨capacity ▸ power, by omega, by omega⟩

/-- One halving is enough, as only one element leaves. -/
theorem Tank.HalfUsed.popped (half : tank.HalfUsed) (some_left : 0 < tank.filled)
    (filled : tank'.filled = tank.filled - 1)
    (capacity : tank'.maxCapacity =
      if tank.filled - 1 < tank.maxCapacity / 2 then tank.maxCapacity / 2 else tank.maxCapacity) : tank'.HalfUsed := by
  obtain ⟨power, used, room⟩ := half
  by_cases sparse : tank.filled - 1 < tank.maxCapacity / 2
  · rw [if_pos sparse] at capacity
    refine ⟨Or.inr ?_, by omega, by omega⟩
    obtain ⟨k, power⟩ := power.resolve_left (by omega)
    cases k with
    | zero => omega
    | succ k => exact ⟨k, by rw [capacity, power, Nat.pow_succ, Nat.mul_div_cancel _ (by decide)]⟩
  · rw [if_neg sparse] at capacity
    exact ⟨capacity ▸ power, by omega, by omega⟩

end Steps

/-- push_back, and pop_back on a tank with elements. -/
def TankOp.atBack (op : TankOp α) (tank : Tank) : Bool :=
  match op with
  | .pushBack _ => true
  | .popBack => decide (0 < tank.filled)
  | _ => false

def backAllowed (size : Nat) (s : Tank × TankHeap α) (call : TankOp α × Option Nat) : Bool :=
  call.1.atBack s.1 && tankAllowed size s call

/-- A tank that the default constructor or free_array leaves. -/
inductive Emptied (size : Nat) : Tank × TankHeap α → Prop
  | created {heap : TankHeap α} {answer : Option Nat} {s : Tank × TankHeap α} :
      Granted heap none 0 answer → Tank.create size 0 heap answer = .ok s → Emptied size s
  | freed {tank : Tank} {heap : TankHeap α} {xs : List α} {s : Tank × TankHeap α} :
      tank.Holds size heap xs → tank.freeArray heap = .ok s → Emptied size s

theorem Emptied.holds {size : Nat} {s : Tank × TankHeap α} (positive : 0 < size) (emptied : Emptied size s) :
    s.1.Holds size s.2 [] := by
  cases emptied with
  | created granted created =>
    obtain ⟨tank, heap, step, holds⟩ := Tank.create_holds positive (by simp [CapacityFits]) granted
    cases step.symm.trans created
    exact holds
  | freed before freed =>
    obtain ⟨tank, heap, step, holds⟩ := before.freeArray
    cases step.symm.trans freed
    exact holds

theorem Emptied.halfUsed {size : Nat} {s : Tank × TankHeap α} (emptied : Emptied size s) : s.1.HalfUsed := by
  cases emptied with
  | created _ created =>
    obtain ⟨_, _, created⟩ := bind_ok created
    obtain ⟨_, _, created⟩ := bind_ok created
    cases created
    exact .empty
  | freed _ freed =>
    obtain ⟨_, _, freed⟩ := bind_ok freed
    cases freed
    exact .empty

/-- The elements and the share of the capacity, kept by an operation at the back. No assertion fails in it. -/
theorem Tank.HalfUsed.run {size : Nat} {s : Tank × TankHeap α} {xs : List α} {call : TankOp α × Option Nat}
    (half : s.1.HalfUsed) (holds : s.1.Holds size s.2 xs) (positive : 0 < size)
    (allowed : backAllowed size s call = true) :
    ∃ reply t ys, call.1.run size call.2 s.1 s.2 = .ok (reply, t) ∧ t.1.HalfUsed ∧ t.1.Holds size t.2 ys := by
  obtain ⟨tank, heap⟩ := s
  obtain ⟨op, answer⟩ := call
  obtain ⟨back, allowed⟩ := Bool.and_eq_true_iff.mp allowed
  replace allowed : op.Allowed size tank heap answer := of_decide_eq_true allowed
  have wraps := holds.fits.2
  have room := holds.room
  cases op with
  | pushBack item =>
    obtain ⟨tank', heap', step, after⟩ := holds.pushBack positive allowed
    obtain ⟨filled, capacity⟩ := Tank.pushBack_capacity step
    rw [sizeT_of_lt (by omega)] at filled
    rw [Tank.grown, sizeT_of_lt wraps] at capacity
    refine ⟨.nothing, (tank', heap'), _, ?_, half.pushed filled capacity, after⟩
    simp only [TankOp.run, step, bind, Except.bind, pure, Except.pure]
  | popBack =>
    have some_left : 0 < tank.filled := of_decide_eq_true back
    have elements : xs ≠ [] := by
      intro empty
      rw [holds.filled, empty] at some_left
      exact Nat.lt_irrefl 0 some_left
    obtain ⟨ys, last, split⟩ := (List.eq_nil_or_concat' xs).resolve_left elements
    subst split
    obtain ⟨tank', heap', step, after⟩ := holds.popBack positive allowed
    obtain ⟨filled, capacity⟩ := Tank.popBack_capacity step
    refine ⟨.element last, (tank', heap'), _, ?_, half.popped some_left filled capacity, after⟩
    simp only [TankOp.run, step, bind, Except.bind, pure, Except.pure]
  | _ => cases back

theorem tank_run_halfUsed {size : Nat} {start s : Tank × TankHeap α} {calls : List (TankOp α × Option Nat)}
    (positive : 0 < size) (emptied : Emptied size start)
    (run : (tankSystem α size).execVia (backAllowed size) start calls = some s) :
    s.1.HalfUsed ∧ ∃ xs, s.1.Holds size s.2 xs := by
  refine System.execVia_invariant (I := fun _ s => s.1.HalfUsed ∧ ∃ xs, s.1.Holds size s.2 xs)
    ⟨emptied.halfUsed, [], emptied.holds positive⟩ ?_ run
  intro _ s call t ⟨half, xs, holds⟩ allowed step
  obtain ⟨reply, t', ys, ran, half', holds'⟩ := half.run holds positive allowed
  simp only [tankSystem, ran, Except.toOption, Option.map_some, Option.some.injEq] at step
  subst step
  exact ⟨half', ys, holds'⟩

/-- After every operation at the back of a tank at least half of its capacity is in use, and the
next operation passes its assertions. When it shrinks, one slot is left beside the elements. -/
theorem tank_half_used {size : Nat} {start s : Tank × TankHeap α} {calls : List (TankOp α × Option Nat)}
    (positive : 0 < size) (emptied : Emptied size start)
    (run : (tankSystem α size).execVia (backAllowed size) start calls = some s) :
    ((s.1.maxCapacity = 0 ∨ ∃ k, s.1.maxCapacity = 2 ^ k) ∧ s.1.maxCapacity / 2 ≤ s.1.filled ∧
      s.1.filled ≤ s.1.maxCapacity ∧ s.1.maxCapacity ≤ max 1 (2 * s.1.filled)) ∧
    (s.1.maxCapacity ≤ s.1.filled → s.1.filled ≤ s.1.grown) ∧
    (s.1.filled - 1 < s.1.maxCapacity / 2 → s.1.maxCapacity / 2 = s.1.filled - 1 + 1) ∧
    ∀ call, backAllowed size s call = true → ∃ reply t, call.1.run size call.2 s.1 s.2 = .ok (reply, t) := by
  obtain ⟨half, xs, holds⟩ := tank_run_halfUsed positive emptied run
  refine ⟨⟨half.power, half.used, half.room, half.capacity_le⟩, ?_, fun shrinks => ?_, ?_⟩
  · intro _
    have room := half.room
    rw [Tank.grown, sizeT_of_lt holds.fits.2]
    split <;> omega
  · have used := half.used
    omega
  · intro call allowed
    obtain ⟨reply, t, _, ran, _⟩ := half.run holds positive allowed
    exact ⟨reply, t, ran⟩

/-- Three elements come in, and three leave. -/
def drainedTank : List (TankOp Nat × Option Nat) :=
  [(.pushBack 5, some 1), (.pushBack 6, some 2), (.pushBack 7, some 2), (.popBack, none), (.popBack, some 1),
    (.popBack, some 1)]

theorem tank_half_used_drained :
    ∃ s, (tankSystem Nat 8).execVia (backAllowed 8) (⟨none, 0, 0⟩, fun _ => none) drainedTank = some s ∧
      s.1.maxCapacity ≤ max 1 (2 * s.1.filled) := by
  have granted : Granted (fun _ => none : TankHeap Nat) none 0 none := rfl
  have emptied : Emptied 8 (⟨none, 0, 0⟩, fun _ => none) := .created granted rfl
  have run : (tankSystem Nat 8).execVia (backAllowed 8) (⟨none, 0, 0⟩, fun _ => none) drainedTank = some _ := rfl
  obtain ⟨⟨_, _, _, bound⟩, _⟩ := tank_half_used (by decide) emptied run
  exact ⟨_, rfl, bound⟩

end PCProject
