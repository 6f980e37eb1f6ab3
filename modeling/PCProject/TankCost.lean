import PCProject.TankUsage
import PCProject.Lib.Potential

namespace PCProject
variable {α : Type}

/-- The elements that `realloc` has to carry over in an operation at the back, if it gives another block. -/
def TankOp.carried (op : TankOp α) (tank : Tank) : Nat :=
  match op with
  | .pushBack _ => if tank.maxCapacity ≤ tank.filled then tank.filled else 0
  | .popBack => if tank.filled - 1 < tank.maxCapacity / 2 then tank.filled - 1 else 0
  | _ => 0

def TankOp.isPush : TankOp α → Bool
  | .pushBack _ => true
  | _ => false

def TankOp.isPop : TankOp α → Bool
  | .popBack => true
  | _ => false

/-- The elements carried over by the calls of a run. -/
def tankCarried (size : Nat) (s : Tank × TankHeap α) (calls : List (TankOp α × Option Nat)) : Nat :=
  (tankSystem α size).spent (fun s call => call.1.carried s.1) s calls

section Steps
variable {size : Nat} {s t : Tank × TankHeap α} {answer : Option Nat} {item : α}

/-- What is known of a tank between two operations at its back. -/
def BackInv (size : Nat) (s : Tank × TankHeap α) : Prop := s.1.HalfUsed ∧ ∃ xs, s.1.Holds size s.2 xs

theorem BackInv.step {call : TankOp α × Option Nat} (inv : BackInv size s) (positive : 0 < size)
    (allowed : backAllowed size s call = true) (step : (tankSystem α size).step s call = some t) : BackInv size t := by
  obtain ⟨half, xs, holds⟩ := inv
  obtain ⟨reply, t', ys, ran, half', holds'⟩ := half.run holds positive allowed
  simp only [tankSystem, ran, Except.toOption, Option.map_some, Option.some.injEq] at step
  subst step
  exact ⟨half', ys, holds'⟩

/-- How full a tank is after a push_back. -/
theorem BackInv.pushed (inv : BackInv size s) (step : (tankSystem α size).step s (.pushBack item, answer) = some t) :
    t.1.filled = s.1.filled + 1 ∧ t.1.maxCapacity =
      if s.1.maxCapacity ≤ s.1.filled then (if 0 < s.1.maxCapacity then 2 * s.1.maxCapacity else 1)
      else s.1.maxCapacity := by
  obtain ⟨half, xs, holds⟩ := inv
  have wraps := holds.fits.2
  have room := holds.room
  simp only [tankSystem, TankOp.run] at step
  cases push : s.1.pushBack size item s.2 answer with
  | error stop =>
    rw [push] at step
    cases step
  | ok after =>
    rw [push] at step
    cases step
    obtain ⟨filled, capacity⟩ := Tank.pushBack_capacity push
    rw [sizeT_of_lt (by omega)] at filled
    rw [Tank.grown, sizeT_of_lt wraps] at capacity
    exact ⟨filled, capacity⟩

/-- How full a tank is after a pop_back. -/
theorem tank_popped (step : (tankSystem α size).step s (.popBack, answer) = some t) :
    t.1.filled = s.1.filled - 1 ∧ t.1.maxCapacity =
      if s.1.filled - 1 < s.1.maxCapacity / 2 then s.1.maxCapacity / 2 else s.1.maxCapacity := by
  simp only [tankSystem, TankOp.run] at step
  cases pop : s.1.popBack size s.2 answer with
  | error stop =>
    rw [pop] at step
    cases step
  | ok after =>
    rw [pop] at step
    cases step
    exact Tank.popBack_capacity pop

/-- A push_back on a full tank carries as many elements as the doubled capacity gains places. -/
theorem BackInv.carried_push {call : TankOp α × Option Nat} (inv : BackInv size s) (push : call.1.isPush = true)
    (step : (tankSystem α size).step s call = some t) :
    2 * t.1.filled - t.1.maxCapacity + call.1.carried s.1 ≤ 2 * s.1.filled - s.1.maxCapacity + 2 := by
  obtain ⟨op, answer⟩ := call
  cases op with
  | pushBack item =>
    obtain ⟨filled, capacity⟩ := inv.pushed step
    have room := inv.1.room
    rw [filled, capacity, TankOp.carried]
    split
    · split <;> omega
    · omega
  | _ => cases push

/-- A pop_back that halves the capacity carries no more elements than places had become empty. -/
theorem BackInv.carried_pop {call : TankOp α × Option Nat} (inv : BackInv size s) (pop : call.1.isPop = true)
    (step : (tankSystem α size).step s call = some t) :
    t.1.maxCapacity - t.1.filled + call.1.carried s.1 ≤ s.1.maxCapacity - s.1.filled + 1 := by
  obtain ⟨op, answer⟩ := call
  cases op with
  | popBack =>
    obtain ⟨filled, capacity⟩ := tank_popped step
    have used := inv.1.used
    have room := inv.1.room
    rw [filled, capacity, TankOp.carried]
    split <;> omega
  | _ => cases pop

end Steps

/-- Calls of one kind, from any state that operations at the back lead to, carry at most two elements a call and the
elements that are there at the start once. -/
theorem tank_carries_le {size : Nat} {start s t : Tank × TankHeap α} {before calls : List (TankOp α × Option Nat)}
    (positive : 0 < size) (emptied : Emptied size start)
    (reached : (tankSystem α size).execVia (backAllowed size) start before = some s)
    (run : (tankSystem α size).execVia (backAllowed size) s calls = some t)
    (oneWay : (∀ call ∈ calls, call.1.isPush = true) ∨ ∀ call ∈ calls, call.1.isPop = true) :
    tankCarried size s calls ≤ 2 * calls.length + s.1.filled + 1 := by
  have inv : BackInv size s := tank_run_halfUsed positive emptied reached
  have capacity := inv.1.capacity_le
  have room := inv.1.room
  unfold tankCarried
  rcases oneWay with pushes | pops
  · have paid := System.spent_le_via (fun s => 2 * s.1.filled - s.1.maxCapacity) inv
      (fun call member s t inv allowed step =>
        ⟨inv.step positive allowed step, inv.carried_push (pushes call member) step⟩) run
    rw [System.spent_const 2 (System.exec_of_via run)] at paid
    omega
  · have paid := System.spent_le_via (fun s => s.1.maxCapacity - s.1.filled) inv
      (fun call member s t inv allowed step =>
        ⟨inv.step positive allowed step, inv.carried_pop (pops call member) step⟩) run
    rw [System.spent_const 1 (System.exec_of_via run)] at paid
    omega

theorem tank_carries_le_drained : ∃ s : Tank × TankHeap Nat,
    (tankSystem Nat 8).execVia (backAllowed 8) (⟨none, 0, 0⟩, fun _ => none) (drainedTank.take 3) = some s ∧
      tankCarried 8 s (drainedTank.drop 3) ≤ 2 * 3 + s.1.filled + 1 := by
  have granted : Granted (fun _ => none : TankHeap Nat) none 0 none := rfl
  have emptied : Emptied 8 (⟨none, 0, 0⟩, fun _ => none) := .created granted rfl
  have whole : ((tankSystem Nat 8).execVia (backAllowed 8) (⟨none, 0, 0⟩, fun _ => none) (drainedTank.take 3)).bind
    (fun s => (tankSystem Nat 8).execVia (backAllowed 8) s (drainedTank.drop 3)) = some _ := rfl
  obtain ⟨s, reached, run⟩ := Option.bind_eq_some_iff.mp whole
  exact ⟨s, reached, tank_carries_le (by decide) emptied reached run (.inr (by decide))⟩

section Thrashing
variable {size n m : Nat} {s t u : Tank × TankHeap α}

/-- A run of calls at the back with its number of calls, which carries at least some number of elements. -/
def BackRun (size : Nat) (s : Tank × TankHeap α) (calls carried : Nat) (t : Tank × TankHeap α) : Prop :=
  ∃ run, (tankSystem α size).execVia (backAllowed size) s run = some t ∧ run.length = calls ∧
    carried ≤ tankCarried size s run

theorem BackRun.trans {calls calls' carried carried' : Nat} (first : BackRun size s calls carried t)
    (second : BackRun size t calls' carried' u) : BackRun size s (calls + calls') (carried + carried') u := by
  obtain ⟨run, here, length, costs⟩ := first
  obtain ⟨run', here', length', costs'⟩ := second
  refine ⟨run ++ run', ?_, by rw [List.length_append, length, length'], ?_⟩
  · rw [System.execVia_append here, here']
  · rw [tankCarried, System.spent_append (System.exec_of_via here)]
    exact Nat.add_le_add costs costs'

theorem BackRun.mono {calls carried carried' : Nat} (run : BackRun size s calls carried t) (less : carried' ≤ carried) :
    BackRun size s calls carried' t := by
  obtain ⟨run, here, length, costs⟩ := run
  exact ⟨run, here, length, Nat.le_trans less costs⟩

/-- An operation at the back is possible where its request is granted, with the old block if there is one. -/
theorem BackInv.goesOn {op : TankOp α} (inv : BackInv size s) (positive : 0 < size) (back : op.atBack s.1 = true)
    (fits : ∀ capacity ∈ op.request s.1, CapacityFits size capacity) (free : s.1.data = none → ∃ q, s.2 q = none) :
    ∃ answer t, (tankSystem α size).step s (op, answer) = some t ∧ BackInv size t ∧
      BackRun size s 1 (op.carried s.1) t := by
  obtain ⟨answer, granted⟩ : ∃ answer, ∀ capacity, Granted s.2 s.1.data capacity answer := by
    cases block : s.1.data with
    | some p => exact ⟨some p, fun _ => Or.inl rfl⟩
    | none =>
      obtain ⟨q, fresh⟩ := free block
      exact ⟨some q, fun _ => Or.inr (by rw [fresh]; rfl)⟩
  have index : op.IndexFits := by
    cases op with
    | pushBack | popBack => exact trivial
    | _ => cases back
  have allowed : backAllowed size s (op, answer) = true :=
    Bool.and_eq_true_iff.mpr
      ⟨back, decide_eq_true ⟨index, fun capacity asked => ⟨fits capacity asked, granted capacity⟩⟩⟩
  obtain ⟨half, xs, holds⟩ := inv
  obtain ⟨reply, t, ys, ran, half', holds'⟩ := half.run holds positive allowed
  have step : (tankSystem α size).step s (op, answer) = some t := by
    simp only [tankSystem, ran, Except.toOption, Option.map_some]
  refine ⟨answer, t, step, ⟨half', ys, holds'⟩, [(op, answer)], ?_, rfl, ?_⟩
  · rw [System.execVia, if_pos allowed, step]
    rfl
  · rw [tankCarried, System.spent_cons step]
    exact Nat.le_add_right _ _

/-- A tank with a place has a block. -/
theorem BackInv.block (inv : BackInv size s) (place : 0 < s.1.maxCapacity) : s.1.data ≠ none := by
  obtain ⟨half, xs, holds⟩ := inv
  intro absent
  have stored := holds.stored
  rw [absent] at stored
  have none_ := stored.1
  omega

/-- A push_back, wherever the capacity after it fits. -/
theorem BackInv.pushes (inv : BackInv size s) (positive : 0 < size) (item : α)
    (fits : s.1.maxCapacity ≤ s.1.filled → CapacityFits size (if 0 < s.1.maxCapacity then 2 * s.1.maxCapacity else 1))
    (free : s.1.data = none → ∃ q, s.2 q = none) :
    ∃ t, BackRun size s 1 (if s.1.maxCapacity ≤ s.1.filled then s.1.filled else 0) t ∧ BackInv size t ∧
      t.1.filled = s.1.filled + 1 ∧ t.1.maxCapacity =
        if s.1.maxCapacity ≤ s.1.filled then (if 0 < s.1.maxCapacity then 2 * s.1.maxCapacity else 1)
        else s.1.maxCapacity := by
  have asks : ∀ capacity ∈ (TankOp.pushBack item).request s.1, CapacityFits size capacity := by
    intro capacity asked
    simp only [TankOp.request] at asked
    split at asked
    · rename_i full
      cases asked
      exact fits full
    · cases asked
  obtain ⟨answer, t, step, inv', run⟩ := inv.goesOn positive rfl asks free
  obtain ⟨filled, capacity⟩ := inv.pushed step
  exact ⟨t, run, inv', filled, capacity⟩

/-- A pop_back of a tank with elements. -/
theorem BackInv.pops (inv : BackInv size s) (positive : 0 < size) (some_left : 0 < s.1.filled) :
    ∃ t, BackRun size s 1 (if s.1.filled - 1 < s.1.maxCapacity / 2 then s.1.filled - 1 else 0) t ∧ BackInv size t ∧
      t.1.filled = s.1.filled - 1 ∧ t.1.maxCapacity =
        if s.1.filled - 1 < s.1.maxCapacity / 2 then s.1.maxCapacity / 2 else s.1.maxCapacity := by
  have room := inv.1.room
  have asks : ∀ capacity ∈ (TankOp.popBack (α := α)).request s.1, CapacityFits size capacity := by
    intro capacity asked
    simp only [TankOp.request] at asked
    split at asked
    · cases asked
      obtain ⟨xs, holds⟩ := inv.2
      have fits := holds.fits
      have less : s.1.maxCapacity / 2 * size ≤ s.1.maxCapacity * size :=
        Nat.mul_le_mul_right _ (Nat.div_le_self _ _)
      exact ⟨by have := fits.1; omega, by have := fits.2; omega⟩
    · cases asked
  have back : (TankOp.popBack (α := α)).atBack s.1 = true := decide_eq_true some_left
  obtain ⟨answer, t, step, inv', run⟩ := inv.goesOn positive back asks fun absent =>
    absurd absent (inv.block (by omega))
  obtain ⟨filled, capacity⟩ := tank_popped step
  exact ⟨t, run, inv', filled, capacity⟩

/-- Pushes up to the capacity. -/
theorem BackInv.fills (inv : BackInv size s) (positive : 0 < size) (item : α) (some_ : 0 < s.1.maxCapacity) :
    ∃ t, BackRun size s (s.1.maxCapacity - s.1.filled) 0 t ∧ BackInv size t ∧ t.1.filled = s.1.maxCapacity ∧
      t.1.maxCapacity = s.1.maxCapacity := by
  induction left : s.1.maxCapacity - s.1.filled generalizing s with
  | zero =>
    have room := inv.1.room
    exact ⟨s, ⟨[], rfl, rfl, Nat.zero_le _⟩, inv, by omega, rfl⟩
  | succ left ih =>
    have places : ¬s.1.maxCapacity ≤ s.1.filled := by omega
    obtain ⟨t, first, inv', filled, capacity⟩ :=
      inv.pushes positive item (fun full => absurd full places) fun absent => absurd absent (inv.block some_)
    rw [if_neg places] at capacity
    obtain ⟨u, rest, inv'', full, same⟩ := ih inv' (by omega) (by omega)
    refine ⟨u, ?_, inv'', by omega, by omega⟩
    rw [Nat.add_comm]
    exact (first.trans rest).mono (Nat.zero_le _)

/-- A full tank of capacity `m`. -/
structure FullTank (size m : Nat) (s : Tank × TankHeap α) : Prop where
  inv : BackInv size s
  filled : s.1.filled = m
  capacity : s.1.maxCapacity = m

/-- Four calls bring a full tank back to where it was, and nearly all its elements are carried over twice. -/
theorem FullTank.cycle (full : FullTank size m s) (positive : 0 < size) (item : α) (some_ : 0 < m)
    (fits : CapacityFits size (2 * m)) :
    ∃ t, BackRun size s 4 (2 * m - 1) t ∧ FullTank size m t := by
  obtain ⟨inv, filled, capacity⟩ := full
  obtain ⟨s₁, push, inv₁, filled₁, capacity₁⟩ := inv.pushes positive item
    (fun _ => by rw [capacity, if_pos some_]; exact fits) fun absent => absurd absent (inv.block (by omega))
  rw [if_pos (by omega), if_pos (by omega)] at capacity₁
  obtain ⟨s₂, pop, inv₂, filled₂, capacity₂⟩ := inv₁.pops positive (by omega)
  rw [if_neg (by omega)] at capacity₂
  obtain ⟨s₃, pop', inv₃, filled₃, capacity₃⟩ := inv₂.pops positive (by omega)
  rw [if_pos (by omega)] at capacity₃
  obtain ⟨s₄, push', inv₄, filled₄, capacity₄⟩ := inv₃.pushes positive item (fun full => by omega)
    fun absent => absurd absent (inv₃.block (by omega))
  rw [if_neg (by omega)] at capacity₄
  refine ⟨s₄, (((push.trans pop).trans pop').trans push').mono ?_, inv₄, by omega, by omega⟩
  rw [if_pos (by omega), if_pos (show s₂.1.filled - 1 < s₂.1.maxCapacity / 2 by omega)]
  omega

theorem FullTank.cycles (full : FullTank size m s) (positive : 0 < size) (item : α) (some_ : 0 < m)
    (fits : CapacityFits size (2 * m)) (rounds : Nat) :
    ∃ t, BackRun size s (4 * rounds) (rounds * (2 * m - 1)) t ∧ FullTank size m t := by
  induction rounds with
  | zero => exact ⟨s, ⟨[], rfl, rfl, by simp⟩, full⟩
  | succ rounds ih =>
    obtain ⟨t, run, full'⟩ := ih
    obtain ⟨u, cycle, full''⟩ := full'.cycle positive item some_ fits
    refine ⟨u, ?_, full''⟩
    have costs : (rounds + 1) * (2 * m - 1) = rounds * (2 * m - 1) + (2 * m - 1) := Nat.succ_mul rounds _
    rw [Nat.mul_succ, costs]
    exact run.trans cycle

/-- As many pushes as a power of two fill a tank. -/
theorem BackInv.full (inv : BackInv size s) (positive : 0 < size) (item : α) (empty : s.1.filled = 0)
    (none_ : s.1.maxCapacity = 0) (free : ∃ q, s.2 q = none) (k : Nat) (fits : CapacityFits size (2 ^ k)) :
    ∃ t, BackRun size s (2 ^ k) 0 t ∧ FullTank size (2 ^ k) t := by
  induction k with
  | zero =>
    obtain ⟨t, push, inv', filled, capacity⟩ := inv.pushes positive item (fun _ => by simpa [none_] using fits)
      fun _ => free
    rw [if_pos (by omega), if_neg (by omega)] at capacity
    exact ⟨t, push.mono (Nat.zero_le _), inv', by omega, capacity⟩
  | succ k ih =>
    have double : 2 ^ (k + 1) = 2 * 2 ^ k := by rw [Nat.pow_succ, Nat.mul_comm]
    have some_ : 0 < 2 ^ k := Nat.two_pow_pos k
    have less : 2 ^ k * size ≤ 2 ^ (k + 1) * size := Nat.mul_le_mul_right _ (by omega)
    obtain ⟨t, run, inv₁, filled, capacity⟩ := ih ⟨by have := fits.1; omega, by have := fits.2; omega⟩
    obtain ⟨u, push, inv₂, filled₂, capacity₂⟩ := inv₁.pushes positive item
      (fun _ => by rw [capacity, if_pos some_, ← double]; exact fits) fun absent =>
        absurd absent (inv₁.block (by omega))
    rw [if_pos (by omega), if_pos (by omega)] at capacity₂
    obtain ⟨v, rest, inv₃, filled₃, capacity₃⟩ := inv₂.fills positive item (by omega)
    refine ⟨v, ?_, inv₃, by omega, by omega⟩
    have count : 2 ^ (k + 1) = 2 ^ k + 1 + (u.1.maxCapacity - u.1.filled) := by omega
    rw [count]
    exact ((run.trans push).trans rest).mono (Nat.zero_le _)

end Thrashing

theorem Emptied.empty {size : Nat} {s : Tank × TankHeap α} (emptied : Emptied size s) :
    s.1.filled = 0 ∧ s.1.maxCapacity = 0 := by
  cases emptied with
  | created _ created =>
    obtain ⟨_, _, created⟩ := bind_ok created
    obtain ⟨_, _, created⟩ := bind_ok created
    cases created
    exact ⟨rfl, rfl⟩
  | freed _ freed =>
    obtain ⟨_, _, freed⟩ := bind_ok freed
    cases freed
    exact ⟨rfl, rfl⟩

/-- No number of elements a call is enough for calls of both kinds: on a tank of any capacity whose double fits into
memory, four calls can carry nearly twice as many elements as it holds, as often as one likes. -/
theorem tank_thrashes {size : Nat} {start : Tank × TankHeap α} (positive : 0 < size) (emptied : Emptied size start)
    (free : ∃ q, start.2 q = none) (item : α) (k : Nat) (fits : CapacityFits size (2 ^ (k + 1))) (rounds : Nat) :
    ∃ calls s, (tankSystem α size).execVia (backAllowed size) start calls = some s ∧
      calls.length = 2 ^ k + 4 * rounds ∧ rounds * (2 ^ (k + 1) - 1) ≤ tankCarried size start calls ∧
      s.1.filled = 2 ^ k ∧ s.1.maxCapacity = 2 ^ k := by
  have double : 2 ^ (k + 1) = 2 * 2 ^ k := by rw [Nat.pow_succ, Nat.mul_comm]
  have less : 2 ^ k * size ≤ 2 ^ (k + 1) * size := Nat.mul_le_mul_right _ (by omega)
  have inv : BackInv size start := ⟨emptied.halfUsed, [], emptied.holds positive⟩
  obtain ⟨empty, none_⟩ := emptied.empty
  obtain ⟨s, fill, full⟩ := inv.full positive item empty none_ free k
    ⟨by have := fits.1; omega, by have := fits.2; omega⟩
  obtain ⟨t, thrash, full'⟩ := full.cycles positive item (Nat.two_pow_pos k) (double ▸ fits) rounds
  obtain ⟨calls, run, length, costs⟩ := fill.trans thrash
  exact ⟨calls, t, run, length, by rw [double]; omega, full'.filled, full'.capacity⟩

/-- With room for 32 elements 56 calls can carry more than 300 of them. -/
theorem tank_thrashes_sixteen :
    ∃ calls s, (tankSystem Nat 8).execVia (backAllowed 8) (⟨none, 0, 0⟩, fun _ => none) calls = some s ∧
      calls.length = 56 ∧ 310 ≤ tankCarried 8 (⟨none, 0, 0⟩, fun _ => none) calls := by
  have granted : Granted (fun _ => none : TankHeap Nat) none 0 none := rfl
  have emptied : Emptied 8 (⟨none, 0, 0⟩, fun _ => none) := .created granted rfl
  obtain ⟨calls, s, run, length, carried, -⟩ := tank_thrashes (by decide) emptied ⟨0, rfl⟩ 5 4 (by decide) 10
  exact ⟨calls, s, run, length, carried⟩

end PCProject
