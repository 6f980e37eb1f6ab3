import PCProject.TankOwnership
import Mathlib.Algebra.BigOperators.Group.List.Basic
import Mathlib.Algebra.Ring.Int.Defs

namespace PCProject
variable {α : Type}

/-- A program with its tanks, in the order of their construction. A tank that has been destroyed is
`none`. -/
structure TankProgram (α : Type) where
  heap : TankHeap α
  tanks : List (Option Tank)

/-- A statement of a program, with the answer of the allocator to the one request it can make. -/
inductive TankStatement (α : Type)
  | construct (capacity : Nat) (answer : Option Nat)
  | call (i : Nat) (op : TankOp α) (answer : Option Nat)
  | accumulate (i : Nat)
  | destroy (i : Nat)

def TankProgram.start : TankProgram α where
  heap := fun _ => none
  tanks := []

def TankProgram.live (s : TankProgram α) (i : Nat) : Option Tank := (s.tanks[i]?).join

/-- It is `none` where there is no such tank. -/
def tankProgramStep [Zero α] [Add α] (size : Nat) (s : TankProgram α) (statement : TankStatement α) :
    Option (Except TankStop (TankReply α × TankProgram α)) :=
  match statement with
  | .construct capacity answer => some do
    let (tank, heap) ← Tank.create size capacity s.heap answer
    return (.nothing, ⟨heap, s.tanks ++ [some tank]⟩)
  | .call i op answer => do
    let tank ← s.live i
    some do
      let (reply, tank, heap) ← op.run size answer tank s.heap
      return (reply, ⟨heap, s.tanks.set i (some tank)⟩)
  | .accumulate i => do
    let tank ← s.live i
    some do
      let (sum, heap) ← PCProject.accumulate tank s.heap
      return (.element sum, { s with heap := heap })
  | .destroy i => do
    let tank ← s.live i
    some do
      let (_, heap) ← tank.freeArray s.heap
      return (.nothing, ⟨heap, s.tanks.set i none⟩)

def tankProgramSystem (α : Type) [Zero α] [Add α] (size : Nat) : System (TankProgram α) (TankStatement α) where
  init s := s = .start
  step s statement := (tankProgramStep size s statement).bind fun outcome => outcome.toOption.map Prod.snd

/-- The documented preconditions of an operation on a tank with `n` elements. -/
def TankOp.Respects (op : TankOp α) (n : Nat) : Prop :=
  match op with
  | .popBack => 0 < n
  | .at index | .subscript index => 0 ≤ index ∧ index < n
  | .resize capacity => n ≤ capacity
  | _ => True

instance (n : Nat) : (op : TankOp α) → Decidable (op.Respects n)
  | .popBack => inferInstanceAs (Decidable (0 < n))
  | .at _ | .subscript _ => inferInstanceAs (Decidable (_ ∧ _))
  | .resize capacity => inferInstanceAs (Decidable (n ≤ capacity))
  | .pushBack _ | .size | .freeArray => .isTrue trivial

/-- The precondition of an operation is what its assertions check. -/
theorem TankOp.onList_respects {op : TankOp α} {xs : List α} (respects : op.Respects xs.length) :
    ∃ reply ys, op.onList xs = .ok (reply, ys) := by
  cases op with
  | pushBack item => exact ⟨_, _, rfl⟩
  | popBack =>
    have nonempty : xs ≠ [] := List.ne_nil_of_length_pos respects
    exact ⟨_, _, by simp only [TankOp.onList, List.getLast?_eq_some_getLast nonempty]; rfl⟩
  | «at» index | subscript index => exact ⟨_, _, dif_pos respects⟩
  | size => exact ⟨_, _, rfl⟩
  | resize capacity => exact ⟨_, _, if_neg (Nat.not_lt.mpr respects)⟩
  | freeArray => exact ⟨_, _, rfl⟩

theorem TankProgram.live_set {s : TankProgram α} {heap : TankHeap α} {i j : Nat} {tank : Tank} {new : Option Tank}
    (live : s.live i = some tank) :
    TankProgram.live ⟨heap, s.tanks.set i new⟩ j = if j = i then new else s.live j := by
  have found := Option.join_eq_some_iff.mp live
  obtain ⟨inside, _⟩ := List.getElem?_eq_some_iff.mp found
  by_cases here : j = i
  · simp [TankProgram.live, here, inside]
  · simp [TankProgram.live, here, Ne.symm here]

theorem TankProgram.live_append {s : TankProgram α} {heap : TankHeap α} {j : Nat} {tank : Tank} :
    TankProgram.live ⟨heap, s.tanks ++ [some tank]⟩ j = if j = s.tanks.length then some tank else s.live j := by
  by_cases here : j = s.tanks.length
  · simp [TankProgram.live, here]
  · by_cases inside : j < s.tanks.length
    · simp [TankProgram.live, here, List.getElem?_append_left inside]
    · have beyond : (s.tanks ++ [some tank])[j]? = none := List.getElem?_eq_none (by simp; omega)
      simp [TankProgram.live, here, beyond, List.getElem?_eq_none (Nat.not_lt.mp inside)]

/-- A statement that keeps to the documentation and is granted the memory it asks for. -/
def TankStatement.Respects (size : Nat) (s : TankProgram α) (statement : TankStatement α) : Prop :=
  match statement with
  | .construct capacity answer => CapacityFits size capacity ∧ Granted s.heap none capacity answer
  | .call i op answer => ∀ tank ∈ s.live i, op.Respects tank.filled ∧ op.Allowed size tank s.heap answer
  | .accumulate _ | .destroy _ => True

instance (size : Nat) (s : TankProgram α) : (statement : TankStatement α) → Decidable (statement.Respects size s)
  | .construct _ _ => inferInstanceAs (Decidable (_ ∧ _))
  | .call i op answer =>
    inferInstanceAs (Decidable (∀ tank ∈ s.live i, op.Respects tank.filled ∧ op.Allowed size tank s.heap answer))
  | .accumulate _ | .destroy _ => .isTrue trivial

/-- The copy that accumulate works on has no block to free. -/
def TankStatement.CopiesNoBlock (s : TankProgram α) (statement : TankStatement α) : Prop :=
  match statement with
  | .accumulate i => ∀ tank ∈ s.live i, tank.data = none
  | _ => True

instance (s : TankProgram α) : (statement : TankStatement α) → Decidable (statement.CopiesNoBlock s)
  | .accumulate i => inferInstanceAs (Decidable (∀ tank ∈ s.live i, tank.data = none))
  | .construct _ _ | .call _ _ _ | .destroy _ => .isTrue trivial

/-- A live tank represents a list, and no other live tank has its block. -/
structure TankProgram.Owned (size : Nat) (s : TankProgram α) : Prop where
  holds : ∀ i tank, s.live i = some tank → ∃ xs, tank.Holds size s.heap xs
  apart : ∀ i j t u p, s.live i = some t → s.live j = some u → t.data = some p → u.data = some p → i = j

/-- One tank moves and the others stay. -/
theorem TankProgram.Owned.move {size i : Nat} {s s' : TankProgram α} {tank tank' : Tank} (owned : s.Owned size)
    (others : ∀ j, j ≠ i → s'.live j = s.live j) (moved : TankMove tank s.heap tank' s'.heap)
    (mine : ∀ p j u, tank.data = some p → s.live j = some u → u.data = some p → j = i)
    (new : ∀ t, s'.live i = some t → t = tank' ∧ ∃ xs, t.Holds size s'.heap xs) : s'.Owned size := by
  have foreign : ∀ j u p, j ≠ i → s.live j = some u → u.data = some p → s'.heap p = s.heap p ∧ tank'.data ≠ some p := by
    intro j u p other live pointer
    obtain ⟨xs, holds⟩ := owned.holds j u live
    have used := holds.used pointer
    have away : tank.data ≠ some p := fun own => other (mine p j u own live pointer)
    exact ⟨moved.frame p away used, fun own => (moved.pointer p own).elim away used⟩
  refine ⟨fun j u live => ?_, fun j k u v p left right atLeft atRight => ?_⟩
  · by_cases here : j = i
    · exact (new u (here ▸ live)).2
    · rw [others j here] at live
      obtain ⟨xs, holds⟩ := owned.holds j u live
      exact ⟨xs, holds.frame fun p pointer => (foreign j u p here live pointer).1⟩
  · by_cases first : j = i
    · by_cases second : k = i
      · exact first.trans second.symm
      · rw [others k second] at right
        have own := (new u (first ▸ left)).1 ▸ atLeft
        exact absurd own (foreign k v p second right atRight).2
    · rw [others j first] at left
      by_cases second : k = i
      · have own := (new v (second ▸ right)).1 ▸ atRight
        exact absurd own (foreign j u p first left atLeft).2
      · rw [others k second] at right
        exact owned.apart j k u v p left right atLeft atRight

theorem Tank.Holds.freed {size : Nat} {tank : Tank} {heap : TankHeap α} {xs : List α}
    (holds : tank.Holds size heap xs) :
    tankFree heap tank.data = .ok (tank.data.elim heap heap.free) := by
  cases pointer : tank.data with
  | none => rfl
  | some p =>
    have used := holds.used pointer
    simp only [tankFree, Option.isSome_iff_ne_none.mpr used, if_true, Option.elim_some]

variable [AddMonoid α] {size : Nat}

/-- The sum is right, and the block of the tank is gone with the copy. -/
theorem Tank.Holds.accumulate {tank : Tank} {heap : TankHeap α} {xs : List α} (holds : tank.Holds size heap xs) :
    PCProject.accumulate tank heap = .ok (xs.sum, tank.data.elim heap heap.free) := by
  have room := holds.room
  have small := holds.fits.2
  have filled := holds.filled
  have loop : ∃ sum, forRange 0 (tank.size : Nat) (fun i sum => do return sum + (← tank.subscript heap i)) 0 =
      (.ok sum : Except TankStop α) ∧ sum = (xs.take tank.size).sum := by
    refine forRange_count (I := fun k sum => sum = (xs.take k).sum) (by simp) fun k sum below inv => ?_
    have inside : (0 : Int) ≤ k ∧ (k : Int) < xs.length :=
      ⟨Int.natCast_nonneg k, by rw [Tank.size, filled] at below; omega⟩
    have signed : -2 ^ 63 ≤ (k : Int) ∧ (k : Int) < 2 ^ 63 := ⟨by omega, by omega⟩
    have read := holds.at_index signed
    rw [dif_pos inside] at read
    refine ⟨sum + xs[(k : Int).toNat], by simp only [Tank.subscript, read, bind, Except.bind, pure, Except.pure], ?_⟩
    rw [inv, List.sum_take_succ]
    rfl
  obtain ⟨sum, run, value⟩ := loop
  rw [Tank.size, filled, List.take_length] at value
  rw [PCProject.accumulate, run, value]
  simp only [Tank.freeArray, holds.freed, bind, Except.bind, pure, Except.pure]

namespace TankProgram.Owned
variable {s : TankProgram α}

theorem construct {capacity : Nat} {answer : Option Nat} (owned : s.Owned size) (positive : 0 < size)
    (fits : CapacityFits size capacity) (granted : Granted s.heap none capacity answer) :
    ∃ reply s', tankProgramStep size s (.construct capacity answer) = some (.ok (reply, s')) ∧ s'.Owned size := by
  obtain ⟨tank, heap, created, holds⟩ := Tank.create_holds positive fits granted
  refine ⟨.nothing, ⟨heap, s.tanks ++ [some tank]⟩, ?_, ?_⟩
  · simp only [tankProgramStep, created, bind, Except.bind, pure, Except.pure]
  · refine owned.move (i := s.tanks.length) (fun j other => ?_) (Tank.create_move created) ?_ ?_
    · rw [TankProgram.live_append, if_neg other]
    · intro p j u own
      cases own
    · intro t live
      rw [TankProgram.live_append, if_pos rfl] at live
      cases live
      exact ⟨rfl, [], holds⟩

theorem call {i : Nat} {op : TankOp α} {answer : Option Nat} {tank : Tank} (owned : s.Owned size) (positive : 0 < size)
    (live : s.live i = some tank) (respects : op.Respects tank.filled) (allowed : op.Allowed size tank s.heap answer) :
    ∃ reply s', tankProgramStep size s (.call i op answer) = some (.ok (reply, s')) ∧ s'.Owned size := by
  obtain ⟨xs, holds⟩ := owned.holds i tank live
  obtain ⟨reply, ys, listed⟩ := TankOp.onList_respects (holds.filled ▸ respects)
  have effect := holds.run positive allowed
  rw [listed] at effect
  obtain ⟨tank', heap', ran, after⟩ := effect
  refine ⟨reply, ⟨heap', s.tanks.set i (some tank')⟩, ?_, ?_⟩
  · simp only [tankProgramStep, live, ran, bind, Option.bind, Except.bind, pure, Except.pure]
  · refine owned.move (i := i) (fun j other => ?_) (TankOp.run_move ran) (fun p j u own there same => ?_) ?_
    · rw [TankProgram.live_set live, if_neg other]
    · exact (owned.apart i j tank u p live there own same).symm
    · intro t here
      rw [TankProgram.live_set live, if_pos rfl] at here
      cases here
      exact ⟨rfl, ys, after⟩

theorem destroy {i : Nat} {tank : Tank} (owned : s.Owned size) (live : s.live i = some tank) :
    ∃ reply s', tankProgramStep size s (.destroy i) = some (.ok (reply, s')) ∧ s'.Owned size := by
  obtain ⟨xs, holds⟩ := owned.holds i tank live
  obtain ⟨tank', heap', freed, _⟩ := holds.freeArray
  refine ⟨.nothing, ⟨heap', s.tanks.set i none⟩, ?_, ?_⟩
  · simp only [tankProgramStep, live, freed, bind, Option.bind, Except.bind, pure, Except.pure]
  · refine owned.move (i := i) (fun j other => ?_) (Tank.freeArray_move freed) (fun p j u own there same => ?_) ?_
    · rw [TankProgram.live_set live, if_neg other]
    · exact (owned.apart i j tank u p live there own same).symm
    · intro t here
      rw [TankProgram.live_set live, if_pos rfl] at here
      cases here

theorem accumulate {i : Nat} {tank : Tank} {xs : List α} (live : s.live i = some tank)
    (holds : tank.Holds size s.heap xs) :
    tankProgramStep size s (.accumulate i) =
      some (.ok (.element xs.sum, ⟨tank.data.elim s.heap s.heap.free, s.tanks⟩)) := by
  simp only [tankProgramStep, live, holds.accumulate, bind, Option.bind, Except.bind, pure, Except.pure]

/-- A statement that keeps to the documentation succeeds. It keeps the blocks apart, unless it
copies a tank that has a block. -/
theorem step {statement : TankStatement α} {outcome : Except TankStop (TankReply α × TankProgram α)}
    (owned : s.Owned size) (positive : 0 < size) (respects : statement.Respects size s)
    (step : tankProgramStep size s statement = some outcome) :
    ∃ reply s', outcome = .ok (reply, s') ∧ (statement.CopiesNoBlock s → s'.Owned size) := by
  cases statement with
  | construct capacity answer =>
    obtain ⟨reply, s', ran, after⟩ := owned.construct positive respects.1 respects.2
    exact ⟨reply, s', Option.some.inj (step.symm.trans ran), fun _ => after⟩
  | call i op answer =>
    obtain ⟨tank, live, _⟩ := Option.bind_eq_some_iff.mp step
    obtain ⟨kept, allowed⟩ := respects tank live
    obtain ⟨reply, s', ran, after⟩ := owned.call positive live kept allowed
    exact ⟨reply, s', Option.some.inj (step.symm.trans ran), fun _ => after⟩
  | accumulate i =>
    obtain ⟨tank, live, _⟩ := Option.bind_eq_some_iff.mp step
    obtain ⟨xs, holds⟩ := owned.holds i tank live
    refine ⟨_, _, Option.some.inj (step.symm.trans (accumulate live holds)), fun harmless => ?_⟩
    rw [harmless tank live]
    exact owned
  | destroy i =>
    obtain ⟨tank, live, _⟩ := Option.bind_eq_some_iff.mp step
    obtain ⟨reply, s', ran, after⟩ := owned.destroy live
    exact ⟨reply, s', Option.some.inj (step.symm.trans ran), fun _ => after⟩

end TankProgram.Owned

def tankStatementAllowed (size : Nat) (s : TankProgram α) (statement : TankStatement α) : Bool :=
  decide (statement.Respects size s ∧ statement.CopiesNoBlock s)

theorem tankProgram_owned {s : TankProgram α} (positive : 0 < size)
    (via : (tankProgramSystem α size).ReachVia (tankStatementAllowed size) s) : s.Owned size := by
  refine via.invariant ?_ ?_
  · intro s initial
    cases initial
    exact ⟨fun i tank live => by simp [TankProgram.live, TankProgram.start] at live,
      fun i j t u p live => by simp [TankProgram.live, TankProgram.start] at live⟩
  · intro s statement t owned allowed ran
    obtain ⟨respects, harmless⟩ := of_decide_eq_true allowed
    obtain ⟨outcome, step, result⟩ := Option.bind_eq_some_iff.mp ran
    obtain ⟨reply, s', done, after⟩ := owned.step positive respects step
    rw [done] at result
    cases result
    exact after harmless

/-- After the copy of a tank with a block is gone, the tank itself cannot be destroyed. -/
theorem TankProgram.Owned.destroy_after {s : TankProgram α} {i : Nat} {tank : Tank} (owned : s.Owned size)
    (live : s.live i = some tank) :
    tankProgramStep size ⟨tank.data.elim s.heap s.heap.free, s.tanks⟩ (.destroy i) = some (.error .undefined) ↔
      tank.data ≠ none := by
  constructor
  · intro fails null
    obtain ⟨reply, s', ran, _⟩ := owned.destroy live
    rw [null, Option.elim_none] at fails
    cases Option.some.inj (ran.symm.trans fails)
  · intro block
    obtain ⟨p, pointer⟩ := Option.ne_none_iff_exists'.mp block
    have stale : (⟨s.heap.free p, s.tanks⟩ : TankProgram α).live i = some tank := live
    rw [pointer, Option.elim_some]
    simp only [tankProgramStep, stale, Tank.freeArray, pointer, tankFree, Cells.free_self, bind, Option.bind,
      Except.bind]
    simp

/-- As long as accumulate is only given tanks without a block, every block has one owner, whatever
keeps to the documentation succeeds, and accumulate returns the sum. It leaves the heap alone, and
the tank fit for its destruction, exactly for the tanks without a block. -/
theorem tanks_own_their_blocks {s : TankProgram α} (positive : 0 < size)
    (via : (tankProgramSystem α size).ReachVia (tankStatementAllowed size) s) :
    (∀ i j t u p, s.live i = some t → s.live j = some u → t.data = some p → u.data = some p → i = j) ∧
    (∀ statement, TankStatement.Respects size s statement →
      ∀ stop, tankProgramStep size s statement ≠ some (.error stop)) ∧
    ∀ i tank, s.live i = some tank → ∃ xs heap, tank.Holds size s.heap xs ∧
      tankProgramStep size s (.accumulate i) = some (.ok (.element xs.sum, ⟨heap, s.tanks⟩)) ∧
      (heap = s.heap ↔ tank.data = none) ∧
      (tankProgramStep size ⟨heap, s.tanks⟩ (.destroy i) = some (.error .undefined) ↔ tank.data ≠ none) := by
  have owned := tankProgram_owned positive via
  refine ⟨owned.apart, ?_, ?_⟩
  · intro statement respects stop fails
    obtain ⟨reply, s', ok, _⟩ := owned.step positive respects fails
    cases ok
  · intro i tank live
    obtain ⟨xs, holds⟩ := owned.holds i tank live
    refine ⟨xs, _, holds, TankProgram.Owned.accumulate live holds, ?_, owned.destroy_after live⟩
    cases pointer : tank.data with
    | none => simp
    | some p =>
      have used := holds.used pointer
      simp only [Option.elim_some, reduceCtorEq, iff_false]
      intro same
      exact used ((congrFun same p).symm.trans (Cells.free_self _ _))

/-- Two tanks, of which one has been freed before its elements are added up. -/
def freedTank : List (TankStatement Int) :=
  [.construct 0 none, .construct 2 (some 7), .call 1 (.pushBack 5) none, .call 0 (.pushBack 4) (some 3),
    .call 0 .freeArray none, .accumulate 0]

theorem tanks_own_their_blocks_freed :
    ∃ s, (tankProgramSystem Int 8).execVia (tankStatementAllowed 8) .start freedTank = some s ∧
      ∀ stop, tankProgramStep 8 s (.destroy 1) ≠ some (.error stop) := by
  obtain ⟨s, run⟩ : ∃ s, (tankProgramSystem Int 8).execVia (tankStatementAllowed 8) .start freedTank = some s :=
    ⟨_, rfl⟩
  have via := System.ReachVia.exec (.start rfl) run
  exact ⟨s, run, (tanks_own_their_blocks (by decide) via).2.1 (.destroy 1) trivial⟩

/-- main of `test.cpp`, without the output. -/
def testTank : List (TankStatement Int) :=
  [.construct 0 none, .call 0 (.pushBack 1) (some 1), .call 0 (.at 0) none, .call 0 .popBack none, .call 0 .size none,
    .call 0 (.pushBack 1) none, .call 0 .popBack none, .accumulate 0]

/-- The test ends with a block that is freed twice. -/
theorem testTank_frees_twice :
    ∃ s, (tankProgramSystem Int 8).execVia (fun s statement => decide (statement.Respects 8 s)) .start testTank =
        some s ∧ TankStatement.Respects 8 s (.destroy 0) ∧
      tankProgramStep 8 s (.destroy 0) = some (.error .undefined) :=
  ⟨_, rfl, trivial, rfl⟩

end PCProject
