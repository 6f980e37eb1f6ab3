import PCProject.RangeProduct
import PCProject.Lib.Transition

namespace PCProject

/-- `sub_multiplication_handler` on its own, from the call on. -/
def handlerRun (task : MultiplicationTask) (before : MatrixMemory) :
    System (SubMultiplication × MatrixMemory) Unit where
  init s := s = (.enter task, before)
  step s _ := s.1.step s.2

/-- Memory in which only cells of a task have changed. -/
structure Operation.Framed (op : Operation) (task : MultiplicationTask) (before memory : MatrixMemory) : Prop where
  others : ∀ block, block ≠ op.product.data → memory block = before block
  length : (memory op.product.data).length = (before op.product.data).length
  cells : ∀ idx, 0 ≤ idx → idx < task.startIdx ∨ task.endIdx ≤ idx →
    memory.cell op.product.data idx = before.cell op.product.data idx

/-- The tests and assignments that the handler has left, if it is not stopped. -/
def SubMultiplication.stepsLeft (h : SubMultiplication) : Nat :=
  match h.point with
  | .outer _ _ idx => (h.task.endIdx - idx).toNat * (h.task.op1.cols.toNat + 2)
  | .inner _ _ idx k => (h.task.endIdx - idx - 1).toNat * (h.task.op1.cols.toNat + 2) + (h.task.op1.cols - k).toNat + 1
  | .faulted _ => 0

variable {op : Operation} {before memory memory' : MatrixMemory} {task : MultiplicationTask} {h h' : SubMultiplication}

theorem Operation.Framed.kept (framed : op.Framed task before memory) (placed : op.Placed before) :
    op.Kept before memory where
  operandA := framed.others _ placed.apart.1
  operandB := framed.others _ placed.apart.2
  length := framed.length

theorem Operation.Framed.write (framed : op.Framed task before memory) (above : 0 ≤ task.startIdx)
    (write : OwnWrite op task memory memory') : op.Framed task before memory' := by
  rcases write with rfl | ⟨idx, value, first, last, rfl⟩
  · exact framed
  · refine ⟨fun block apart => ?_, ?_, fun cell low outside => ?_⟩
    · rw [MatrixMemory.set_other apart, framed.others block apart]
    · rw [MatrixMemory.length_set, framed.length]
    · rw [MatrixMemory.cell_set_ne (above.trans first) low fun _ => by omega, framed.cells cell low outside]

theorem SubMultiplication.stepsLeft_step (running : ∀ fault, h'.point ≠ .faulted fault)
    (next : h.step memory = some (h', memory')) : h'.stepsLeft < h.stepsLeft := by
  obtain ⟨task, point⟩ := h
  cases point with
  | outer row col idx =>
    by_cases more : idx < task.endIdx
    · obtain ⟨rest, left⟩ : ∃ rest, (task.endIdx - idx).toNat = rest + 1 := ⟨(task.endIdx - idx).toNat - 1, by omega⟩
      have same : (task.endIdx - idx - 1).toNat = rest := by omega
      simp only [SubMultiplication.step, if_pos more] at next
      cases written : store memory task.res.data idx 0 with
      | ok memory₁ =>
        simp only [written, write, Option.some.injEq, Prod.mk.injEq] at next
        obtain ⟨rfl, -⟩ := next
        simp only [stepsLeft, left, same, Nat.succ_mul]
        omega
      | error fault =>
        simp only [written, write, Option.some.injEq, Prod.mk.injEq] at next
        obtain ⟨rfl, -⟩ := next
        exact absurd rfl (running fault)
    · simp only [SubMultiplication.step, if_neg more] at next
      cases next
  | inner row col idx k =>
    by_cases more : k < task.op1.cols
    · simp only [SubMultiplication.step, if_pos more] at next
      cases written : addProduct task.op1 task.op2 task.res row col k idx memory with
      | ok memory₁ =>
        simp only [written, write, Option.some.injEq, Prod.mk.injEq] at next
        obtain ⟨rfl, -⟩ := next
        simp only [stepsLeft]
        omega
      | error fault =>
        simp only [written, write, Option.some.injEq, Prod.mk.injEq] at next
        obtain ⟨rfl, -⟩ := next
        exact absurd rfl (running fault)
    · simp only [SubMultiplication.step, if_neg more] at next
      cases found : nextCell task.res row col with
      | ok cell =>
        simp only [found, Option.some.injEq, Prod.mk.injEq] at next
        obtain ⟨rfl, -⟩ := next
        have same : task.endIdx - (idx + 1) = task.endIdx - idx - 1 := by omega
        simp only [stepsLeft, same]
        omega
      | error fault =>
        simp only [found, Option.some.injEq, Prod.mk.injEq] at next
        obtain ⟨rfl, -⟩ := next
        exact absurd rfl (running fault)
  | faulted fault =>
    simp only [SubMultiplication.step, Option.some.injEq, Prod.mk.injEq] at next
    obtain ⟨rfl, -⟩ := next
    exact absurd rfl (running fault)

/-- What holds all along the run. -/
structure TaskState (op : Operation) (task : MultiplicationTask) (before : MatrixMemory)
    (s : SubMultiplication × MatrixMemory) : Prop where
  same : s.1.task = task
  filling : s.1.Filling op before s.2
  framed : op.Framed task before s.2

theorem handlerRun_state (placed : op.Placed before) (range : op.Range task) {s : SubMultiplication × MatrixMemory}
    (reach : (handlerRun task before).Reach s) : TaskState op task before s := by
  refine reach.invariant (fun s initial => ?_) fun s _ s' _ state next => ?_
  · subst initial
    exact ⟨rfl, .enter placed range, fun _ _ => rfl, rfl, fun _ _ _ => rfl⟩
  · obtain ⟨rfl, filling, framed⟩ := state
    obtain ⟨same, filling', write⟩ := filling.step placed (framed.kept placed) range next
    exact ⟨same, filling', framed.write range.start write⟩

/-- On its own the handler computes the cells of its task and leaves all others alone. It accesses no
array outside its bounds: it can only be stopped by an inner product that overflows. -/
theorem task_computes_range (placed : op.Placed before) (range : op.Range task) :
    (∀ h memory, (handlerRun task before).Reach (h, memory) →
      (∀ row col idx, h.point = .outer row col idx →
        idx = row * task.res.cols + col ∧ 0 ≤ col ∧ col < task.res.cols ∧ (idx < task.endIdx → row < task.res.rows)) ∧
      (∀ fault, h.point = .faulted fault → fault = .overflow ∧ ¬op.Exact before task.startIdx task.endIdx) ∧
      op.Framed task before memory ∧
      (h.step memory = none → op.Filled before task.startIdx task.endIdx memory)) ∧
    (op.Exact before task.startIdx task.endIdx →
      ∃ h memory, (handlerRun task before).Reach (h, memory) ∧ h.step memory = none) := by
  refine ⟨fun h memory reach => ?_, fun exact_ => ?_⟩
  · obtain ⟨rfl, filling, framed⟩ := handlerRun_state placed range reach
    refine ⟨fun row col idx here => ?_, fun fault here => ?_, framed, filling.returns⟩
    · rw [SubMultiplication.Filling, here] at filling
      have cursor := filling.1
      rw [range.res]
      exact ⟨cursor.flat.symm, cursor.left, cursor.right, cursor.row_lt range⟩
    · rw [SubMultiplication.Filling, here] at filling
      exact filling
  · have start : (handlerRun task before).Reach (.enter task, before) := .start rfl
    obtain ⟨schedule, ⟨h, memory⟩, run, stuck⟩ := start.ends (fun s => s.1.stepsLeft) fun s a s' reach step => by
      obtain ⟨rfl, filling, -⟩ := handlerRun_state placed range (reach.next step)
      exact SubMultiplication.stepsLeft_step (filling.unfaulted exact_) step
    exact ⟨h, memory, start.exec run, stuck ()⟩

/-- A column times a row, with a task that goes from the end of one row to the start of the next. -/
def twoByTwo : Operation where
  operandA := ⟨2, 1, 0⟩
  operandB := ⟨1, 2, 1⟩
  product := ⟨2, 2, 2⟩

def twoByTwoMemory : MatrixMemory
  | 0 => [2, 3]
  | 1 => [5, 7]
  | 2 => [9, 9, 9, 9]
  | _ => []

def middleTask : MultiplicationTask where
  op1 := twoByTwo.operandA
  op2 := twoByTwo.operandB
  res := twoByTwo.product
  startIdx := 1
  endIdx := 3

theorem task_computes_range_two_by_two :
    ∃ h memory, (handlerRun middleTask twoByTwoMemory).Reach (h, memory) ∧ h.step memory = none ∧
      memory 2 = [9, 14, 15, 9] ∧ twoByTwo.Filled twoByTwoMemory 1 3 memory := by
  have placed : twoByTwo.Placed twoByTwoMemory := by
    refine ⟨by decide, by decide, by decide, by decide, by decide, by decide, ?_, by decide, by decide⟩
    exact ⟨by decide, by decide, by decide⟩
  have range : twoByTwo.Range middleTask := ⟨rfl, rfl, rfl, by decide, by decide, by decide⟩
  have run : (handlerRun middleTask twoByTwoMemory).exec (.enter middleTask, twoByTwoMemory) (List.replicate 6 ()) =
      some _ := rfl
  have reach := System.Reach.exec (.start rfl) run
  exact ⟨_, _, reach, rfl, rfl, ((task_computes_range placed range).1 _ _ reach).2.2.2 rfl⟩

end PCProject
