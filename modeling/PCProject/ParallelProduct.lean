import PCProject.TaskProduct

namespace PCProject
variable {work : Workload} {op : Operation} {memory : MatrixMemory} {taskChunkSize : Int} {n : Nat}

/-- The array of a computed product holds the product of the operands as matrices. -/
theorem Computed.exact (computed : Computed work op 0 (op.product.rows * op.product.cols) memory) (shaped : op.Shaped) :
    unflatten op.product.rows.toNat op.product.cols.toNat (memory op.product.data) =
      unflatten op.product.rows.toNat op.operandA.cols.toNat (work.memory op.operandA.data) *
        unflatten op.operandA.cols.toNat op.product.cols.toNat (work.memory op.operandB.data) := by
  have inner_bounds := shaped.inner_bounds
  have cols_bounds := shaped.cols_bounds
  refine unflatten_eq_mul ?_
  intro i below j right
  have inside := flat_lt (Int.natCast_nonneg i) (by omega : (i : Int) < op.product.rows) (Int.natCast_nonneg j)
    (by omega : (j : Int) < op.product.cols)
  have cell := computed _ inside.1 inside.2
  rw [Operation.entry_flat (Int.natCast_nonneg j) (by omega), MatrixMemory.cell, flat_toNat (by omega)] at cell
  rw [cell, Operation.partialSum]
  refine Finset.sum_congr rfl ?_
  intro k _
  rw [shaped.cols, MatrixMemory.cell, MatrixMemory.cell, flat_toNat (by omega), flat_toNat (by omega)]

/-- The tasks of an operation cover its product. -/
theorem Workload.computed (positive : 1 ≤ taskChunkSize) (member : op ∈ work.operations)
    (done : ∀ task ∈ work.tasks taskChunkSize, op.Part task → Computed work op task.startIdx task.endIdx memory) :
    Computed work op 0 (op.product.rows * op.product.cols) memory := by
  intro idx above below
  rw [Int.mul_comm] at below
  obtain ⟨i, inside, first, last⟩ := op.chunk_covers positive above below
  exact done _ (mem_tasks.mpr ⟨op, member, i, inside, rfl⟩)
    (op.chunk_part positive (work.shaped op member) inside) idx first last

/-- The parallel program leaves every product as the sequential program does, and both are
exact. No schedule of the workers reaches a fault. -/
theorem parallel_equals_sequential (work : Workload) (limits : QueueLimits) (single : Bool) (positive : 0 < n)
    (chunk : 1 ≤ taskChunkSize ∧ taskChunkSize < 2 ^ 31) :
    ∃ tasks final, requestAll taskChunkSize work.operations = .ok tasks ∧
      multiplyAll work.operations work.memory = .ok final ∧
      (∀ op ∈ work.operations,
        (∃ alone, multiply op work.memory = .ok alone ∧ alone op.product.data = final op.product.data) ∧
        unflatten op.product.rows.toNat op.product.cols.toNat (final op.product.data) =
          unflatten op.product.rows.toNat op.operandA.cols.toNat (work.memory op.operandA.data) *
            unflatten op.operandA.cols.toNat op.product.cols.toNat (work.memory op.operandB.data)) ∧
      ∀ s : PoolState n Unit MultiplicationTask SubMultiplication MatrixMemory,
        (poolSystem (singleProducer limits single subMultiplicationHandler tasks work.memory) n).Reach s →
        (∀ w task h fault, s.workers w = .running task h → h.point ≠ .faulted fault) ∧
        (s.joined = n → s.memory = final) := by
  obtain ⟨final, sequential, solved⟩ := multiplyAll_ok work
  refine ⟨work.tasks taskChunkSize, final, requestAll_ok chunk work.shaped, sequential, ?_, ?_⟩
  · intro op member
    obtain ⟨alone, run, multiplied⟩ := multiply_ok (.start work) member
    refine ⟨⟨alone, run, ?_⟩, (solved.computed op member).exact (work.shaped op member)⟩
    exact multiplied.computed.unique member multiplied.preserved solved.preserved (solved.computed op member)
  · intro s reach
    have holds := (productProof work chunk.1).pool (work.tasks_nodup chunk.1) (.start work) reach
    refine ⟨?_, fun joined => ?_⟩
    · intro w task h fault here
      have taken := PoolState.mem_taken (PoolState.running_inflight here)
      obtain ⟨op, member, part⟩ := Workload.part chunk.1 (pool_taken_known reach taken)
      exact ((holds.running w task h here).2 op member part).unfaulted member fault
    · obtain ⟨-, -, -, -, completed, -⟩ := pool_drained positive reach joined
      have parallel : Solved work s.memory := by
        refine ⟨holds.shared, fun op member => ?_⟩
        refine Workload.computed chunk.1 member ?_
        exact fun task inside part => holds.done task (completed.mem_iff.mpr inside) op member part
      exact parallel.unique solved

/-- A column times a row. -/
def columnByRow : Workload where
  operations := [{ operandA := ⟨2, 1, 0⟩, operandB := ⟨1, 2, 1⟩, product := ⟨2, 2, 2⟩ }]
  memory
    | 0 => [2, 3]
    | 1 => [5, -4]
    | 2 => [9, 9, 9, 9]
    | _ => []
  shaped := by
    intro op member
    rw [List.mem_singleton.mp member]
    constructor <;> decide
  apart := by decide
  allocated := by
    intro op member
    rw [List.mem_singleton.mp member]
    constructor <;> decide
  initialised := by
    intro op member
    rw [List.mem_singleton.mp member]
    constructor <;> simp [Initialised]

/-- Its product in chunks of three cells, the last one shorter. -/
def columnByRowTasks : List MultiplicationTask :=
  [{ op1 := ⟨2, 1, 0⟩, op2 := ⟨1, 2, 1⟩, res := ⟨2, 2, 2⟩, startIdx := 0, endIdx := 3 },
    { op1 := ⟨2, 1, 0⟩, op2 := ⟨1, 2, 1⟩, res := ⟨2, 2, 2⟩, startIdx := 3, endIdx := 4 }]

/-- The workers `v` and `w` take turns, the second one with the shorter chunk, while main waits for room in the
queue. -/
def takeTurns {n : Nat} (v w : Fin n) : List (PoolAction n Unit) := List.flatten
  [[.create, .create, .add () ∅ 1, .add () ∅ 1, .get v {()} 1, .add () ∅ 1, .add () ∅ 1, .get w {()} 1, .add () ∅ 1,
    .add () ∅ 1], (List.replicate 7 [.worker v, .worker w]).flatten, [.get w {()} 1, .add () ∅ 1],
    (List.replicate 3 [.worker v, .worker w]).flatten, List.replicate 3 (.worker v), [.get v ∅ 1],
    List.replicate 3 (.worker v), [.join, .join]]

theorem parallel_equals_sequential_column_by_row :
    requestAll 3 columnByRow.operations = .ok columnByRowTasks ∧
      ∃ s : PoolState 2 Unit MultiplicationTask SubMultiplication MatrixMemory, s.joined = 2 ∧
        s.completed.map MultiplicationTask.startIdx = [3, 0] ∧ s.memory 2 = [10, -8, 15, -12] ∧
        multiplyAll columnByRow.operations columnByRow.memory = .ok s.memory := by
  obtain ⟨tasks, final, requested, sequential, -, parallel⟩ :=
    parallel_equals_sequential columnByRow .smallest true (by decide : 0 < 2)
      (by decide : (1 : Int) ≤ 3 ∧ (3 : Int) < 2 ^ 31)
  have chunks : requestAll 3 columnByRow.operations = .ok columnByRowTasks := rfl
  cases chunks.symm.trans requested
  have ends : ((poolSystem (singleProducer .smallest true subMultiplicationHandler columnByRowTasks columnByRow.memory)
      2).exec (.start (singleProducer .smallest true subMultiplicationHandler columnByRowTasks columnByRow.memory) 2 0)
      (takeTurns 0 1)).map (fun s => (s.joined, s.completed.map MultiplicationTask.startIdx, s.memory 2)) =
        some (2, [3, 0], [10, -8, 15, -12]) := by decide +kernel
  obtain ⟨s, run, last⟩ := Option.map_eq_some_iff.mp ends
  simp only [Prod.mk.injEq] at last
  have same := (parallel s (System.Reach.exec (.start ⟨0, rfl⟩) run)).2 last.1
  exact ⟨chunks, s, last.1, last.2.1, last.2.2, same ▸ sequential⟩

end PCProject
