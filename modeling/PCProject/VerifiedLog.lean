import PCProject.InitOperand
import PCProject.ParallelEffort
import PCProject.CheckAnswers

namespace PCProject
variable {work : Workload} {op : Operation} {memory : MatrixMemory}

/-- The entries of the exact product are far from the bounds of a `long long int`. -/
theorem Operation.entry_longLong (member : op ∈ work.operations) (idx : Int) : LongLong (op.entry work.memory idx) := by
  have bound := Operation.partialSum_bound member (idx / op.product.cols) (idx % op.product.cols)
    op.operandA.cols.toNat
  have inner := (work.shaped op member).inner_bounds
  have length : (op.operandA.cols.toNat : Int) = op.operandA.cols := Int.toNat_of_nonneg (by omega)
  rw [length] at bound
  unfold LongLong Operation.entry
  omega

namespace Solved

theorem product_cells (solved : Solved work memory) (member : op ∈ work.operations) :
    ∀ value ∈ memory op.product.data, LongLong value := by
  intro value inside
  obtain ⟨i, below, rfl⟩ := List.mem_iff_getElem.mp inside
  have length := solved.preserved.product_length member
  have cell := solved.computed op member i (Int.natCast_nonneg i) (by omega)
  simp only [MatrixMemory.cell, Int.toNat_natCast, List.getD_eq_getElem?_getD, List.getElem?_eq_getElem below,
    Option.getD_some] at cell
  rw [cell]
  exact Operation.entry_longLong member _

/-- The operands are as they were initialised. -/
theorem operand_cells (solved : Solved work memory) (member : op ∈ work.operations) :
    (∀ value ∈ memory op.operandA.data, LongLong value) ∧ ∀ value ∈ memory op.operandB.data, LongLong value := by
  have small {value : Int} (bounds : -5 ≤ value ∧ value ≤ 5) : LongLong value := by
    unfold LongLong
    omega
  have initialised := work.initialised op member
  rw [solved.preserved.operandA member, solved.preserved.operandB member]
  exact ⟨fun value inside => small (initialised.1 value inside), fun value inside => small (initialised.2 value inside)⟩

/-- What MATRIX_print needs of the matrices of an operation, where the sizes of the arrays are of type `size_t`. -/
theorem stored (solved : Solved work memory) (member : op ∈ work.operations)
    (sizes : ∀ block ∈ op.arrays, 8 * (work.memory block).length < 2 ^ 64) : op.Stored memory := by
  have shaped := work.shaped op member
  have allocated := work.allocated op member
  have rows := shaped.rows_bounds
  have inner := shaped.inner_bounds
  have cols := shaped.cols_bounds
  have lengths := solved.preserved.lengths
  have operands := solved.operand_cells member
  refine ⟨⟨?_, inner.1, ?_, ?_, operands.1⟩, ⟨?_, ?_, ?_, ?_, operands.2⟩,
    ⟨rows.1, cols.1, ?_, ?_, solved.product_cells member⟩, shaped.inner, shaped.rows, shaped.cols⟩
  · rw [shaped.rows]
    exact rows.1
  · rw [lengths, allocated.operandA]
  · rw [lengths]
    exact sizes _ (by simp [Operation.arrays])
  · rw [← shaped.inner]
    exact inner.1
  · rw [shaped.cols]
    exact cols.1
  · rw [lengths, allocated.operandB]
  · rw [lengths]
    exact sizes _ (by simp [Operation.arrays])
  · rw [lengths, allocated.product]
  · rw [lengths]
    exact sizes _ (by simp [Operation.arrays])

theorem isProduct (solved : Solved work memory) (member : op ∈ work.operations) : op.IsProduct memory := by
  unfold Operation.IsProduct
  rw [solved.preserved.operandA member, solved.preserved.operandB member]
  exact (solved.computed op member).exact (work.shaped op member)

theorem fits (solved : Solved work memory) (member : op ∈ work.operations) : op.Fits memory := by
  intro i j
  have product := solved.isProduct member
  unfold Operation.IsProduct at product
  rw [← product, unflatten, Matrix.of_apply, List.getD_eq_getElem?_getD]
  cases found : (memory op.product.data)[(i : Nat) * op.product.cols.toNat + j]? with
  | none => exact ⟨by simp, by simp⟩
  | some value => exact solved.product_cells member value (List.mem_of_getElem? found)

end Solved

/-- The logs of a workload: both programs write the same one, and the script passes it. The parallel program comes to
its log from every state. -/
theorem Workload.log_verified (work : Workload) {taskChunkSize : Int} {n : Nat} (limits : QueueLimits) (single : Bool)
    (positive : 0 < n) (chunk : 1 ≤ taskChunkSize ∧ taskChunkSize < 2 ^ 31)
    (sizes : ∀ op ∈ work.operations, ∀ block ∈ op.arrays, 8 * (work.memory block).length < 2 ^ 64) :
    ∃ tasks final log, requestAll taskChunkSize work.operations = .ok tasks ∧
      multiplyAll work.operations work.memory = .ok final ∧ writeLog work.operations final = .ok log ∧
      (∀ s : PoolState n Unit MultiplicationTask SubMultiplication MatrixMemory,
        (poolSystem (singleProducer limits single subMultiplicationHandler tasks work.memory) n).Reach s →
          (∃ rest t, (poolSystem (singleProducer limits single subMultiplicationHandler tasks work.memory) n).exec s
            rest = some t ∧ t.joined = n) ∧ (s.joined = n → s.memory = final)) ∧
      ∀ fuel, work.operations.length < fuel → ∀ equal, NumpyProduct equal →
        ∃ result, checkAnswers equal fuel (some log) = .ok result ∧ result.code = 0 := by
  obtain ⟨final, sequential, solved⟩ := multiplyAll_ok work
  have stored (op : Operation) (member : op ∈ work.operations) : op.Stored final :=
    solved.stored member (sizes op member)
  refine ⟨work.tasks taskChunkSize, final, unlines (logLines final 0 work.operations), requestAll_ok chunk work.shaped,
    sequential, logOperations_printed [] stored, ?_, ?_⟩
  · intro s reach
    have returns : PoolConfig.Returns _ n _ := parallel_returns work limits single chunk.1
    obtain ⟨rest, t, later, -, stuck⟩ := pool_rests returns reach
    refine ⟨⟨rest, t, later, singleProducer_joined positive (reach.exec later) stuck⟩, fun joined => ?_⟩
    exact (parallel_solved positive chunk.1 reach joined).unique solved
  · intro fuel enough equal numpy
    obtain ⟨result, run, -, right⟩ := checkAnswers_log stored numpy (fun op member => solved.fits member) enough
    exact ⟨result, run, right.mpr fun op member => solved.isProduct member⟩

/-- Arrays keep their sizes. -/
theorem Workload.sizes (work : Workload) {before : MatrixMemory}
    (allocated : ∀ op ∈ work.operations, op.Allocated before)
    (sizes : ∀ op ∈ work.operations, ∀ block ∈ op.arrays, 8 * (before block).length < 2 ^ 64) :
    ∀ op ∈ work.operations, ∀ block ∈ op.arrays, 8 * (work.memory block).length < 2 ^ 64 := by
  intro op member block inside
  have old := allocated op member
  have now := work.allocated op member
  have size := sizes op member block inside
  simp only [Operation.arrays, List.mem_cons, List.not_mem_nil, or_false] at inside
  rcases inside with rfl | rfl | rfl
  · have same := now.operandA.trans old.operandA.symm
    omega
  · have same := now.operandB.trans old.operandB.symm
    omega
  · have same := now.product.trans old.product.symm
    omega

/-- From the random operands to the verdict of the script: both programs write the same log, whatever `rand`
answers and however the threads are scheduled, and the script passes it. -/
theorem logs_pass_check {ops : List Operation} {before : MatrixMemory} {taskChunkSize : Int} {n : Nat}
    (rand : Nat → Nat) (limits : QueueLimits) (single : Bool) (positive : 0 < n)
    (chunk : 1 ≤ taskChunkSize ∧ taskChunkSize < 2 ^ 31) (shaped : ∀ op ∈ ops, op.Shaped)
    (apart : (ops.flatMap Operation.arrays).Nodup) (allocated : ∀ op ∈ ops, op.Allocated before)
    (sizes : ∀ op ∈ ops, ∀ block ∈ op.arrays, 8 * (before block).length < 2 ^ 64) :
    ∃ memory calls tasks final log, initOperands rand ops before = .ok (memory, calls) ∧
      requestAll taskChunkSize ops = .ok tasks ∧ multiplyAll ops memory = .ok final ∧ writeLog ops final = .ok log ∧
      (∀ s : PoolState n Unit MultiplicationTask SubMultiplication MatrixMemory,
        (poolSystem (singleProducer limits single subMultiplicationHandler tasks memory) n).Reach s → s.joined = n →
        writeLog ops s.memory = .ok log) ∧
      ∀ fuel, ops.length < fuel → ∀ equal, NumpyProduct equal →
        ∃ result, checkAnswers equal fuel (some log) = .ok result ∧ result.code = 0 := by
  obtain ⟨work, calls, rfl, init⟩ := exists_workload rand shaped apart allocated
  obtain ⟨tasks, final, log, requested, sequential, written, same, passes⟩ :=
    work.log_verified limits single positive chunk (work.sizes allocated sizes)
  refine ⟨work.memory, calls, tasks, final, log, init, requested, sequential, written, fun s reach joined => ?_, passes⟩
  rw [(same s reach).2 joined, written]

/-- Two workers on the two chunks of a product of four cells. -/
theorem logs_pass_check_column_by_row : ∃ memory calls final log,
    initOperands (fun call => 7 + 5 * call) columnByRow.operations columnByRow.memory = .ok (memory, calls) ∧
      requestAll 3 columnByRow.operations = .ok columnByRowTasks ∧
      multiplyAll columnByRow.operations memory = .ok final ∧ writeLog columnByRow.operations final = .ok log ∧
      (∀ s : PoolState 2 Unit MultiplicationTask SubMultiplication MatrixMemory,
        (poolSystem (singleProducer .smallest true subMultiplicationHandler columnByRowTasks memory) 2).Reach s →
        s.joined = 2 → writeLog columnByRow.operations s.memory = .ok log) ∧
      ∃ result, checkAnswers exactEqual 2 (some log) = .ok result ∧ result.code = 0 := by
  obtain ⟨memory, calls, tasks, final, log, init, requested, sequential, written, parallel, passes⟩ :=
    logs_pass_check (fun call => 7 + 5 * call) .smallest true (by decide : 0 < 2)
      (by decide : (1 : Int) ≤ 3 ∧ (3 : Int) < 2 ^ 31) columnByRow.shaped columnByRow.apart columnByRow.allocated
      (by decide)
  have chunks : requestAll 3 columnByRow.operations = .ok columnByRowTasks := rfl
  cases chunks.symm.trans requested
  exact ⟨memory, calls, final, log, init, requested, sequential, written, parallel,
    passes 2 (by decide) exactEqual exactEqual_numpy⟩

end PCProject
