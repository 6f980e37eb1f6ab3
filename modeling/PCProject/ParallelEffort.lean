import PCProject.PoolRest
import PCProject.ParallelProduct
import PCProject.TaskRun

namespace PCProject

section SingleProducer
variable {τ Λ μ : Type} {n : Nat}
variable {limits : QueueLimits} {single : Bool} {func : TaskFunc τ Λ μ} {tasks : List τ} {memory : μ}
  {s : PoolState n Unit τ Λ μ}

/-- Nobody can take a step only once WP_join has returned. -/
theorem singleProducer_joined (positive : 0 < n)
    (reach : (poolSystem (singleProducer limits single func tasks memory) n).Reach s)
    (stuck : ¬CanStep (singleProducer limits single func tasks memory) s) : s.joined = n := by
  by_cases gone : ∀ w, s.workers w = .exited
  · obtain ⟨-, stopped⟩ := stuck_exited positive reach stuck gone
    obtain ⟨before, after, added, kills, -⟩ := stopped.completed
    refine stopped.joined ?_
    by_contra more
    have split := pool_script reach
    have left := script_kills positive split more
    have total := congrArg killsOf split
    simp only [added, script, killsOf_append, killsOf_cons, killsOf_tasks, killsOf_kills, TaskWrapper.isKill,
      if_true] at total
    omega
  · obtain ⟨w, here⟩ := not_forall.mp gone
    have waiting := (stuck_workers reach (stuck_created reach stuck) stuck w).resolve_left here
    have none := (stuck_waiting reach stuck waiting).1
    rw [PoolConfig.stops, singleProducer_stops] at none
    cases none

/-- The effort of a program with one producer. -/
theorem singleProducer_effort (n : Nat) (calls : Λ → Nat) :
    3 * n + Fintype.card Unit + ∑ j, ((((singleProducer limits single func tasks memory).programs j).flatMap
        (Request.wrappers n)).map fun tw => tw.handling func calls + Fintype.card Unit + n + 2).sum =
      (tasks.map fun task => calls (func.enter task) + (n + 7)).sum + n * (n + 9) + 1 := by
  have script_ : ((singleProducer limits single func tasks memory).programs ()).flatMap (Request.wrappers n) =
      script n tasks := script_program n tasks
  have each : tasks.map ((fun tw : TaskWrapper τ => tw.handling func calls + 1 + n + 2) ∘ TaskWrapper.exec) =
      tasks.map fun task => calls (func.enter task) + (n + 7) := by
    refine List.map_congr_left fun task _ => ?_
    simp only [Function.comp_apply, TaskWrapper.handling]
    omega
  rw [Fintype.card_unit, Fintype.sum_unique, show (default : Unit) = () from rfl, script_, script, List.map_append,
    List.sum_append, List.map_map, each, List.map_replicate, List.sum_replicate, smul_eq_mul, TaskWrapper.handling]
  ring

end SingleProducer

variable {work : Workload} {op : Operation} {taskChunkSize : Int} {n : Nat}

/-- The cells of the first chunks of a product. -/
theorem Operation.chunk_sum (positive : 1 ≤ taskChunkSize) (above : 0 ≤ op.maxIdx) {m : Nat}
    (within : m ≤ chunkCount taskChunkSize op.maxIdx) :
    (((List.range m).map fun i => ((op.chunk taskChunkSize i).endIdx - (op.chunk taskChunkSize i).startIdx).toNat).sum
      : Int) = min (m * taskChunkSize) op.maxIdx := by
  induction m with
  | zero => simpa using above
  | succ m ih =>
    have inside := (lt_chunkCount positive above m).mp within
    have expand : ((m : Int) + 1) * taskChunkSize = m * taskChunkSize + taskChunkSize := by ring
    rw [List.range_succ, List.map_append, List.sum_append, Nat.cast_add, ih (by omega)]
    simp only [Operation.chunk, List.map_cons, List.map_nil, List.sum_cons, List.sum_nil]
    push_cast
    omega

theorem SubMultiplication.stepsLeft_enter (task : MultiplicationTask) (some_ : task.res.cols ≠ 0) :
    (SubMultiplication.enter task).stepsLeft =
      (task.endIdx - task.startIdx).toNat * (task.op1.cols.toNat + 2) := by
  simp only [SubMultiplication.enter, if_neg some_, SubMultiplication.stepsLeft]

/-- The steps of the handlers on all chunks of a product, with some more for each chunk. -/
theorem Operation.chunks_steps (positive : 1 ≤ taskChunkSize) (shaped : op.Shaped) (more : Nat) :
    ((op.chunks taskChunkSize).map fun task => (SubMultiplication.enter task).stepsLeft + more).sum =
      op.maxIdx.toNat * (op.operandA.cols.toNat + 2) + chunkCount taskChunkSize op.maxIdx * more := by
  have above : 0 ≤ op.maxIdx := by have := shaped.maxIdx_bounds; omega
  have columns : op.product.cols ≠ 0 := by have := shaped.cols_bounds; omega
  have cells := op.chunk_sum positive above (Nat.le_refl _)
  have enough : op.maxIdx ≤ chunkCount taskChunkSize op.maxIdx * taskChunkSize := by
    have last := lt_chunkCount positive above (chunkCount taskChunkSize op.maxIdx)
    omega
  rw [Int.min_eq_right enough] at cells
  have whole : ((List.range (chunkCount taskChunkSize op.maxIdx)).map fun i =>
      ((op.chunk taskChunkSize i).endIdx - (op.chunk taskChunkSize i).startIdx).toNat).sum = op.maxIdx.toNat := by
    omega
  have each (i : Nat) : (SubMultiplication.enter (op.chunk taskChunkSize i)).stepsLeft =
      ((op.chunk taskChunkSize i).endIdx - (op.chunk taskChunkSize i).startIdx).toNat * (op.operandA.cols.toNat + 2) :=
    SubMultiplication.stepsLeft_enter _ columns
  simp only [Operation.chunks, List.map_map, Function.comp_def, each]
  rw [List.sum_map_add, List.sum_map_mul_right, whole, List.map_const', List.sum_replicate, List.length_range,
    smul_eq_mul]

theorem Workload.tasks_steps (work : Workload) (positive : 1 ≤ taskChunkSize) (more : Nat) :
    ((work.tasks taskChunkSize).map fun task => (SubMultiplication.enter task).stepsLeft + more).sum =
      (work.operations.map fun op => op.maxIdx.toNat * (op.operandA.cols.toNat + 2) +
        chunkCount taskChunkSize op.maxIdx * more).sum := by
  rw [Workload.tasks, List.map_flatMap, List.flatMap_def, List.sum_flatten, List.map_map]
  refine congrArg List.sum (List.map_congr_left fun op member => ?_)
  exact Operation.chunks_steps positive (work.shaped op member) more

/-- The handlers of the parallel program return in every run: they are not stopped, and each step leaves fewer. -/
theorem parallel_returns (work : Workload) (limits : QueueLimits) (single : Bool) (positive : 1 ≤ taskChunkSize) :
    (singleProducer limits single subMultiplicationHandler (work.tasks taskChunkSize) work.memory).Returns n
      SubMultiplication.stepsLeft := by
  intro s w task h h' memory' reach here next
  have holds := (productProof work positive).pool (work.tasks_nodup positive) (.start work) reach
  have known := pool_taken_known reach (PoolState.mem_taken (PoolState.running_inflight here))
  obtain ⟨op, member, part⟩ := Workload.part positive known
  obtain ⟨-, running⟩ := (productProof work positive).step task known h s.memory h' memory' holds.shared
    (holds.running w task h here) next
  exact SubMultiplication.stepsLeft_step ((running.2 op member part).unfaulted member) next

theorem parallel_solved {limits : QueueLimits} {single : Bool} {s : PoolState n Unit _ _ _} (positive : 0 < n)
    (chunk : 1 ≤ taskChunkSize)
    (reach : (poolSystem (singleProducer limits single subMultiplicationHandler (work.tasks taskChunkSize) work.memory)
      n).Reach s) (joined : s.joined = n) : Solved work s.memory := by
  have holds := (productProof work chunk).pool (work.tasks_nodup chunk) (.start work) reach
  obtain ⟨-, -, -, -, completed, -⟩ := pool_drained positive reach joined
  refine ⟨holds.shared, fun op member => Workload.computed chunk member fun task inside part => ?_⟩
  exact holds.done task (completed.mem_iff.mpr inside) op member part

/-- Every schedule of the parallel program ends, with the products of the sequential one. The steps that the
threads take are bounded: two for each cell, one for each term of its inner product, a few for each task. -/
theorem parallel_terminates (work : Workload) (limits : QueueLimits) (single : Bool) (positive : 0 < n)
    (chunk : 1 ≤ taskChunkSize ∧ taskChunkSize < 2 ^ 31) :
    ∃ tasks final, requestAll taskChunkSize work.operations = .ok tasks ∧
      multiplyAll work.operations work.memory = .ok final ∧
      ∀ fresh schedule s,
        (poolSystem (singleProducer limits single subMultiplicationHandler tasks work.memory) n).exec
          (.start (singleProducer limits single subMultiplicationHandler tasks work.memory) n fresh) schedule =
            some s →
        schedule.countP (fun action => !action.isWakeup) ≤
          (work.operations.map fun op => op.maxIdx.toNat * (op.operandA.cols.toNat + 2) +
            chunkCount taskChunkSize op.maxIdx * (n + 7)).sum + n * (n + 9) + 1 +
          schedule.countP PoolAction.isWakeup ∧
        (¬CanStep (singleProducer limits single subMultiplicationHandler tasks work.memory) s →
          s.joined = n ∧ s.memory = final) ∧
        ∃ rest t, (poolSystem (singleProducer limits single subMultiplicationHandler tasks work.memory) n).exec s
            rest = some t ∧ (∀ action ∈ rest, action.isWakeup = false) ∧ t.joined = n ∧ t.memory = final := by
  obtain ⟨final, sequential, solved⟩ := multiplyAll_ok work
  refine ⟨work.tasks taskChunkSize, final, requestAll_ok chunk work.shaped, sequential, fun fresh schedule s run => ?_⟩
  have returns : PoolConfig.Returns _ n _ := parallel_returns work limits single chunk.1
  have start : (poolSystem (singleProducer limits single subMultiplicationHandler (work.tasks taskChunkSize)
    work.memory) n).Reach (.start _ n fresh) := .start ⟨fresh, rfl⟩
  have reach := start.exec run
  refine ⟨?_, fun stuck => ?_, ?_⟩
  · have bound := pool_steps_paid returns start run
    have same : (singleProducer limits single subMultiplicationHandler (work.tasks taskChunkSize) work.memory).func =
      subMultiplicationHandler := rfl
    rw [PoolState.effort_start, same, singleProducer_effort] at bound
    have steps : ((work.tasks taskChunkSize).map fun task =>
        (subMultiplicationHandler.enter task).stepsLeft + (n + 7)).sum = _ := work.tasks_steps chunk.1 (n + 7)
    omega
  · have joined := singleProducer_joined positive reach stuck
    exact ⟨joined, (parallel_solved positive chunk.1 reach joined).unique solved⟩
  · obtain ⟨rest, t, later, own, stuck⟩ := pool_rests returns reach
    have joined := singleProducer_joined positive (reach.exec later) stuck
    exact ⟨rest, t, later, own, joined, (parallel_solved positive chunk.1 (reach.exec later) joined).unique solved⟩

/-- Two workers on the two chunks of a product of four cells. -/
theorem parallel_terminates_column_by_row :
    ∃ rest t, (poolSystem (singleProducer .smallest true subMultiplicationHandler columnByRowTasks columnByRow.memory)
        2).exec (.start (singleProducer .smallest true subMultiplicationHandler columnByRowTasks
          columnByRow.memory) 2 0) rest = some t ∧
      t.joined = 2 ∧ multiplyAll columnByRow.operations columnByRow.memory = .ok t.memory := by
  obtain ⟨tasks, final, requested, sequential, ends⟩ :=
    parallel_terminates columnByRow .smallest true (by decide : 0 < 2) (by decide : (1 : Int) ≤ 3 ∧ (3 : Int) < 2 ^ 31)
  have chunks : requestAll 3 columnByRow.operations = .ok columnByRowTasks := rfl
  cases chunks.symm.trans requested
  obtain ⟨-, -, rest, t, run, -, joined, memory⟩ := ends 0 [] _ rfl
  exact ⟨rest, t, run, joined, memory ▸ sequential⟩

end PCProject
