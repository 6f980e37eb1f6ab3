import PCProject.SubMultiplication
import PCProject.ProductCells

namespace PCProject
variable {taskChunkSize cells : Int} {op other : Operation}

/-- The number of chunks that some cells are split into. -/
def chunkCount (taskChunkSize cells : Int) : Nat := ((cells + taskChunkSize - 1) / taskChunkSize).toNat

def Operation.maxIdx (op : Operation) : Int := op.product.cols * op.product.rows

/-- The tasks of one multiplication, by the number of the chunk. -/
def Operation.chunk (op : Operation) (taskChunkSize : Int) (i : Nat) : MultiplicationTask where
  op1 := op.operandA
  op2 := op.operandB
  res := op.product
  startIdx := i * taskChunkSize
  endIdx := min ((i + 1) * taskChunkSize) op.maxIdx

def Operation.chunks (op : Operation) (taskChunkSize : Int) : List MultiplicationTask :=
  (List.range (chunkCount taskChunkSize op.maxIdx)).map (op.chunk taskChunkSize)

theorem lt_chunkCount (positive : 1 ≤ taskChunkSize) (above : 0 ≤ cells) (i : Nat) :
    i < chunkCount taskChunkSize cells ↔ i * taskChunkSize < cells := by
  have rounded : 0 ≤ (cells + taskChunkSize - 1) / taskChunkSize := Int.ediv_nonneg (by omega) (by omega)
  have division := Int.le_ediv_iff_mul_le (a := i + 1) (b := cells + taskChunkSize - 1) (by omega : 0 < taskChunkSize)
  have expand : ((i : Int) + 1) * taskChunkSize = i * taskChunkSize + taskChunkSize := by ring
  unfold chunkCount
  omega

/-- No more chunks than cells, so the bound on the rounds is never reached. -/
theorem chunkCount_le (positive : 1 ≤ taskChunkSize) (above : 0 ≤ cells) :
    chunkCount taskChunkSize cells ≤ cells.toNat := by
  by_contra more
  have within := (lt_chunkCount positive above cells.toNat).mp (by omega)
  have whole : cells * 1 ≤ cells * taskChunkSize := Int.mul_le_mul_of_nonneg_left positive above
  rw [Int.toNat_of_nonneg above] at within
  omega

/-- The loop of `request_multiplication` from some chunk on. -/
theorem requestChunks_ok (chunk : 1 ≤ taskChunkSize ∧ taskChunkSize < 2 ^ 31) (above : 0 ≤ op.maxIdx)
    (below : op.maxIdx < 2 ^ 62) (rounds i : Nat) (enough : chunkCount taskChunkSize op.maxIdx ≤ i + rounds) :
    requestChunks taskChunkSize op.maxIdx op rounds (i * taskChunkSize) =
      .ok ((List.range' i (chunkCount taskChunkSize op.maxIdx - i)).map (op.chunk taskChunkSize)) := by
  have more := lt_chunkCount chunk.1 above i
  induction rounds generalizing i with
  | zero =>
    have none : chunkCount taskChunkSize op.maxIdx - i = 0 := by omega
    rw [requestChunks, if_neg (by omega), none]
    rfl
  | succ rounds ih =>
    by_cases last : i < chunkCount taskChunkSize op.maxIdx
    · have within := more.mp last
      have next : (i : Int) * taskChunkSize + taskChunkSize = ((i + 1 : Nat) : Int) * taskChunkSize := by
        push_cast; ring
      have start : 0 ≤ (i : Int) * taskChunkSize := Int.mul_nonneg (Int.natCast_nonneg i) (by omega)
      have split : chunkCount taskChunkSize op.maxIdx - i = chunkCount taskChunkSize op.maxIdx - (i + 1) + 1 := by omega
      rw [requestChunks, if_pos within, checked_ok (by omega) (by omega), checked_ok (by omega) (by omega), next]
      simp only [bind, Except.bind]
      rw [ih (i + 1) (by omega) (lt_chunkCount chunk.1 above (i + 1)), split, List.range'_succ]
      have upper : (if taskChunkSize ≤ op.maxIdx - i * taskChunkSize then
        ((i + 1 : Nat) : Int) * taskChunkSize else op.maxIdx) =
          min (((i : Int) + 1) * taskChunkSize) op.maxIdx := by
        have whole : ((i : Int) + 1) * taskChunkSize = i * taskChunkSize + taskChunkSize := by ring
        rw [Nat.cast_succ, whole]
        omega
      rw [upper]
      rfl
    · have none : chunkCount taskChunkSize op.maxIdx - i = 0 := by omega
      rw [requestChunks, if_neg (by omega), none]
      rfl

theorem Operation.Shaped.maxIdx_bounds (shaped : op.Shaped) : 1 ≤ op.maxIdx ∧ op.maxIdx < 2 ^ 62 :=
  cells_bounds shaped.cols_bounds shaped.rows_bounds

/-- `request_multiplication` enqueues all chunks of the product. -/
theorem requestMultiplication_ok (chunk : 1 ≤ taskChunkSize ∧ taskChunkSize < 2 ^ 31) (valid : op.invalid = false)
    (cells : 1 ≤ op.maxIdx ∧ op.maxIdx < 2 ^ 62) :
    requestMultiplication taskChunkSize op = .ok (op.chunks taskChunkSize) := by
  have ⟨low, high⟩ := cells
  have whole : checked (op.product.cols * op.product.rows) = .ok op.maxIdx :=
    checked_ok (show -2 ^ 63 ≤ op.maxIdx by omega) (show op.maxIdx < 2 ^ 63 by omega)
  have loop := requestChunks_ok chunk (by omega) high op.maxIdx.toNat 0 (by
    have := chunkCount_le chunk.1 (by omega : 0 ≤ op.maxIdx)
    omega)
  rw [Nat.cast_zero, Int.zero_mul, Nat.sub_zero, ← List.range_eq_range'] at loop
  simp only [requestMultiplication, valid, whole, bind, Except.bind]
  exact loop

/-- The tasks of all operations, in the order in which main enqueues them. -/
def Workload.tasks (work : Workload) (taskChunkSize : Int) : List MultiplicationTask :=
  work.operations.flatMap fun op => op.chunks taskChunkSize

theorem requestAll_ok (chunk : 1 ≤ taskChunkSize ∧ taskChunkSize < 2 ^ 31) {ops : List Operation}
    (shaped : ∀ op ∈ ops, op.Shaped) :
    requestAll taskChunkSize ops = .ok (ops.flatMap fun op => op.chunks taskChunkSize) := by
  induction ops with
  | nil => rfl
  | cons op ops ih =>
    have rest := ih fun op later => shaped op (List.mem_cons_of_mem _ later)
    have here := shaped op (List.mem_cons_self ..)
    rw [requestAll, requestMultiplication_ok chunk here.valid here.maxIdx_bounds, rest]
    rfl

/-- A task stands for some cells of the product of an operation. -/
structure Operation.Part (op : Operation) (task : MultiplicationTask) : Prop where
  op1 : task.op1 = op.operandA
  op2 : task.op2 = op.operandB
  res : task.res = op.product
  start : 0 ≤ task.startIdx
  order : task.startIdx < task.endIdx
  upper : task.endIdx ≤ op.product.rows * op.product.cols

theorem Operation.chunk_part (positive : 1 ≤ taskChunkSize) (shaped : op.Shaped) {i : Nat}
    (inside : i < chunkCount taskChunkSize op.maxIdx) : op.Part (op.chunk taskChunkSize i) := by
  have within := (lt_chunkCount positive (by have := shaped.maxIdx_bounds; omega) i).mp inside
  have expand : ((i : Int) + 1) * taskChunkSize = i * taskChunkSize + taskChunkSize := by ring
  refine ⟨rfl, rfl, rfl, Int.mul_nonneg (Int.natCast_nonneg i) (by omega), ?_, ?_⟩
  · simp only [Operation.chunk]
    omega
  · rw [Int.mul_comm]
    exact Int.min_le_right ..

/-- A chunk ends before the next ones start. -/
theorem Operation.chunk_order (positive : 1 ≤ taskChunkSize) (op : Operation) {i j : Nat} (before : i < j) :
    (op.chunk taskChunkSize i).endIdx ≤ (op.chunk taskChunkSize j).startIdx :=
  (Int.min_le_left ..).trans (Int.mul_le_mul_of_nonneg_right (by omega) (by omega))

/-- Every cell of the product belongs to a chunk. -/
theorem Operation.chunk_covers (positive : 1 ≤ taskChunkSize) (op : Operation) {idx : Int} (above : 0 ≤ idx)
    (below : idx < op.maxIdx) :
    ∃ i < chunkCount taskChunkSize op.maxIdx,
      (op.chunk taskChunkSize i).startIdx ≤ idx ∧ idx < (op.chunk taskChunkSize i).endIdx := by
  obtain ⟨i, quotient⟩ := Int.eq_ofNat_of_zero_le (Int.ediv_nonneg above (by omega : 0 ≤ taskChunkSize))
  have lower : (i : Int) * taskChunkSize ≤ idx := by
    rw [← quotient]
    exact Int.ediv_mul_le idx (by omega)
  have upper : idx < ((i : Int) + 1) * taskChunkSize := by
    rw [← quotient]
    exact Int.lt_ediv_add_one_mul_self idx (by omega)
  refine ⟨i, (lt_chunkCount positive (by omega) i).mpr (by omega), lower, ?_⟩
  exact lt_min upper below

namespace Workload
variable {work : Workload} {task other : MultiplicationTask}

theorem mem_tasks : task ∈ work.tasks taskChunkSize ↔
    ∃ op ∈ work.operations, ∃ i < chunkCount taskChunkSize op.maxIdx, op.chunk taskChunkSize i = task := by
  simp [Workload.tasks, Operation.chunks]

theorem part (positive : 1 ≤ taskChunkSize) (member : task ∈ work.tasks taskChunkSize) :
    ∃ op ∈ work.operations, op.Part task := by
  obtain ⟨op, inside, i, within, rfl⟩ := mem_tasks.mp member
  exact ⟨op, inside, op.chunk_part positive (work.shaped op inside) within⟩

/-- Two tasks write to different arrays or to different cells. -/
theorem tasks_apart (positive : 1 ≤ taskChunkSize) (member : task ∈ work.tasks taskChunkSize)
    (member' : other ∈ work.tasks taskChunkSize) (apart : task ≠ other) (same : task.res.data = other.res.data) :
    task.endIdx ≤ other.startIdx ∨ other.endIdx ≤ task.startIdx := by
  obtain ⟨op, inside, i, -, rfl⟩ := mem_tasks.mp member
  obtain ⟨op', inside', j, -, rfl⟩ := mem_tasks.mp member'
  have equal := work.product_unique inside inside' same
  subst equal
  rcases Nat.lt_trichotomy i j with before | here | after
  · exact Or.inl (op.chunk_order positive before)
  · exact absurd (congrArg (op.chunk taskChunkSize) here) apart
  · exact Or.inr (op.chunk_order positive after)

theorem tasks_nodup (positive : 1 ≤ taskChunkSize) (work : Workload) : (work.tasks taskChunkSize).Nodup := by
  refine List.nodup_flatMap.mpr ⟨?_, ?_⟩
  · intro op inside
    refine (List.nodup_map_iff_inj_on List.nodup_range).mpr ?_
    intro i _ j _ same
    have start : (i : Int) * taskChunkSize = j * taskChunkSize := congrArg MultiplicationTask.startIdx same
    exact Int.natCast_inj.mp (Int.eq_of_mul_eq_mul_right (by omega) start)
  · have distinct : work.operations.Pairwise (fun op op' => op.product.data ≠ op'.product.data) := by
      refine work.operations_nodup.imp_of_mem ?_
      intro op op' inside inside' apart same
      exact apart (work.product_unique inside inside' same)
    refine distinct.imp ?_
    intro op op' apart task mine theirs
    obtain ⟨i, -, rfl⟩ := List.mem_map.mp mine
    obtain ⟨j, -, same⟩ := List.mem_map.mp theirs
    exact apart (congrArg (fun task : MultiplicationTask => task.res.data) same.symm)

end Workload
end PCProject
