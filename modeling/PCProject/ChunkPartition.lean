import PCProject.ChunkedProduct
import Mathlib.Data.Rat.Floor

namespace PCProject
variable {taskChunkSize cells idx : Int} {op : Operation} {i j : Nat}

theorem chunkCount_ceil (positive : 1 ≤ taskChunkSize) (above : 0 ≤ cells) :
    (chunkCount taskChunkSize cells : Int) = ⌈(cells : ℚ) / taskChunkSize⌉ := by
  have size : (0 : ℚ) < taskChunkSize := by exact_mod_cast positive
  have last := lt_chunkCount positive above (chunkCount taskChunkSize cells)
  refine (Int.ceil_eq_iff.mpr ⟨?_, ?_⟩).symm
  · rw [lt_div_iff₀ size]
    rcases Nat.eq_zero_or_pos (chunkCount taskChunkSize cells) with none | some
    · have below : -taskChunkSize < cells := by omega
      rw [none]
      push_cast
      rw [zero_sub, neg_one_mul]
      exact_mod_cast below
    · have before := (lt_chunkCount positive above (chunkCount taskChunkSize cells - 1)).mp (by omega)
      rw [Nat.cast_pred some] at before
      exact_mod_cast before
  · rw [div_le_iff₀ size]
    have enough : cells ≤ chunkCount taskChunkSize cells * taskChunkSize := by omega
    exact_mod_cast enough

/-- A chunk is not empty, not too long and ends inside the product. -/
theorem Operation.chunk_range (positive : 1 ≤ taskChunkSize) (above : 0 ≤ op.maxIdx)
    (inside : i < chunkCount taskChunkSize op.maxIdx) :
    0 ≤ (op.chunk taskChunkSize i).startIdx ∧
      (op.chunk taskChunkSize i).startIdx < (op.chunk taskChunkSize i).endIdx ∧
      (op.chunk taskChunkSize i).endIdx ≤ op.maxIdx ∧
      (op.chunk taskChunkSize i).endIdx - (op.chunk taskChunkSize i).startIdx ≤ taskChunkSize := by
  have within := (lt_chunkCount positive above i).mp inside
  have start : 0 ≤ (i : Int) * taskChunkSize := Int.mul_nonneg (Int.natCast_nonneg i) (by omega)
  have expand : ((i : Int) + 1) * taskChunkSize = i * taskChunkSize + taskChunkSize := by ring
  simp only [Operation.chunk]
  omega

/-- The next chunk starts where a chunk ends. -/
theorem Operation.chunk_next (positive : 1 ≤ taskChunkSize) (above : 0 ≤ op.maxIdx)
    (inside : i + 1 < chunkCount taskChunkSize op.maxIdx) :
    (op.chunk taskChunkSize i).endIdx = (op.chunk taskChunkSize (i + 1)).startIdx := by
  have within := (lt_chunkCount positive above (i + 1)).mp inside
  simp only [Operation.chunk]
  push_cast at within ⊢
  omega

/-- The last chunk ends with the product. -/
theorem Operation.chunk_last (positive : 1 ≤ taskChunkSize) (above : 0 ≤ op.maxIdx)
    (last : i + 1 = chunkCount taskChunkSize op.maxIdx) : (op.chunk taskChunkSize i).endIdx = op.maxIdx := by
  have outside := mt (lt_chunkCount positive above (i + 1)).mpr (by omega)
  simp only [Operation.chunk]
  push_cast at outside
  omega

/-- A cell of the product belongs to one chunk only. -/
theorem Operation.chunk_unique (positive : 1 ≤ taskChunkSize) (op : Operation)
    (first : (op.chunk taskChunkSize i).startIdx ≤ idx) (last : idx < (op.chunk taskChunkSize i).endIdx)
    (first' : (op.chunk taskChunkSize j).startIdx ≤ idx) (last' : idx < (op.chunk taskChunkSize j).endIdx) : i = j := by
  rcases Nat.lt_trichotomy i j with before | same | after
  · have := op.chunk_order positive before
    omega
  · exact same
  · have := op.chunk_order positive after
    omega

theorem Operation.chunks_getElem? (op : Operation) (taskChunkSize : Int) (i : Nat) :
    (op.chunks taskChunkSize)[i]? =
      if i < chunkCount taskChunkSize op.maxIdx then some (op.chunk taskChunkSize i) else none := by
  unfold Operation.chunks
  rw [List.getElem?_map]
  by_cases inside : i < chunkCount taskChunkSize op.maxIdx
  · rw [List.getElem?_range inside, if_pos inside]
    rfl
  · rw [List.getElem?_eq_none (by simpa using inside), if_neg inside]
    rfl

/-- Consecutive tasks that split some cells between them. -/
structure Partitions (taskChunkSize maxIdx : Int) (tasks : List MultiplicationTask) : Prop where
  range : ∀ task ∈ tasks, 0 ≤ task.startIdx ∧ task.startIdx < task.endIdx ∧ task.endIdx ≤ maxIdx ∧
    task.endIdx - task.startIdx ≤ taskChunkSize
  consecutive : tasks.IsChain fun (task next : MultiplicationTask) => task.endIdx = next.startIdx
  first : tasks.head?.map MultiplicationTask.startIdx = some 0
  last : tasks.getLast?.map MultiplicationTask.endIdx = some maxIdx
  unique : ∀ idx, 0 ≤ idx → idx < maxIdx →
    ∃! i : Nat, ∃ task : MultiplicationTask, tasks[i]? = some task ∧ task.startIdx ≤ idx ∧ idx < task.endIdx

theorem Operation.chunks_partition (positive : 1 ≤ taskChunkSize) (some_ : 1 ≤ op.maxIdx) :
    Partitions taskChunkSize op.maxIdx (op.chunks taskChunkSize) := by
  have above : 0 ≤ op.maxIdx := by omega
  have one : 0 < chunkCount taskChunkSize op.maxIdx := (lt_chunkCount positive above 0).mpr (by omega)
  refine ⟨fun task member => ?_, ?_, ?_, ?_, fun idx low high => ?_⟩
  · obtain ⟨i, inside, rfl⟩ := List.mem_map.mp member
    exact op.chunk_range positive above (List.mem_range.mp inside)
  · refine (List.isChain_map _).mpr ((List.isChain_range _ _).mpr fun i inside => ?_)
    exact op.chunk_next positive above (by omega)
  · rw [List.head?_eq_getElem?, op.chunks_getElem?, if_pos one]
    exact congrArg some (Int.zero_mul taskChunkSize)
  · have length : (op.chunks taskChunkSize).length = chunkCount taskChunkSize op.maxIdx := by simp [Operation.chunks]
    rw [List.getLast?_eq_getElem?, length, op.chunks_getElem?, if_pos (by omega)]
    exact congrArg some (op.chunk_last positive above (by omega))
  · obtain ⟨i, inside, first, last⟩ := op.chunk_covers positive low high
    refine ⟨i, ⟨_, by rw [op.chunks_getElem?, if_pos inside], first, last⟩, ?_⟩
    rintro j ⟨task, found, first', last'⟩
    rw [op.chunks_getElem?] at found
    split at found
    · cases found
      exact op.chunk_unique positive first' last' first last
    · cases found

theorem checked_valid (value : Int) : checked value ≠ .error .invalidDimension := by
  unfold checked
  split <;> simp

theorem matrixIdx_valid (row col : Int) (m : Matrix) : matrixIdx row col m ≠ .error .invalidDimension :=
  bind_ne_error (checked_valid _) fun _ => checked_valid _

theorem load_valid (memory : MatrixMemory) (block : Nat) (idx : Int) :
    load memory block idx ≠ .error .invalidDimension := by
  unfold load
  split <;> simp

theorem store_valid (memory : MatrixMemory) (block : Nat) (idx value : Int) :
    store memory block idx value ≠ .error .invalidDimension := by
  unfold store
  split <;> simp

theorem addProduct_valid (a b res : Matrix) (row col k idx : Int) (memory : MatrixMemory) :
    addProduct a b res row col k idx memory ≠ .error .invalidDimension := by
  refine bind_ne_error (matrixIdx_valid _ _ _) fun _ => bind_ne_error (load_valid _ _ _) fun _ => ?_
  refine bind_ne_error (matrixIdx_valid _ _ _) fun _ => bind_ne_error (load_valid _ _ _) fun _ => ?_
  refine bind_ne_error (checked_valid _) fun _ => bind_ne_error (load_valid _ _ _) fun _ => ?_
  exact bind_ne_error (checked_valid _) fun _ => store_valid _ _ _ _

/-- Only the check at the start of `multiply` stops with the message about the dimensions. -/
theorem multiply_invalid_iff (op : Operation) (memory : MatrixMemory) :
    multiply op memory = .error .invalidDimension ↔ op.invalid = true := by
  unfold multiply
  cases op.invalid with
  | true => simp
  | false =>
    refine iff_of_false (forRange_ne_error (fun row memory => forRange_ne_error (fun col memory => ?_) memory) memory)
      Bool.false_ne_true
    refine bind_ne_error (matrixIdx_valid _ _ _) fun _ => bind_ne_error (store_valid _ _ _ _) fun _ => ?_
    refine forRange_ne_error (fun k memory => ?_) _
    exact bind_ne_error (matrixIdx_valid _ _ _) fun _ => addProduct_valid _ _ _ _ _ _ _ _

theorem requestChunks_valid (taskChunkSize maxIdx : Int) (op : Operation) (rounds : Nat) (idx : Int) :
    requestChunks taskChunkSize maxIdx op rounds idx ≠ .error .invalidDimension := by
  induction rounds generalizing idx with
  | zero =>
    unfold requestChunks
    split <;> simp
  | succ rounds ih =>
    unfold requestChunks
    split
    · refine bind_ne_error (checked_valid _) fun _ => bind_ne_error (checked_valid _) fun _ => ?_
      exact bind_ne_error (ih _) fun _ => by simp
    · simp

theorem requestMultiplication_invalid_iff (taskChunkSize : Int) (op : Operation) :
    requestMultiplication taskChunkSize op = .error .invalidDimension ↔ op.invalid = true := by
  unfold requestMultiplication
  cases op.invalid with
  | true => simp
  | false =>
    exact iff_of_false (bind_ne_error (checked_valid _) fun _ => requestChunks_valid _ _ _ _ _) Bool.false_ne_true

/-- The tasks of a multiplication of compatible shapes partition its product. For other shapes
`request_multiplication` exits before its loop, and on exactly these `multiply` exits too. -/
theorem chunks_partition_product (chunk : 1 ≤ taskChunkSize ∧ taskChunkSize < 2 ^ 31) (op : Operation) :
    (op.invalid = false → 1 ≤ op.product.rows ∧ op.product.rows < 2 ^ 31 →
      1 ≤ op.product.cols ∧ op.product.cols < 2 ^ 31 →
      ∃ tasks, requestMultiplication taskChunkSize op = .ok tasks ∧
        (tasks.length : Int) = ⌈((op.product.rows * op.product.cols : Int) : ℚ) / taskChunkSize⌉ ∧
        (∀ task ∈ tasks, task.op1 = op.operandA ∧ task.op2 = op.operandB ∧ task.res = op.product) ∧
        Partitions taskChunkSize (op.product.rows * op.product.cols) tasks) ∧
      (op.invalid = true → requestMultiplication taskChunkSize op = .error .invalidDimension) ∧
      ∀ memory, requestMultiplication taskChunkSize op = .error .invalidDimension ↔
        multiply op memory = .error .invalidDimension := by
  refine ⟨fun valid rows cols => ?_, (requestMultiplication_invalid_iff taskChunkSize op).mpr, fun memory => ?_⟩
  · have bounds : 1 ≤ op.maxIdx ∧ op.maxIdx < 2 ^ 62 := cells_bounds cols rows
    have size : op.product.rows * op.product.cols = op.maxIdx := Int.mul_comm ..
    rw [size]
    refine ⟨op.chunks taskChunkSize, requestMultiplication_ok chunk valid bounds, ?_, ?_, ?_⟩
    · rw [← chunkCount_ceil chunk.1 (by omega), Operation.chunks, List.length_map, List.length_range]
    · intro task member
      obtain ⟨i, -, rfl⟩ := List.mem_map.mp member
      exact ⟨rfl, rfl, rfl⟩
    · exact op.chunks_partition chunk.1 bounds.1
  · rw [requestMultiplication_invalid_iff, multiply_invalid_iff]

/-- A column and a row, whose product has one row of three cells. -/
def oneRow : Operation where
  operandA := ⟨1, 1, 0⟩
  operandB := ⟨1, 3, 1⟩
  product := ⟨1, 3, 2⟩

def oneRowTasks : List MultiplicationTask :=
  [⟨oneRow.operandA, oneRow.operandB, oneRow.product, 0, 2⟩, ⟨oneRow.operandA, oneRow.operandB, oneRow.product, 2, 3⟩]

theorem chunks_partition_product_one_row :
    requestMultiplication 2 oneRow = .ok oneRowTasks ∧ Partitions 2 3 oneRowTasks := by
  obtain ⟨tasks, requested, -, -, partitions⟩ :=
    (chunks_partition_product (by decide : (1 : Int) ≤ 2 ∧ (2 : Int) < 2 ^ 31) oneRow).1 rfl (by decide) (by decide)
  have two : requestMultiplication 2 oneRow = .ok oneRowTasks := rfl
  cases two.symm.trans requested
  exact ⟨two, partitions⟩

end PCProject
