import PCProject.Matrix

namespace PCProject

/-- Operands and product of compatible shapes, in the range that the programs accept. -/
structure Operation.Shaped (op : Operation) : Prop where
  inner : op.operandA.cols = op.operandB.rows
  rows : op.operandA.rows = op.product.rows
  cols : op.operandB.cols = op.product.cols
  rows_bounds : 1 ≤ op.product.rows ∧ op.product.rows < 2 ^ 31
  inner_bounds : 1 ≤ op.operandA.cols ∧ op.operandA.cols < 2 ^ 31
  cols_bounds : 1 ≤ op.product.cols ∧ op.product.cols < 2 ^ 31

/-- The arrays of an operation have the sizes of its matrices. -/
structure Operation.Allocated (op : Operation) (memory : MatrixMemory) : Prop where
  operandA : (memory op.operandA.data).length = op.operandA.rows * op.operandA.cols
  operandB : (memory op.operandB.data).length = op.operandB.rows * op.operandB.cols
  product : (memory op.product.data).length = op.product.rows * op.product.cols

/-- `init_operand` fills an array with values of `random_number`. -/
def Initialised (cells : List Int) : Prop := ∀ value ∈ cells, -5 ≤ value ∧ value ≤ 5

def Operation.arrays (op : Operation) : List Nat := [op.operandA.data, op.operandB.data, op.product.data]

/-- Operations as main sets them up, with the memory before the first multiplication. The
products may hold anything. -/
structure Workload where
  operations : List Operation
  memory : MatrixMemory
  shaped : ∀ op ∈ operations, op.Shaped
  apart : (operations.flatMap Operation.arrays).Nodup
  allocated : ∀ op ∈ operations, op.Allocated memory
  initialised : ∀ op ∈ operations, Initialised (memory op.operandA.data) ∧ Initialised (memory op.operandB.data)

/-- The first `k` terms of the inner product of a row and a column. -/
def Operation.partialSum (op : Operation) (memory : MatrixMemory) (row col : Int) (k : Nat) : Int :=
  ∑ i ∈ Finset.range k, memory.cell op.operandA.data (row * op.operandA.cols + i) *
    memory.cell op.operandB.data (i * op.operandB.cols + col)

/-- The cell of the exact product at some index. -/
def Operation.entry (op : Operation) (memory : MatrixMemory) (idx : Int) : Int :=
  op.partialSum memory (idx / op.product.cols) (idx % op.product.cols) op.operandA.cols.toNat

namespace MatrixMemory
variable {memory : MatrixMemory} {block other : Nat} {idx idx' value : Int}

theorem length_set (block other : Nat) (idx value : Int) :
    (memory.set block idx value other).length = (memory other).length := by
  by_cases same : other = block
  · subst same
    simp [MatrixMemory.set]
  · simp [MatrixMemory.set, same]

theorem set_other (apart : other ≠ block) : memory.set block idx value other = memory other := by
  simp [MatrixMemory.set, apart]

theorem cell_set_self (above : 0 ≤ idx) (below : idx < (memory block).length) :
    (memory.set block idx value).cell block idx = value := by
  have inside : idx.toNat < (memory block).length := by omega
  simp [MatrixMemory.set, cell, inside]

theorem cell_set_ne (above : 0 ≤ idx) (above' : 0 ≤ idx') (apart : other = block → idx' ≠ idx) :
    (memory.set block idx value).cell other idx' = memory.cell other idx' := by
  by_cases same : other = block
  · subst same
    have apart' : idx.toNat ≠ idx'.toNat := by have := apart rfl; omega
    simp [MatrixMemory.set, cell, apart']
  · simp [MatrixMemory.set, cell, same]

theorem cell_initialised (initialised : Initialised (memory block)) (idx : Int) :
    -5 ≤ memory.cell block idx ∧ memory.cell block idx ≤ 5 := by
  unfold cell
  rw [List.getD_eq_getElem?_getD]
  cases found : (memory block)[idx.toNat]? with
  | none => decide
  | some value => exact initialised value (List.mem_of_getElem? found)

end MatrixMemory

theorem Operation.Shaped.valid {op : Operation} (shaped : op.Shaped) : op.invalid = false := by
  simp [Operation.invalid, shaped.inner, shaped.rows, shaped.cols]

theorem checked_ok {value : Int} (low : -2 ^ 63 ≤ value) (high : value < 2 ^ 63) : checked value = .ok value :=
  if_pos ⟨low, high⟩

theorem matrixIdx_ok {row col rows : Int} {m : Matrix} (above : 0 ≤ row) (below : row < rows) (left : 0 ≤ col)
    (right : col < m.cols) (cells : rows * m.cols < 2 ^ 63) : matrixIdx row col m = .ok (row * m.cols + col) := by
  have inside := flat_lt above below left right
  have start : 0 ≤ row * m.cols := Int.mul_nonneg above (by omega)
  unfold matrixIdx
  rw [checked_ok (by omega) (by omega)]
  exact checked_ok (by omega) (by omega)

theorem load_ok {memory : MatrixMemory} {block : Nat} {idx : Int} (above : 0 ≤ idx)
    (below : idx < (memory block).length) : load memory block idx = .ok (memory.cell block idx) :=
  if_pos ⟨above, below⟩

theorem store_ok {memory : MatrixMemory} {block : Nat} {idx value : Int} (above : 0 ≤ idx)
    (below : idx < (memory block).length) : store memory block idx value = .ok (memory.set block idx value) :=
  if_pos ⟨above, below⟩

/-- Memory in which only products have changed since the start of the workload. -/
structure Preserved (work : Workload) (memory : MatrixMemory) : Prop where
  operands : ∀ block, (∀ op ∈ work.operations, block ≠ op.product.data) → memory block = work.memory block
  lengths : ∀ block, (memory block).length = (work.memory block).length

/-- The cells of a product from `lo` to `hi`, the latter excluded, hold the inner products of the operands
in an earlier memory. -/
def Operation.Filled (op : Operation) (before : MatrixMemory) (lo hi : Int) (memory : MatrixMemory) : Prop :=
  ∀ idx, lo ≤ idx → idx < hi → memory.cell op.product.data idx = op.entry before idx

/-- The cells of a product from `lo` to `hi`, the latter excluded, hold the exact product. -/
def Computed (work : Workload) (op : Operation) (lo hi : Int) (memory : MatrixMemory) : Prop :=
  op.Filled work.memory lo hi memory

namespace Workload
variable {work : Workload} {op other : Operation}

theorem disjoint (member : op ∈ work.operations) (member' : other ∈ work.operations) (apart : op ≠ other) :
    List.Disjoint op.arrays other.arrays := by
  have symmetric : Std.Symm (Function.onFun List.Disjoint Operation.arrays) := ⟨fun _ _ disjoint => disjoint.symm⟩
  exact (List.nodup_flatMap.mp work.apart).2.forall member member' apart

/-- No operand shares its array with a product. -/
theorem operand_apart (member : op ∈ work.operations) (member' : other ∈ work.operations) :
    op.operandA.data ≠ other.product.data ∧ op.operandB.data ≠ other.product.data := by
  by_cases same : op = other
  · subst same
    have own := (List.nodup_flatMap.mp work.apart).1 op member
    simp only [Operation.arrays, List.nodup_cons, List.mem_cons, List.not_mem_nil, or_false, not_or] at own
    exact ⟨own.1.2, own.2.1⟩
  · have disjoint := work.disjoint member member' same
    have product : other.product.data ∈ other.arrays := by simp [Operation.arrays]
    constructor
    · exact fun equal => disjoint (by simp [Operation.arrays, ← equal]) product
    · exact fun equal => disjoint (by simp [Operation.arrays, ← equal]) product

/-- The array of a product determines its operation. -/
theorem product_unique (member : op ∈ work.operations) (member' : other ∈ work.operations)
    (same : op.product.data = other.product.data) : op = other := by
  by_contra apart
  exact work.disjoint member member' apart (by simp [Operation.arrays] : op.product.data ∈ op.arrays)
    (by simp [Operation.arrays, same])

theorem operations_nodup (work : Workload) : work.operations.Nodup := by
  have pairwise := (List.nodup_flatMap.mp work.apart).2
  refine pairwise.imp ?_
  intro op other disjoint same
  subst same
  exact disjoint (by simp [Operation.arrays] : op.product.data ∈ op.arrays) (by simp [Operation.arrays])

end Workload

theorem Preserved.start (work : Workload) : Preserved work work.memory := ⟨fun _ _ => rfl, fun _ => rfl⟩

section Writes
variable {work : Workload} {op : Operation} {memory : MatrixMemory} {lo hi idx value : Int}

theorem Preserved.operandA (preserved : Preserved work memory) (member : op ∈ work.operations) :
    memory op.operandA.data = work.memory op.operandA.data :=
  preserved.operands _ fun _ member' => (Workload.operand_apart member member').1

theorem Preserved.operandB (preserved : Preserved work memory) (member : op ∈ work.operations) :
    memory op.operandB.data = work.memory op.operandB.data :=
  preserved.operands _ fun _ member' => (Workload.operand_apart member member').2

theorem Preserved.product_length (preserved : Preserved work memory) (member : op ∈ work.operations) :
    (memory op.product.data).length = op.product.rows * op.product.cols := by
  rw [preserved.lengths]
  exact (work.allocated op member).product

theorem Preserved.set (preserved : Preserved work memory) (member : op ∈ work.operations) (idx value : Int) :
    Preserved work (memory.set op.product.data idx value) where
  operands block outside := by
    rw [MatrixMemory.set_other (outside op member)]
    exact preserved.operands block outside
  lengths block := by rw [MatrixMemory.length_set, preserved.lengths]

theorem Operation.Filled.empty (op : Operation) (before : MatrixMemory) (lo : Int) (memory : MatrixMemory) :
    op.Filled before lo lo memory := by
  intro idx first last
  omega

/-- A write outside the range keeps the cells of the range. -/
theorem Operation.Filled.set {before : MatrixMemory} (filled : op.Filled before lo hi memory) (low : 0 ≤ lo)
    {block : Nat} (above : 0 ≤ idx) (outside : op.product.data = block → idx < lo ∨ hi ≤ idx) :
    op.Filled before lo hi (memory.set block idx value) := by
  intro cell first last
  rw [MatrixMemory.cell_set_ne above (by omega)]
  · exact filled cell first last
  · intro same
    have := outside same
    omega

/-- One more cell. -/
theorem Operation.Filled.next {before : MatrixMemory} (filled : op.Filled before lo hi memory)
    (cell : memory.cell op.product.data hi = op.entry before hi) : op.Filled before lo (hi + 1) memory := by
  intro idx first last
  rcases Int.lt_or_eq_of_le (Int.lt_add_one_iff.mp last) with before | here
  · exact filled idx first before
  · rw [here, cell]

theorem product_bound {x y : Int} (left : -5 ≤ x ∧ x ≤ 5) (right : -5 ≤ y ∧ y ≤ 5) : -25 ≤ x * y ∧ x * y ≤ 25 := by
  have below := mul_nonneg (sub_nonneg.mpr left.2) (sub_nonneg.mpr right.2)
  have above := mul_nonneg (neg_le_iff_add_nonneg.mp left.1) (neg_le_iff_add_nonneg.mp right.1)
  have first := mul_nonneg (sub_nonneg.mpr left.2) (neg_le_iff_add_nonneg.mp right.1)
  have second := mul_nonneg (neg_le_iff_add_nonneg.mp left.1) (sub_nonneg.mpr right.2)
  constructor <;> nlinarith only [below, above, first, second]

/-- The bound under which no partial sum overflows. -/
theorem Operation.partialSum_bound (member : op ∈ work.operations) (row col : Int) (k : Nat) :
    -25 * k ≤ op.partialSum work.memory row col k ∧ op.partialSum work.memory row col k ≤ 25 * k := by
  induction k with
  | zero => simp [Operation.partialSum]
  | succ k ih =>
    have left := MatrixMemory.cell_initialised (work.initialised op member).1 (row * op.operandA.cols + k)
    have right := MatrixMemory.cell_initialised (work.initialised op member).2 (k * op.operandB.cols + col)
    have term := product_bound left right
    have sum := Finset.sum_range_succ (fun i : Nat => work.memory.cell op.operandA.data (row * op.operandA.cols + i) *
      work.memory.cell op.operandB.data (i * op.operandB.cols + col)) k
    unfold Operation.partialSum at ih ⊢
    rw [sum]
    push_cast
    omega

end Writes
end PCProject
