import PCProject.ProductCells

namespace PCProject

/-- One operation on arrays in memory: compatible shapes, arrays of their sizes whose indices are
`long long`s, and a product that shares its array with no operand. -/
structure Operation.Placed (op : Operation) (memory : MatrixMemory) : Prop where
  inner : op.operandA.cols = op.operandB.rows
  rows : op.operandA.rows = op.product.rows
  cols : op.operandB.cols = op.product.cols
  some_row : 1 ≤ op.product.rows
  some_term : 1 ≤ op.operandA.cols
  some_col : 1 ≤ op.product.cols
  allocated : op.Allocated memory
  indexed : ∀ block ∈ op.arrays, (memory block).length < 2 ^ 63
  apart : op.operandA.data ≠ op.product.data ∧ op.operandB.data ≠ op.product.data

/-- Memory in which the arrays of an operation have only changed in the cells of the product. -/
structure Operation.Kept (op : Operation) (before memory : MatrixMemory) : Prop where
  operandA : memory op.operandA.data = before op.operandA.data
  operandB : memory op.operandB.data = before op.operandB.data
  length : (memory op.product.data).length = (before op.product.data).length

/-- The next term of an inner product and the sum with it are `long long`s. -/
def Operation.TermFits (op : Operation) (memory : MatrixMemory) (row col : Int) (k : Nat) : Prop :=
  let term := memory.cell op.operandA.data (row * op.operandA.cols + k) *
    memory.cell op.operandB.data (k * op.operandB.cols + col)
  (-2 ^ 63 ≤ term ∧ term < 2 ^ 63) ∧
    -2 ^ 63 ≤ op.partialSum memory row col (k + 1) ∧ op.partialSum memory row col (k + 1) < 2 ^ 63

variable {op : Operation} {before memory : MatrixMemory} {row col : Int} {k : Nat}

theorem Operation.partialSum_succ (op : Operation) (memory : MatrixMemory) (row col : Int) (k : Nat) :
    op.partialSum memory row col (k + 1) = op.partialSum memory row col k +
      memory.cell op.operandA.data (row * op.operandA.cols + k) *
        memory.cell op.operandB.data (k * op.operandB.cols + col) :=
  Finset.sum_range_succ (fun i : Nat => memory.cell op.operandA.data (row * op.operandA.cols + i) *
    memory.cell op.operandB.data (i * op.operandB.cols + col)) k

theorem Operation.entry_flat (left : 0 ≤ col) (right : col < op.product.cols) :
    op.entry memory (row * op.product.cols + col) = op.partialSum memory row col op.operandA.cols.toNat := by
  unfold entry
  rw [(flat_div left right).1, (flat_div left right).2]

namespace Operation.Placed

/-- The numbers of cells of the three arrays. -/
theorem cells (placed : op.Placed before) :
    op.operandA.rows * op.operandA.cols < 2 ^ 63 ∧ op.operandB.rows * op.operandB.cols < 2 ^ 63 ∧
      op.product.rows * op.product.cols < 2 ^ 63 := by
  have allocated := placed.allocated
  have sizeA := placed.indexed op.operandA.data (by simp [Operation.arrays])
  have sizeB := placed.indexed op.operandB.data (by simp [Operation.arrays])
  have size := placed.indexed op.product.data (by simp [Operation.arrays])
  have := allocated.operandA
  have := allocated.operandB
  have := allocated.product
  omega

/-- The sizes of the product are `long long`s with the cells. -/
theorem sizes (placed : op.Placed before) : op.product.rows < 2 ^ 63 ∧ op.product.cols < 2 ^ 63 := by
  have cells := placed.cells.2.2
  have low := placed.some_row
  have low' := placed.some_col
  have rows : op.product.rows * 1 ≤ op.product.rows * op.product.cols :=
    Int.mul_le_mul_of_nonneg_left low' (by omega)
  have cols : 1 * op.product.cols ≤ op.product.rows * op.product.cols :=
    Int.mul_le_mul_of_nonneg_right low (by omega)
  omega

/-- The index of a cell of the product lies inside its array. -/
theorem inside (placed : op.Placed before) (kept : op.Kept before memory) (above : 0 ≤ row)
    (below : row < op.product.rows) (left : 0 ≤ col) (right : col < op.product.cols) :
    0 ≤ row * op.product.cols + col ∧ row * op.product.cols + col < (memory op.product.data).length := by
  rw [kept.length, placed.allocated.product]
  exact flat_lt above below left right

theorem load_operandA (placed : op.Placed before) (kept : op.Kept before memory) (above : 0 ≤ row)
    (below : row < op.product.rows) (more : k < op.operandA.cols) :
    load memory op.operandA.data (row * op.operandA.cols + k) =
      .ok (before.cell op.operandA.data (row * op.operandA.cols + k)) := by
  have inside := flat_lt above below (Int.natCast_nonneg k) more
  rw [load_ok inside.1]
  · unfold MatrixMemory.cell
    rw [kept.operandA]
  · rw [kept.operandA, placed.allocated.operandA, placed.rows]
    exact inside.2

theorem load_operandB (placed : op.Placed before) (kept : op.Kept before memory) (left : 0 ≤ col)
    (right : col < op.operandB.cols) (more : k < op.operandA.cols) :
    load memory op.operandB.data (k * op.operandB.cols + col) =
      .ok (before.cell op.operandB.data (k * op.operandB.cols + col)) := by
  have inside := flat_lt (Int.natCast_nonneg k) more left right
  rw [load_ok inside.1]
  · unfold MatrixMemory.cell
    rw [kept.operandB]
  · rw [kept.operandB, placed.allocated.operandB, ← placed.inner]
    exact inside.2

/-- The assignment of the inner loop stays inside the arrays, and only its arithmetic can fail. -/
theorem addProduct_cases (placed : op.Placed before) (kept : op.Kept before memory) (above : 0 ≤ row)
    (below : row < op.product.rows) (left : 0 ≤ col) (right : col < op.product.cols) (more : k < op.operandA.cols)
    (sum : memory.cell op.product.data (row * op.product.cols + col) = op.partialSum before row col k) :
    (op.TermFits before row col k →
      addProduct op.operandA op.operandB op.product row col k (row * op.product.cols + col) memory =
        .ok (memory.set op.product.data (row * op.product.cols + col) (op.partialSum before row col (k + 1)))) ∧
    (¬op.TermFits before row col k →
      addProduct op.operandA op.operandB op.product row col k (row * op.product.cols + col) memory =
        .error .overflow) := by
  have right' : col < op.operandB.cols := by rw [placed.cols]; exact right
  have cells := placed.cells
  have atRes := placed.inside kept above below left right
  have idxA : matrixIdx row k op.operandA = .ok (row * op.operandA.cols + k) :=
    matrixIdx_ok above (below.trans_eq placed.rows.symm) (Int.natCast_nonneg k) more cells.1
  have idxB : matrixIdx k col op.operandB = .ok (k * op.operandB.cols + col) :=
    matrixIdx_ok (Int.natCast_nonneg k) (more.trans_eq placed.inner) left right' cells.2.1
  have loadA := placed.load_operandA kept above below more
  have loadB := placed.load_operandB kept left right' more
  have next := op.partialSum_succ before row col k
  unfold addProduct
  simp only [idxA, loadA, idxB, loadB, bind, Except.bind, load_ok atRes.1 atRes.2, sum]
  refine ⟨fun fits => ?_, fun overflow => ?_⟩
  · rw [checked_ok fits.1.1 fits.1.2]
    simp only [← next]
    rw [checked_ok fits.2.1 fits.2.2]
    exact store_ok atRes.1 atRes.2
  · by_cases term : -2 ^ 63 ≤ before.cell op.operandA.data (row * op.operandA.cols + k) *
        before.cell op.operandB.data (k * op.operandB.cols + col) ∧
      before.cell op.operandA.data (row * op.operandA.cols + k) *
        before.cell op.operandB.data (k * op.operandB.cols + col) < 2 ^ 63
    · rw [checked_ok term.1 term.2]
      simp only [← next]
      rw [checked, if_neg fun fits => overflow ⟨term, fits⟩]
    · rw [checked, if_neg term]

end Operation.Placed

namespace Workload
variable {work : Workload}

theorem placed (work : Workload) (member : op ∈ work.operations) : op.Placed work.memory where
  inner := (work.shaped op member).inner
  rows := (work.shaped op member).rows
  cols := (work.shaped op member).cols
  some_row := (work.shaped op member).rows_bounds.1
  some_term := (work.shaped op member).inner_bounds.1
  some_col := (work.shaped op member).cols_bounds.1
  allocated := work.allocated op member
  indexed block array := by
    have shaped := work.shaped op member
    have allocated := work.allocated op member
    have sizeA := cells_bounds shaped.rows_bounds shaped.inner_bounds
    have sizeB := cells_bounds shaped.inner_bounds shaped.cols_bounds
    have size := cells_bounds shaped.rows_bounds shaped.cols_bounds
    rw [← shaped.rows, ← allocated.operandA] at sizeA
    rw [shaped.inner, ← shaped.cols, ← allocated.operandB] at sizeB
    rw [← allocated.product] at size
    simp only [Operation.arrays, List.mem_cons, List.not_mem_nil, or_false] at array
    rcases array with rfl | rfl | rfl
    · omega
    · omega
    · omega
  apart := operand_apart member member

/-- The values of the operands are so small that no inner product overflows. -/
theorem termFits (member : op ∈ work.operations) (more : k < op.operandA.cols) :
    op.TermFits work.memory row col k := by
  have inner_bounds := (work.shaped op member).inner_bounds
  have term := product_bound
    (MatrixMemory.cell_initialised (work.initialised op member).1 (row * op.operandA.cols + k))
    (MatrixMemory.cell_initialised (work.initialised op member).2 (k * op.operandB.cols + col))
  have bound := Operation.partialSum_bound member row col (k + 1)
  push_cast at bound
  exact ⟨by omega, by omega, by omega⟩

end Workload

theorem Preserved.kept {work : Workload} (preserved : Preserved work memory) (member : op ∈ work.operations) :
    op.Kept work.memory memory where
  operandA := preserved.operandA member
  operandB := preserved.operandB member
  length := preserved.lengths _

end PCProject
