import PCProject.PlacedProduct

namespace PCProject
variable {work : Workload} {op : Operation} {memory : MatrixMemory} {row col : Int}

/-- The index of a cell of a product lies inside its array. -/
theorem Preserved.inside (preserved : Preserved work memory) (member : op ∈ work.operations) (above : 0 ≤ row)
    (below : row < op.product.rows) (left : 0 ≤ col) (right : col < op.product.cols) :
    0 ≤ row * op.product.cols + col ∧ row * op.product.cols + col < (memory op.product.data).length :=
  (work.placed member).inside (preserved.kept member) above below left right

/-- `multiply` in progress: the cells before `hi` are computed and the other arrays are as they were. -/
structure Multiplied (work : Workload) (op : Operation) (before : MatrixMemory) (hi : Int) (memory : MatrixMemory) :
    Prop where
  preserved : Preserved work memory
  others : ∀ block, block ≠ op.product.data → memory block = before block
  computed : Computed work op 0 hi memory

variable {before : MatrixMemory} {hi value : Int}

theorem Multiplied.set (done : Multiplied work op before hi memory) (member : op ∈ work.operations) (above : 0 ≤ hi)
    (value : Int) : Multiplied work op before hi (memory.set op.product.data hi value) where
  preserved := done.preserved.set member hi value
  others block apart := by
    rw [MatrixMemory.set_other apart]
    exact done.others block apart
  computed := Operation.Filled.set done.computed (Int.le_refl 0) above fun _ => Or.inr (Int.le_refl hi)

/-- The innermost loop has come to some term of the cell at `row` and `col`. -/
structure Multiplied.Summing (work : Workload) (op : Operation) (before : MatrixMemory) (row col k : Int)
    (memory : MatrixMemory) : Prop where
  done : Multiplied work op before (row * op.product.cols + col) memory
  sum : memory.cell op.product.data (row * op.product.cols + col) = op.partialSum work.memory row col k.toNat

theorem Multiplied.Summing.nextTerm {k : Int} (summing : Multiplied.Summing work op before row col k memory)
    (member : op ∈ work.operations) (above : 0 ≤ row) (below : row < op.product.rows) (left : 0 ≤ col)
    (right : col < op.product.cols) (low : 0 ≤ k) (more : k < op.operandA.cols) :
    ∃ memory', multiplyTerm op row col k memory = .ok memory' ∧
      Multiplied.Summing work op before row col (k + 1) memory' := by
  obtain ⟨terms, rfl⟩ := Int.eq_ofNat_of_zero_le low
  have placed := work.placed member
  have inside := summing.done.preserved.inside member above below left right
  have idx : matrixIdx row col op.product = .ok (row * op.product.cols + col) :=
    matrixIdx_ok above below left right (work.placed member).cells.2.2
  refine ⟨_, ?_, summing.done.set member inside.1 _, MatrixMemory.cell_set_self inside.1 inside.2⟩
  simp only [multiplyTerm, idx, bind, Except.bind]
  exact (placed.addProduct_cases (summing.done.preserved.kept member) above below left right more summing.sum).1
    (Workload.termFits member more)

theorem Multiplied.nextCell (done : Multiplied work op before (row * op.product.cols + col) memory)
    (member : op ∈ work.operations) (above : 0 ≤ row) (below : row < op.product.rows) (left : 0 ≤ col)
    (right : col < op.product.cols) :
    ∃ memory', multiplyCell op row col memory = .ok memory' ∧
      Multiplied work op before (row * op.product.cols + (col + 1)) memory' := by
  have shaped := work.shaped op member
  have inner_bounds := shaped.inner_bounds
  have inside := done.preserved.inside member above below left right
  have idx : matrixIdx row col op.product = .ok (row * op.product.cols + col) :=
    matrixIdx_ok above below left right (work.placed member).cells.2.2
  have cleared : Multiplied.Summing work op before row col 0
      (memory.set op.product.data (row * op.product.cols + col) 0) :=
    ⟨done.set member inside.1 0, MatrixMemory.cell_set_self inside.1 inside.2⟩
  obtain ⟨memory', run, done', sum⟩ := forRange_invariant (by omega) cleared
    fun k memory low more summing => summing.nextTerm member above below left right low more
  refine ⟨memory', ?_, done'.preserved, done'.others, ?_⟩
  · simp only [multiplyCell, idx, store_ok inside.1 inside.2, bind, Except.bind]
    exact run
  · rw [← Int.add_assoc]
    refine Operation.Filled.next done'.computed ?_
    rw [sum, Operation.entry_flat left right]

theorem Multiplied.nextRow (done : Multiplied work op before (row * op.product.cols) memory)
    (member : op ∈ work.operations)
    (above : 0 ≤ row) (below : row < op.product.rows) :
    ∃ memory', multiplyRow op row memory = .ok memory' ∧
      Multiplied work op before ((row + 1) * op.product.cols) memory' := by
  have cols_bounds := (work.shaped op member).cols_bounds
  have start : Multiplied work op before (row * op.product.cols + 0) memory := by rwa [Int.add_zero]
  obtain ⟨memory', run, done'⟩ := forRange_invariant
    (I := fun col memory => Multiplied work op before (row * op.product.cols + col) memory) (by omega) start
    fun col memory left right done => done.nextCell member above below left right
  refine ⟨memory', run, ?_⟩
  rwa [Int.add_mul, Int.one_mul]

/-- `multiply` succeeds on each operation of a workload and stores the exact product. -/
theorem multiply_ok (preserved : Preserved work before) (member : op ∈ work.operations) :
    ∃ memory', multiply op before = .ok memory' ∧
      Multiplied work op before (op.product.rows * op.product.cols) memory' := by
  have shaped := work.shaped op member
  have rows_bounds := shaped.rows_bounds
  have start : Multiplied work op before (0 * op.product.cols) before := by
    rw [Int.zero_mul]
    exact ⟨preserved, fun _ _ => rfl, Operation.Filled.empty op work.memory 0 before⟩
  obtain ⟨memory', run, done⟩ := forRange_invariant
    (I := fun row memory => Multiplied work op before (row * op.product.cols) memory) (by omega) start
    fun row memory above below done => done.nextRow member above below
  refine ⟨memory', ?_, done⟩
  unfold multiply
  rw [shaped.valid]
  exact run

/-- The cells of a computed product are its whole array. -/
theorem Computed.unique {memory' : MatrixMemory} (member : op ∈ work.operations) (preserved : Preserved work memory)
    (preserved' : Preserved work memory') (computed : Computed work op 0 (op.product.rows * op.product.cols) memory)
    (computed' : Computed work op 0 (op.product.rows * op.product.cols) memory') :
    memory op.product.data = memory' op.product.data := by
  have length := preserved.product_length member
  refine List.ext_getElem ?_ ?_
  · rw [preserved.lengths, preserved'.lengths]
  · intro i inside inside'
    have cell := computed i (Int.natCast_nonneg i) (by omega)
    rw [← computed' i (Int.natCast_nonneg i) (by omega)] at cell
    simpa [MatrixMemory.cell, inside, inside'] using cell

/-- The products of a workload are all computed. -/
structure Solved (work : Workload) (memory : MatrixMemory) : Prop where
  preserved : Preserved work memory
  computed : ∀ op ∈ work.operations, Computed work op 0 (op.product.rows * op.product.cols) memory

/-- Nothing else can be in memory then. -/
theorem Solved.unique {memory' : MatrixMemory} (solved : Solved work memory) (solved' : Solved work memory') :
    memory = memory' := by
  funext block
  by_cases product : ∃ op ∈ work.operations, block = op.product.data
  · obtain ⟨op, member, rfl⟩ := product
    exact (solved.computed op member).unique member solved.preserved solved'.preserved (solved'.computed op member)
  · have outside : ∀ op ∈ work.operations, block ≠ op.product.data := fun op member same => product ⟨op, member, same⟩
    rw [solved.preserved.operands block outside, solved'.preserved.operands block outside]

theorem Multiplied.keeps (done : Multiplied work op before (op.product.rows * op.product.cols) memory)
    (member : op ∈ work.operations) {other : Operation} (member' : other ∈ work.operations)
    (computed : Computed work other 0 (other.product.rows * other.product.cols) before) :
    Computed work other 0 (other.product.rows * other.product.cols) memory := by
  by_cases same : other.product.data = op.product.data
  · have equal := Workload.product_unique member' member same
    subst equal
    exact done.computed
  · intro idx first last
    unfold MatrixMemory.cell
    rw [done.others _ same]
    exact computed idx first last

/-- The sequential program has still to multiply some operations. -/
structure Remaining (work : Workload) (rest : List Operation) (memory : MatrixMemory) : Prop where
  preserved : Preserved work memory
  known : rest ⊆ work.operations
  computed : ∀ op ∈ work.operations, op ∈ rest ∨ Computed work op 0 (op.product.rows * op.product.cols) memory

theorem Remaining.next {rest : List Operation} (remaining : Remaining work (op :: rest) memory) :
    ∃ memory', multiply op memory = .ok memory' ∧ Remaining work rest memory' := by
  have member := remaining.known (List.mem_cons_self ..)
  obtain ⟨memory', run, done⟩ := multiply_ok remaining.preserved member
  refine ⟨memory', run, done.preserved, fun _ later => remaining.known (List.mem_cons_of_mem _ later), ?_⟩
  intro other member'
  rcases remaining.computed other member' with left | computed
  · rcases List.mem_cons.mp left with rfl | later
    · exact Or.inr done.computed
    · exact Or.inl later
  · exact Or.inr (done.keeps member member' computed)

/-- The sequential program computes all products. -/
theorem multiplyAll_ok (work : Workload) :
    ∃ memory, multiplyAll work.operations work.memory = .ok memory ∧ Solved work memory := by
  have start : Remaining work work.operations work.memory :=
    ⟨.start work, List.Subset.refl _, fun _ member => Or.inl member⟩
  obtain ⟨memory, run, done⟩ := foldlM_invariant start fun op rest memory remaining => remaining.next
  refine ⟨memory, run, done.preserved, fun op member => ?_⟩
  exact (done.computed op member).resolve_left (List.not_mem_nil)

end PCProject
