import PCProject.PlacedProduct
import PCProject.SubMultiplication

namespace PCProject
variable {op : Operation} {before memory memory' : MatrixMemory} {task : MultiplicationTask} {row col idx k : Int}

/-- A task stands for a range of the cells of the product, which may be empty. -/
structure Operation.Range (op : Operation) (task : MultiplicationTask) : Prop where
  op1 : task.op1 = op.operandA
  op2 : task.op2 = op.operandB
  res : task.res = op.product
  start : 0 ≤ task.startIdx
  order : task.startIdx ≤ task.endIdx
  upper : task.endIdx ≤ op.product.rows * op.product.cols

/-- `row`, `col` and `idx` name the same cell of the product, at or after the start of the task. -/
structure Cursor (op : Operation) (task : MultiplicationTask) (row col idx : Int) : Prop where
  flat : row * op.product.cols + col = idx
  row : 0 ≤ row
  left : 0 ≤ col
  right : col < op.product.cols
  start : task.startIdx ≤ idx

theorem Cursor.enter (above : 0 ≤ task.startIdx) (positive : 0 < op.product.cols) :
    Cursor op task (task.startIdx / op.product.cols) (task.startIdx % op.product.cols) task.startIdx :=
  ⟨Int.ediv_mul_add_emod _ _, Int.ediv_nonneg above positive.le, Int.emod_nonneg _ positive.ne',
    Int.emod_lt_of_pos _ positive, Int.le_refl _⟩

theorem Cursor.row_lt (cursor : Cursor op task row col idx) (range : op.Range task) (more : idx < task.endIdx) :
    row < op.product.rows := by
  have split := flat_split (range.start.trans cursor.start) (more.trans_le range.upper)
    (cursor.left.trans_lt cursor.right)
  rw [← cursor.flat, (flat_div cursor.left cursor.right).1] at split
  exact split.2.1

/-- The bookkeeping of the handler finds the next cell. -/
theorem Cursor.next (cursor : Cursor op task row col idx) (placed : op.Placed before) (below : row < op.product.rows) :
    ∃ row' col', nextCell op.product row col = .ok (row', col') ∧ Cursor op task row' col' (idx + 1) := by
  have ⟨flat, above, left, right, start⟩ := cursor
  have sizes := placed.sizes
  simp only [nextCell, checked_ok (show -2 ^ 63 ≤ col + 1 by omega) (show col + 1 < 2 ^ 63 by omega), bind, Except.bind]
  by_cases last : col + 1 = op.product.cols
  · rw [if_pos last, checked_ok (by omega) (by omega)]
    refine ⟨row + 1, 0, rfl, ?_, by omega, by omega, by omega, by omega⟩
    rw [Int.add_mul, Int.one_mul]
    omega
  · rw [if_neg last]
    exact ⟨row, col + 1, rfl, by omega, above, by omega, by omega, by omega⟩

/-- No inner product that belongs to a range of cells overflows on the way. -/
def Operation.Exact (op : Operation) (before : MatrixMemory) (lo hi : Int) : Prop :=
  ∀ idx, lo ≤ idx → idx < hi → ∀ k : Nat, k < op.operandA.cols →
    op.TermFits before (idx / op.product.cols) (idx % op.product.cols) k

/-- What holds of `sub_multiplication_handler` where it is: the cells of its task before `idx`
are computed, and the inner loop has summed the first `k` terms of the cell at `idx`. -/
def SubMultiplication.Filling (op : Operation) (before : MatrixMemory) (h : SubMultiplication) (memory : MatrixMemory) :
    Prop :=
  match h.point with
  | .outer row col idx =>
    Cursor op h.task row col idx ∧ idx ≤ h.task.endIdx ∧ op.Filled before h.task.startIdx idx memory
  | .inner row col idx k =>
    Cursor op h.task row col idx ∧ idx < h.task.endIdx ∧ op.Filled before h.task.startIdx idx memory ∧
      0 ≤ k ∧ k ≤ op.operandA.cols ∧ memory.cell op.product.data idx = op.partialSum before row col k.toNat
  | .faulted fault => fault = .overflow ∧ ¬op.Exact before h.task.startIdx h.task.endIdx

/-- A step of the handler writes at most one cell of its task. -/
def OwnWrite (op : Operation) (task : MultiplicationTask) (memory memory' : MatrixMemory) : Prop :=
  memory' = memory ∨ ∃ idx value, task.startIdx ≤ idx ∧ idx < task.endIdx ∧
    memory' = memory.set op.product.data idx value

namespace SubMultiplication
variable {h h' : SubMultiplication}

theorem Filling.enter (placed : op.Placed before) (range : op.Range task) : (enter task).Filling op before memory := by
  have positive := placed.some_col
  have nonzero : op.product.cols ≠ 0 := by omega
  simp only [Filling, SubMultiplication.enter, range.res, if_neg nonzero, Int.tdiv_eq_ediv_of_nonneg range.start,
    Int.tmod_eq_emod_of_nonneg range.start]
  exact ⟨.enter range.start (by omega), range.order, .empty op before _ memory⟩

/-- The outer loop clears the next cell. -/
theorem Filling.clear (placed : op.Placed before) (kept : op.Kept before memory) (range : op.Range task)
    (filling : Filling op before ⟨task, .outer row col idx⟩ memory) (more : idx < task.endIdx) :
    store memory task.res.data idx 0 = .ok (memory.set op.product.data idx 0) ∧
      Filling op before ⟨task, .inner row col idx 0⟩ (memory.set op.product.data idx 0) := by
  obtain ⟨cursor, -, filled⟩ := filling
  have positive := placed.some_term
  have inside := placed.inside kept cursor.row (cursor.row_lt range more) cursor.left cursor.right
  rw [cursor.flat] at inside
  refine ⟨?_, cursor, more, ?_, Int.le_refl 0, by omega, MatrixMemory.cell_set_self inside.1 inside.2⟩
  · rw [range.res]
    exact store_ok inside.1 inside.2
  · exact filled.set range.start inside.1 fun _ => Or.inr (Int.le_refl idx)

/-- The inner loop adds the next term, or the sum overflows. -/
theorem Filling.add (placed : op.Placed before) (kept : op.Kept before memory) (range : op.Range task)
    (filling : Filling op before ⟨task, .inner row col idx k⟩ memory) (more : k < task.op1.cols) :
    (∃ value, addProduct task.op1 task.op2 task.res row col k idx memory = .ok (memory.set op.product.data idx value) ∧
      Filling op before ⟨task, .inner row col idx (k + 1)⟩ (memory.set op.product.data idx value)) ∨
    addProduct task.op1 task.op2 task.res row col k idx memory = .error .overflow ∧
      Filling op before ⟨task, .faulted .overflow⟩ memory := by
  obtain ⟨cursor, inTask, filled, low, -, sum⟩ := filling
  obtain ⟨terms, rfl⟩ := Int.eq_ofNat_of_zero_le low
  have below := cursor.row_lt range inTask
  have inside := placed.inside kept cursor.row below cursor.left cursor.right
  rw [range.op1] at more
  rw [← cursor.flat] at sum
  obtain ⟨fits, overflows⟩ := placed.addProduct_cases kept cursor.row below cursor.left cursor.right more sum
  by_cases fit : op.TermFits before row col terms
  · refine Or.inl ⟨op.partialSum before row col (terms + 1), ?_, cursor, inTask, ?_, by omega, by omega, ?_⟩
    · rw [range.op1, range.op2, range.res, ← cursor.flat]
      exact fits fit
    · exact filled.set range.start (range.start.trans cursor.start) fun _ => Or.inr (Int.le_refl idx)
    · rw [← cursor.flat]
      exact MatrixMemory.cell_set_self inside.1 inside.2
  · refine Or.inr ⟨?_, rfl, fun exact_ => fit ?_⟩
    · rw [range.op1, range.op2, range.res, ← cursor.flat]
      exact overflows fit
    · have fits := exact_ idx cursor.start inTask terms more
      rwa [← cursor.flat, (flat_div cursor.left cursor.right).1, (flat_div cursor.left cursor.right).2] at fits

/-- The inner loop ends with the exact product in the cell. -/
theorem Filling.advance (placed : op.Placed before) (range : op.Range task)
    (filling : Filling op before ⟨task, .inner row col idx k⟩ memory) (last : ¬k < task.op1.cols) :
    ∃ row' col', nextCell task.res row col = .ok (row', col') ∧
      Filling op before ⟨task, .outer row' col' (idx + 1)⟩ memory := by
  obtain ⟨cursor, inTask, filled, -, high, sum⟩ := filling
  have below := cursor.row_lt range inTask
  obtain ⟨row', col', found, cursor'⟩ := cursor.next placed below
  rw [range.op1] at last
  have all : k = op.operandA.cols := by omega
  refine ⟨row', col', range.res ▸ found, cursor', inTask, filled.next ?_⟩
  rw [sum, all, ← cursor.flat, Operation.entry_flat cursor.left cursor.right]

/-- What one step of the handler does. -/
theorem Filling.step (placed : op.Placed before) (kept : op.Kept before memory) (range : op.Range h.task)
    (filling : h.Filling op before memory) (next : h.step memory = some (h', memory')) :
    h'.task = h.task ∧ h'.Filling op before memory' ∧ OwnWrite op h.task memory memory' := by
  obtain ⟨task, point⟩ := h
  cases point with
  | outer row col idx =>
    have start := filling.1.start
    by_cases more : idx < task.endIdx
    · obtain ⟨cleared, filling'⟩ := filling.clear placed kept range more
      simp only [SubMultiplication.step, if_pos more, cleared, write, Option.some.injEq, Prod.mk.injEq] at next
      obtain ⟨rfl, rfl⟩ := next
      exact ⟨rfl, filling', Or.inr ⟨idx, 0, start, more, rfl⟩⟩
    · simp only [SubMultiplication.step, if_neg more] at next
      cases next
  | inner row col idx k =>
    have start := filling.1.start
    have inTask := filling.2.1
    by_cases more : k < task.op1.cols
    · rcases filling.add placed kept range more with ⟨value, added, filling'⟩ | ⟨failed, filling'⟩
      · simp only [SubMultiplication.step, if_pos more, added, write, Option.some.injEq, Prod.mk.injEq] at next
        obtain ⟨rfl, rfl⟩ := next
        exact ⟨rfl, filling', Or.inr ⟨idx, value, start, inTask, rfl⟩⟩
      · simp only [SubMultiplication.step, if_pos more, failed, write, Option.some.injEq, Prod.mk.injEq] at next
        obtain ⟨rfl, rfl⟩ := next
        exact ⟨rfl, filling', Or.inl rfl⟩
    · obtain ⟨row', col', found, filling'⟩ := filling.advance placed range more
      simp only [SubMultiplication.step, if_neg more, found, Option.some.injEq, Prod.mk.injEq] at next
      obtain ⟨rfl, rfl⟩ := next
      exact ⟨rfl, filling', Or.inl rfl⟩
  | faulted fault =>
    simp only [SubMultiplication.step, Option.some.injEq, Prod.mk.injEq] at next
    obtain ⟨rfl, rfl⟩ := next
    exact ⟨rfl, filling, Or.inl rfl⟩

theorem Filling.returns (filling : h.Filling op before memory) (last : h.step memory = none) :
    op.Filled before h.task.startIdx h.task.endIdx memory := by
  obtain ⟨task, point⟩ := h
  cases point with
  | outer row col idx =>
    obtain ⟨-, below, filled⟩ := filling
    by_cases more : idx < task.endIdx
    · simp [SubMultiplication.step, if_pos more] at last
    · have all : idx = task.endIdx := Int.le_antisymm below (Int.not_lt.mp more)
      rwa [all] at filled
  | inner row col idx k =>
    simp only [SubMultiplication.step] at last
    split at last
    · cases last
    · split at last <;> cases last
  | faulted fault => cases last

theorem Filling.unfaulted (filling : h.Filling op before memory)
    (exact_ : op.Exact before h.task.startIdx h.task.endIdx) (fault : MatrixFault) : h.point ≠ .faulted fault := by
  intro faulted
  rw [Filling, faulted] at filling
  exact filling.2 exact_

/-- A write outside the task of a handler does not disturb it. -/
theorem Filling.set (filling : h.Filling op before memory) (range : op.Range h.task) {block : Nat} {value : Int}
    (above : 0 ≤ idx) (outside : op.product.data = block → idx < h.task.startIdx ∨ h.task.endIdx ≤ idx) :
    h.Filling op before (memory.set block idx value) := by
  obtain ⟨task, point⟩ := h
  cases point with
  | outer row col here =>
    obtain ⟨cursor, below, filled⟩ := filling
    refine ⟨cursor, below, filled.set range.start above ?_⟩
    intro same
    exact (outside same).imp_right below.trans
  | inner row col here k =>
    obtain ⟨cursor, inTask, filled, low, high, sum⟩ := filling
    have start := cursor.start
    refine ⟨cursor, inTask, filled.set range.start above ?_, low, high, ?_⟩
    · intro same
      exact (outside same).imp_right inTask.le.trans
    · rw [MatrixMemory.cell_set_ne above (range.start.trans start)]
      · exact sum
      · intro same
        have := outside same
        omega
  | faulted fault => exact filling

end SubMultiplication
end PCProject
