import PCProject.ProductCells

namespace PCProject

/-- `random_number`, given what `rand` returns. -/
def randomNumber (rand : Nat) : Int := ((rand % 11 : Nat) : Int) - 5

/-- The body of the loops of `init_operand`. `rand` lists the answers of the library function;
the state holds the number of its calls beside the memory. -/
def initCell (rand : Nat → Nat) (m : Matrix) (idx : Int) (state : MatrixMemory × Nat) :
    Except MatrixFault (MatrixMemory × Nat) := do
  let memory ← store state.1 m.data idx (randomNumber (rand state.2))
  .ok (memory, state.2 + 1)

def initMatrix (rand : Nat → Nat) (m : Matrix) (state : MatrixMemory × Nat) :
    Except MatrixFault (MatrixMemory × Nat) := do
  let size ← checked (m.cols * m.rows)
  forRange 0 size (initCell rand m) state

def initOperand (rand : Nat → Nat) (operandArray : List Matrix) (state : MatrixMemory × Nat) :
    Except MatrixFault (MatrixMemory × Nat) :=
  operandArray.foldlM (fun state m => initMatrix rand m state) state

/-- What main does with the operands before it multiplies. -/
def initOperands (rand : Nat → Nat) (ops : List Operation) (memory : MatrixMemory) :
    Except MatrixFault (MatrixMemory × Nat) := do
  let state ← initOperand rand (ops.map Operation.operandA) (memory, 0)
  initOperand rand (ops.map Operation.operandB) state

theorem randomNumber_bounds (rand : Nat) : -5 ≤ randomNumber rand ∧ randomNumber rand ≤ 5 := by
  unfold randomNumber
  omega

/-- A matrix with an array of its size. -/
structure Matrix.Sized (m : Matrix) (memory : MatrixMemory) : Prop where
  rows_bounds : 1 ≤ m.rows ∧ m.rows < 2 ^ 31
  cols_bounds : 1 ≤ m.cols ∧ m.cols < 2 ^ 31
  length : (memory m.data).length = m.rows * m.cols

/-- Memory after the arrays of some matrices have been filled. -/
structure Filled (array : List Matrix) (before memory : MatrixMemory) : Prop where
  lengths : ∀ block, (memory block).length = (before block).length
  others : ∀ block, (∀ m ∈ array, block ≠ m.data) → memory block = before block
  filled : ∀ m ∈ array, Initialised (memory m.data)
  kept : ∀ block, Initialised (before block) → Initialised (memory block)

variable {m : Matrix} {front array : List Matrix} {before middle memory : MatrixMemory}

theorem Filled.append (first : Filled front before middle) (later : Filled [m] middle memory) :
    Filled (front ++ [m]) before memory where
  lengths block := (later.lengths block).trans (first.lengths block)
  others block outside := by
    have untouched : memory block = middle block := by
      refine later.others block fun other member => ?_
      exact outside other (List.mem_append_right front member)
    rw [untouched]
    exact first.others block fun other member => outside other (List.mem_append_left [m] member)
  filled other member := by
    rcases List.mem_append.mp member with earlier | last
    · exact later.kept _ (first.filled other earlier)
    · exact later.filled other last
  kept block initialised := later.kept block (first.kept block initialised)

/-- The loop over one array has come to some index. -/
structure Filling (m : Matrix) (before : MatrixMemory) (idx : Int) (memory : MatrixMemory) : Prop where
  lengths : ∀ block, (memory block).length = (before block).length
  others : ∀ block, block ≠ m.data → memory block = before block
  cells : ∀ i, 0 ≤ i → i < idx → -5 ≤ memory.cell m.data i ∧ memory.cell m.data i ≤ 5

theorem Filling.set {idx : Int} (filling : Filling m before idx memory) (above : 0 ≤ idx)
    (inside : idx < (memory m.data).length) (rand : Nat) :
    Filling m before (idx + 1) (memory.set m.data idx (randomNumber rand)) where
  lengths block := by rw [MatrixMemory.length_set, filling.lengths]
  others block apart := by
    rw [MatrixMemory.set_other apart]
    exact filling.others block apart
  cells i first last := by
    by_cases here : i = idx
    · rw [here, MatrixMemory.cell_set_self above inside]
      exact randomNumber_bounds rand
    · rw [MatrixMemory.cell_set_ne above first fun _ => here]
      exact filling.cells i first (by omega)

theorem Filling.next (rand : Nat → Nat) {idx : Int} {state : MatrixMemory × Nat}
    (filling : Filling m before idx state.1)
    (above : 0 ≤ idx) (below : idx < (before m.data).length) :
    ∃ state', initCell rand m idx state = .ok state' ∧ Filling m before (idx + 1) state'.1 := by
  have inside : idx < (state.1 m.data).length := by rwa [filling.lengths]
  refine ⟨(state.1.set m.data idx (randomNumber (rand state.2)), state.2 + 1), ?_, filling.set above inside _⟩
  simp only [initCell, store_ok above inside, bind, Except.bind]

theorem Filling.whole (filling : Filling m before (m.cols * m.rows) memory)
    (length : (before m.data).length = m.cols * m.rows) : Initialised (memory m.data) := by
  intro value member
  obtain ⟨i, inside, rfl⟩ := List.mem_iff_getElem.mp member
  have same := filling.lengths m.data
  have bounds := filling.cells i (Int.natCast_nonneg i) (by omega)
  simpa [MatrixMemory.cell, inside] using bounds

theorem initMatrix_ok (rand : Nat → Nat) (calls : Nat) (sized : m.Sized before) :
    ∃ memory calls', initMatrix rand m (before, calls) = .ok (memory, calls') ∧ Filled [m] before memory := by
  have rows_bounds := sized.rows_bounds
  have cols_bounds := sized.cols_bounds
  have low : 0 ≤ m.cols * m.rows := Int.mul_nonneg (by omega) (by omega)
  have high : m.cols * m.rows ≤ 2 ^ 31 * 2 ^ 31 := Int.mul_le_mul (by omega) (by omega) (by omega) (by omega)
  have length : ((before m.data).length : Int) = m.cols * m.rows := by rw [sized.length, Int.mul_comm]
  have start : Filling m before 0 before := ⟨fun _ => rfl, fun _ _ => rfl, fun i first last => by omega⟩
  obtain ⟨⟨memory, calls'⟩, run, filling⟩ := forRange_invariant
    (I := fun idx (state : MatrixMemory × Nat) => Filling m before idx state.1) (s := (before, calls)) low start
    fun idx state above below filling => filling.next rand above (by omega)
  have whole := Filling.whole filling length
  refine ⟨memory, calls', ?_, filling.lengths, ?_, ?_, ?_⟩
  · simp only [initMatrix, checked_ok (show -2 ^ 63 ≤ m.cols * m.rows by omega) (by omega), bind, Except.bind]
    exact run
  · exact fun block outside => filling.others block (outside m (List.mem_singleton_self m))
  · intro other member
    rwa [List.mem_singleton.mp member]
  · intro block initialised
    by_cases same : block = m.data
    · rwa [same]
    · rw [← filling.others block same] at initialised
      exact initialised

/-- `init_operand` fills all arrays. -/
theorem initOperand_ok (rand : Nat → Nat) (calls : Nat) (sized : ∀ m ∈ array, m.Sized before) :
    ∃ memory calls', initOperand rand array (before, calls) = .ok (memory, calls') ∧ Filled array before memory := by
  have start : Filled [] before before := ⟨fun _ => rfl, fun _ _ => rfl, nofun, fun _ initialised => initialised⟩
  have round : ∀ m rest (state : MatrixMemory × Nat),
      (∃ front, front ++ m :: rest = array ∧ Filled front before state.1) →
      ∃ state', initMatrix rand m state = .ok state' ∧ ∃ front, front ++ rest = array ∧
        Filled front before state'.1 := by
    intro m rest state earlier
    obtain ⟨front, split, filled⟩ := earlier
    have old := sized m (by simp [← split])
    have now : m.Sized state.1 := ⟨old.rows_bounds, old.cols_bounds, by rw [filled.lengths, old.length]⟩
    obtain ⟨memory, calls', run, filled'⟩ := initMatrix_ok rand state.2 now
    exact ⟨(memory, calls'), run, front ++ [m], by simpa using split, filled.append filled'⟩
  obtain ⟨⟨memory, calls'⟩, run, front, split, filled⟩ := foldlM_invariant
    (I := fun rest (state : MatrixMemory × Nat) => ∃ front, front ++ rest = array ∧ Filled front before state.1)
    (s := (before, calls)) ⟨[], rfl, start⟩ round
  rw [List.append_nil] at split
  exact ⟨memory, calls', run, split ▸ filled⟩

/-- The operations of main are a workload once their operands are initialised, whatever the
allocated arrays held before. -/
theorem exists_workload {ops : List Operation} (rand : Nat → Nat) (shaped : ∀ op ∈ ops, op.Shaped)
    (apart : (ops.flatMap Operation.arrays).Nodup) (allocated : ∀ op ∈ ops, op.Allocated before) :
    ∃ (work : Workload) (calls : Nat), work.operations = ops ∧
      initOperands rand ops before = .ok (work.memory, calls) := by
  have sizedA : ∀ m ∈ ops.map Operation.operandA, m.Sized before := by
    intro m member
    obtain ⟨op, inside, rfl⟩ := List.mem_map.mp member
    have shape := shaped op inside
    exact ⟨shape.rows ▸ shape.rows_bounds, shape.inner_bounds, (allocated op inside).operandA⟩
  obtain ⟨middle, calls, runA, filledA⟩ := initOperand_ok rand 0 sizedA
  have sizedB : ∀ m ∈ ops.map Operation.operandB, m.Sized middle := by
    intro m member
    obtain ⟨op, inside, rfl⟩ := List.mem_map.mp member
    have shape := shaped op inside
    refine ⟨shape.inner ▸ shape.inner_bounds, shape.cols ▸ shape.cols_bounds, ?_⟩
    rw [filledA.lengths, (allocated op inside).operandB]
  obtain ⟨memory, calls', runB, filledB⟩ := initOperand_ok rand calls sizedB
  have lengths (block : Nat) : (memory block).length = (before block).length :=
    (filledB.lengths block).trans (filledA.lengths block)
  refine ⟨{ operations := ops, memory := memory, shaped := shaped, apart := apart, allocated := ?_, initialised := ?_ },
    calls', rfl, ?_⟩
  · intro op inside
    have old := allocated op inside
    exact ⟨by rw [lengths, old.operandA], by rw [lengths, old.operandB], by rw [lengths, old.product]⟩
  · intro op inside
    exact ⟨filledB.kept _ (filledA.filled _ (List.mem_map_of_mem inside)),
      filledB.filled _ (List.mem_map_of_mem inside)⟩
  · simp only [initOperands, runA, bind, Except.bind]
    exact runB

end PCProject
