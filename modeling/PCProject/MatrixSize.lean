import PCProject.MatrixSetUp

namespace PCProject
variable {rows cols : Int} {heap heap' : MatrixHeap} {creation : MatrixCreation} {pointer : Option Nat}

theorem matrixMalloc_ok {p : Nat} {block : MatrixBlock} (step : matrixMalloc heap p block = .ok heap') :
    heap p = none ∧ heap' = heap.store p block := by
  unfold matrixMalloc at step
  split at step
  · rename_i free
    cases step
    exact ⟨Option.isNone_iff_eq_none.mp free, rfl⟩
  · cases step

theorem matrixMalloc_free {p : Nat} (free : heap p = none) (block : MatrixBlock) :
    matrixMalloc heap p block = .ok (heap.store p block) :=
  if_pos (Option.isNone_iff_eq_none.mpr free)

/-- How many numbers `malloc` has room for. -/
def matrixRoom (rows cols : Int) : Nat := (rows * cols * 8 % 2 ^ 64).toNat / 8

/-- What a call of MATRIX_create leaves behind, in its two blocks `p` and `q`. -/
structure Created (rows cols : Int) (p q : Nat) (heap heap' : MatrixHeap) : Prop where
  matrix : heap' p = some (.matrix (some ⟨rows, cols, q⟩))
  data : heap' q = some (.cells (List.replicate (matrixRoom rows cols) none))
  others : ∀ a, a ≠ p → a ≠ q → heap' a = heap a

theorem Created.stored {p q : Nat} (apart : p ≠ q) :
    Created rows cols p q heap
      (((heap.store p (.matrix none)).store q (.cells (List.replicate (matrixRoom rows cols) none))).store p
        (.matrix (some ⟨rows, cols, q⟩))) where
  matrix := Cells.store_self ..
  data := by rw [Cells.store_ne _ _ apart.symm, Cells.store_self]
  others a foreign other := by rw [Cells.store_ne _ _ foreign, Cells.store_ne _ _ other, Cells.store_ne _ _ foreign]

/-- A call of MATRIX_create that does not end the program. -/
theorem matrixCreate_ok (run : matrixCreate rows cols creation heap = .ok (pointer, heap')) :
    ∃ p q, creation.matrix = some p ∧ creation.data = some q ∧ Created rows cols p q heap heap' := by
  unfold matrixCreate at run
  split at run
  · cases run
  · split at run
    · cases run
    · rename_i p matrix
      obtain ⟨heap₁, first, run⟩ := bind_ok run
      obtain ⟨bytes, size, run⟩ := bind_ok run
      split at run
      · cases run
      · rename_i q data
        obtain ⟨heap₂, second, run⟩ := bind_ok run
        obtain ⟨free, rfl⟩ := matrixMalloc_ok first
        obtain ⟨free', rfl⟩ := matrixMalloc_ok second
        unfold matrixBytes at size
        split at size
        · cases size
          cases run
          have apart : p ≠ q := by
            intro same
            rw [same, Cells.store_self] at free'
            cases free'
          exact ⟨p, q, matrix, data, .stored apart⟩
        · cases size

/-- MATRIX_create succeeds when it gets its two blocks. What it returns is up to the caller's luck. -/
theorem matrixCreate_granted {p q : Nat} (positive : 0 < rows ∧ 0 < cols) (fits : rows * cols < 2 ^ 63)
    (matrix : creation.matrix = some p) (data : creation.data = some q) (apart : p ≠ q) (free : heap p = none)
    (free' : heap q = none) :
    ∃ heap', matrixCreate rows cols creation heap = .ok (creation.returned, heap') ∧
      Created rows cols p q heap heap' := by
  have valid : ¬(rows ≤ 0 ∨ cols ≤ 0) := by omega
  have stillFree : heap.store p (.matrix none) q = none := by rw [Cells.store_ne _ _ apart.symm, free']
  refine ⟨_, ?_, .stored apart⟩
  simp only [matrixCreate, if_neg valid, matrix, data, matrixMalloc_free free, matrixBytes, if_pos fits,
    matrixMalloc_free stillFree, bind, Except.bind, matrixRoom]

/-- The values of type `int` that are positive. -/
def PositiveInt (n : Int) : Prop := 1 ≤ n ∧ n < 2 ^ 31

instance (n : Int) : Decidable (PositiveInt n) := inferInstanceAs (Decidable (_ ∧ _))

/-- The byte count of a matrix is the true one. -/
def BytesExact (rows cols : Int) : Prop := matrixBytes rows cols = .ok (8 * (rows * cols)).toNat

/-- The block of a matrix has room for every index that the loops over the matrix use. -/
def IndicesInside (rows cols : Int) : Prop :=
  ∀ creation heap pointer heap', matrixCreate rows cols creation heap = .ok (pointer, heap') →
    ∀ row col, 0 ≤ row → row < rows → 0 ≤ col → col < cols →
      ∃ q data, creation.data = some q ∧ heap' q = some (.cells data) ∧ 0 ≤ row * cols + col ∧
        row * cols + col < data.length

/-- The product wraps from 2^61 numbers on, and then to a number of bytes that is too small. -/
theorem bytesExact_iff (r : PositiveInt rows) (c : PositiveInt cols) : BytesExact rows cols ↔ rows * cols < 2 ^ 61 := by
  obtain ⟨least, most⟩ := cells_bounds r c
  rw [BytesExact, matrixBytes, if_pos (by omega), Except.ok.injEq]
  omega

theorem matrixRoom_ge_iff (r : PositiveInt rows) (c : PositiveInt cols) :
    rows * cols ≤ matrixRoom rows cols ↔ rows * cols < 2 ^ 61 := by
  obtain ⟨least, most⟩ := cells_bounds r c
  unfold matrixRoom
  omega

theorem indicesInside_iff (r : PositiveInt rows) (c : PositiveInt cols) :
    IndicesInside rows cols ↔ rows * cols < 2 ^ 61 := by
  rw [← matrixRoom_ge_iff r c]
  constructor
  · intro inside
    have fits : rows * cols < 2 ^ 63 := by have := (cells_bounds r c).2; omega
    have granted : (⟨some 0, some 1, none⟩ : MatrixCreation).matrix = some 0 := rfl
    have free (a : Nat) : MatrixHeap.empty a = none := rfl
    obtain ⟨heap', run, created⟩ :=
      matrixCreate_granted ⟨r.1, c.1⟩ fits granted rfl (by decide) (free 0) (free 1)
    obtain ⟨q, data, block, here, -, last⟩ :=
      inside _ _ _ _ run (rows - 1) (cols - 1) (by have := r.1; omega) (by omega)
      (by have := c.1; omega) (by omega)
    cases block
    cases here.symm.trans created.data
    have position : (rows - 1) * cols + (cols - 1) = rows * cols - 1 := by ring
    rw [List.length_replicate, position] at last
    omega
  · intro room creation heap pointer heap' run row col above below left right
    obtain ⟨p, q, -, data, created⟩ := matrixCreate_ok run
    obtain ⟨first, last⟩ := flat_lt above below left right
    exact ⟨q, _, data, created.data, first, by rw [List.length_replicate]; omega⟩

theorem optionAt_bounds {argv : List Bytes} {i : Nat} {otherwise value : Int}
    (small : -2 ^ 31 ≤ otherwise ∧ otherwise < 2 ^ 31) (read : optionAt argv i otherwise = .ok value) :
    -2 ^ 31 ≤ value ∧ value < 2 ^ 31 := by
  unfold optionAt at read
  split at read
  · cases read
    exact small
  · rename_i argument _
    cases number : atoi (argument ++ [0]) with
    | none =>
      rw [number] at read
      cases read
    | some read_ =>
      rw [number] at read
      cases read
      exact atoi_bounds number

theorem optionsSet_bounds {argv : List Bytes} {options : Options} (accepted : optionsSet argv = .ok options) :
    PositiveInt options.matrixOrder ∧ PositiveInt options.operations := by
  obtain ⟨matrixOrder, order, accepted⟩ := bind_ok accepted
  obtain ⟨operations, count, accepted⟩ := bind_ok accepted
  obtain ⟨logProducts, -, accepted⟩ := bind_ok accepted
  split at accepted
  · cases accepted
  · rename_i valid
    cases accepted
    have low : 1 ≤ matrixOrder ∧ 1 ≤ operations := by omega
    exact ⟨⟨low.1, (optionAt_bounds (by decide) order).2⟩, low.2, (optionAt_bounds (by decide) count).2⟩

/-- The orders that the programs accept. -/
theorem optionsSet_positive {argv : List Bytes} {options : Options} (accepted : optionsSet argv = .ok options) :
    PositiveInt options.matrixOrder :=
  (optionsSet_bounds accepted).1

theorem square_lt_iff {n : Int} (positive : PositiveInt n) : n * n < 2 ^ 61 ↔ n ≤ 1518500249 := by
  have low := positive.1
  constructor
  · intro square
    by_contra large
    have least : 1518500250 * 1518500250 ≤ n * n := Int.mul_le_mul (by omega) (by omega) (by decide) (by omega)
    omega
  · intro small
    have most : n * n ≤ 1518500249 * 1518500249 := Int.mul_le_mul small small (by omega) (by decide)
    omega

/-- The size of a matrix is computed without a wrap, and its block has room for its cells, exactly up to 2^61
numbers. Of the orders that are accepted these are the ones up to 1518500249. -/
theorem matrix_allocation_size (r : PositiveInt rows) (c : PositiveInt cols) :
    (BytesExact rows cols ↔ rows * cols < 2 ^ 61) ∧ (IndicesInside rows cols ↔ rows * cols < 2 ^ 61) ∧
    ∀ argv options, optionsSet argv = .ok options → PositiveInt options.matrixOrder ∧
      (BytesExact options.matrixOrder options.matrixOrder ↔ options.matrixOrder ≤ 1518500249) ∧
      (IndicesInside options.matrixOrder options.matrixOrder ↔ options.matrixOrder ≤ 1518500249) := by
  refine ⟨bytesExact_iff r c, indicesInside_iff r c, fun argv options accepted => ?_⟩
  have positive := optionsSet_positive accepted
  refine ⟨positive, ?_, ?_⟩
  · rw [bytesExact_iff positive positive, square_lt_iff positive]
  · rw [indicesInside_iff positive positive, square_lt_iff positive]

theorem matrix_allocation_size_order_1000 :
    optionsSet [ascii "sequential", ascii "1000"] = .ok ⟨1000, 1, false⟩ ∧ BytesExact 1000 1000 ∧
      IndicesInside 1000 1000 := by
  have accepted : optionsSet [ascii "sequential", ascii "1000"] = .ok ⟨1000, 1, false⟩ := rfl
  have order : PositiveInt 1000 := by decide
  obtain ⟨-, -, orders⟩ := matrix_allocation_size order order
  obtain ⟨-, exact_, inside⟩ := orders _ _ accepted
  exact ⟨accepted, exact_.mpr (by decide), inside.mpr (by decide)⟩

/-- The smallest order whose byte count wraps is accepted. MATRIX_create asks for less than 300 MB, and the last
index of the matrix is far behind the block. -/
theorem matrix_bytes_wrap :
    optionsSet [ascii "sequential", ascii "1518500250"] = .ok ⟨1518500250, 1, false⟩ ∧
    matrixBytes 1518500250 1518500250 = .ok 290948384 ∧ ¬BytesExact 1518500250 1518500250 ∧
    (∃ heap, matrixCreate 1518500250 1518500250 ⟨some 0, some 1, some 0⟩ .empty = .ok (some 0, heap) ∧
      heap 1 = some (.cells (List.replicate 36368548 none)) ∧
      (36368548 : Int) ≤ (1518500250 - 1) * 1518500250 + (1518500250 - 1)) ∧
    ¬IndicesInside 1518500250 1518500250 := by
  have positive : PositiveInt 1518500250 := by decide
  have valid : (0 : Int) < 1518500250 ∧ (0 : Int) < 1518500250 := by decide
  have fits : (1518500250 : Int) * 1518500250 < 2 ^ 63 := by decide
  have granted : (⟨some 0, some 1, some 0⟩ : MatrixCreation).matrix = some 0 := rfl
  have free (a : Nat) : MatrixHeap.empty a = none := rfl
  obtain ⟨heap, run, created⟩ :=
    matrixCreate_granted valid fits granted rfl (by decide) (free 0) (free 1)
  refine ⟨rfl, rfl, ?_, ⟨heap, run, created.data, by decide⟩, ?_⟩
  · rw [bytesExact_iff positive positive]
    decide
  · rw [indicesInside_iff positive positive]
    decide

end PCProject
