import PCProject.MatrixArray
import PCProject.VerifiedLog
import PCProject.PoolRelease
import PCProject.Lib.Layout

namespace PCProject

/-- The arrays of matrices that main creates. -/
inductive MatrixArrayName
  | operandAs
  | operandBs
  | products
  deriving DecidableEq

/-- A block that main asks for: an array of pointers, or a matrix of it, or the cells of that. -/
inductive MatrixSlot
  | array (name : MatrixArrayName)
  | matrix (name : MatrixArrayName) (i : Nat)
  | data (name : MatrixArrayName) (i : Nat)

/-- The pointers that main holds. -/
structure MatrixArrays where
  operandAs : Nat
  operandBs : Nat
  products : Nat

/-- The first part of main, which is the same in both programs. -/
def setUpMatrices (options : Options) (arrays : MatrixArrayName → Option Nat)
    (creations : MatrixArrayName → Nat → MatrixCreation) (heap : MatrixHeap) :
    Except MatrixStop (MatrixArrays × MatrixHeap) := do
  let (operandAs, heap) ← createMatrixArray options.operations options.matrixOrder options.matrixOrder
    (arrays .operandAs) (creations .operandAs) heap
  let (operandBs, heap) ← createMatrixArray options.operations options.matrixOrder options.matrixOrder
    (arrays .operandBs) (creations .operandBs) heap
  let (products, heap) ← createMatrixArray options.operations options.matrixOrder options.matrixOrder
    (arrays .products) (creations .products) heap
  .ok (⟨operandAs, operandBs, products⟩, heap)

/-- The matrix that `array[i]` points to. -/
def loadMatrix (heap : MatrixHeap) (array : Nat) (i : Int) : Except MatrixStop Matrix := do
  let matrix ← loadEntry heap array i
  match matrix.bind heap with
  | some (.matrix (some m)) => .ok m
  | _ => .error .undefined

/-- The matrices of one operation. -/
def loadOperation (heap : MatrixHeap) (arrays : MatrixArrays) (i : Int) : Except MatrixStop Operation := do
  let operandA ← loadMatrix heap arrays.operandAs i
  let operandB ← loadMatrix heap arrays.operandBs i
  let product ← loadMatrix heap arrays.products i
  .ok ⟨operandA, operandB, product⟩

def appendOperation (heap : MatrixHeap) (arrays : MatrixArrays) (i : Int) (ops : List Operation) :
    Except MatrixStop (List Operation) := do
  let op ← loadOperation heap arrays i
  .ok (ops ++ [op])

/-- The matrices that the loops of main over the operations go through. -/
def loadOperations (heap : MatrixHeap) (arrays : MatrixArrays) (options : Options) :
    Except MatrixStop (List Operation) :=
  forRange 0 options.operations (appendOperation heap arrays) []

/-- The last part of main. -/
def freeMatrices (options : Options) (arrays : MatrixArrays) (heap : MatrixHeap) : Except MatrixStop MatrixHeap := do
  let heap ← freeMatrixArray arrays.operandAs options.operations heap
  let heap ← freeMatrixArray arrays.operandBs options.operations heap
  freeMatrixArray arrays.products options.operations heap

/-- A memory of cells as the blocks of a heap allow it: what has not been assigned may be anything. -/
def MatrixHeap.Shows (heap : MatrixHeap) (memory : MatrixMemory) : Prop :=
  ∀ q cells, heap q = some (.cells cells) → (memory q).length = cells.length ∧
    ∀ (i : Nat) value, cells[i]? = some (some value) → (memory q)[i]? = some value

/-- The heap when the cells of its matrices are assigned. -/
def MatrixHeap.filled (heap : MatrixHeap) (memory : MatrixMemory) : MatrixHeap := fun a =>
  match heap a with
  | some (.cells _) => some (.cells ((memory a).map some))
  | block => block

/-- Every request for memory of main is granted, and each call of MATRIX_create happens to return its matrix. -/
structure MatricesGranted (n : Nat) (address : MatrixSlot → Nat) (arrays : MatrixArrayName → Option Nat)
    (creations : MatrixArrayName → Nat → MatrixCreation) : Prop where
  apart : Function.Injective address
  array : ∀ name, arrays name = some (address (.array name))
  answer : ∀ name, ∀ i < n, creations name i =
    ⟨some (address (.matrix name i)), some (address (.data name i)), some (address (.matrix name i))⟩

/-- The contents of a block of main, where the blocks of cells hold `cells`. -/
def MatrixSlot.block (n : Nat) (order : Int) (address : MatrixSlot → Nat) (cells : Nat → List (Option Int)) :
    MatrixSlot → MatrixBlock
  | .array name => .array ((List.range n).map fun i => some (some (address (.matrix name i))))
  | .matrix name i => .matrix (some ⟨order, order, address (.data name i)⟩)
  | .data name i => .cells (cells (address (.data name i)))

/-- A heap that holds exactly the used blocks of main. -/
abbrev MainLayout (n : Nat) (order : Int) (address : MatrixSlot → Nat) (cells : Nat → List (Option Int))
    (used : MatrixSlot → Prop) (heap : MatrixHeap) : Prop :=
  Layout address (MatrixSlot.block n order address cells) used heap

/-- Cells as `malloc` returns them. -/
def newCells (order : Int) : Nat → List (Option Int) := fun _ => List.replicate (matrixRoom order order) none

/-- The blocks that belong to one array. -/
def MatrixSlot.ofArray (n : Nat) (name : MatrixArrayName) : MatrixSlot → Prop
  | .array other => other = name
  | .matrix other i | .data other i => other = name ∧ i < n

section Blocks
variable {n : Nat} {order : Int} {address : MatrixSlot → Nat} {arrays : MatrixArrayName → Option Nat}
  {creations : MatrixArrayName → Nat → MatrixCreation} {name : MatrixArrayName} {heap heap' : MatrixHeap}
  {used : MatrixSlot → Prop} {cells : Nat → List (Option Int)}

theorem storeEntry_frame {array : Nat} {i : Int} {matrix : Option Nat}
    (run : storeEntry heap array i matrix = .ok heap') {a : Nat} (other : a ≠ array) : heap' a = heap a := by
  unfold storeEntry at run
  split at run
  · split at run
    · cases run
      exact Cells.store_ne _ _ other
    · cases run
  · cases run

/-- `create_matrix_array` only touches the blocks that it is given. -/
theorem createMatrixArray_frame {size rows cols : Int} {p q : Nat} {answers : Nat → MatrixCreation}
    (run : createMatrixArray size rows cols (some p) answers heap = .ok (q, heap')) {a : Nat} (other : a ≠ p)
    (others : ∀ i : Nat, i < size → (answers i).matrix ≠ some a ∧ (answers i).data ≠ some a) : heap' a = heap a := by
  obtain ⟨heap₁, first, run⟩ := bind_ok run
  obtain ⟨heap₂, loop, run⟩ := bind_ok run
  cases run
  obtain ⟨-, rfl⟩ := matrixMalloc_ok first
  refine forRange_keeps (I := fun h : MatrixHeap => h a = heap a) (Cells.store_ne _ _ other) ?_ loop
  intro i h h' above below same step
  obtain ⟨⟨matrix, middle⟩, create, step⟩ := bind_ok step
  obtain ⟨m, d, isMatrix, isData, created⟩ := matrixCreate_ok create
  obtain ⟨notMatrix, notData⟩ := others i.toNat (by omega)
  rw [storeEntry_frame step other, created.others a ?_ ?_, same]
  · exact fun here => notMatrix (here ▸ isMatrix)
  · exact fun here => notData (here ▸ isData)

theorem createMatrixArray_layout (name : MatrixArrayName) (granted : MatricesGranted n address arrays creations)
    (positive : 0 < order) (fits : order * order < 2 ^ 63) (short : (n : Int) * 8 < 2 ^ 64)
    (layout : MainLayout n order address (newCells order) used heap)
    (unused : ∀ slot, MatrixSlot.ofArray n name slot → ¬used slot) :
    ∃ heap', createMatrixArray n order order (arrays name) (creations name) heap = .ok (address (.array name), heap') ∧
      MainLayout n order address (newCells order) (fun slot => used slot ∨ slot.ofArray n name) heap' := by
  have apart := granted.apart
  have answers : ArrayGranted n heap (address (.array name)) (creations name) (fun i => address (.matrix name i))
      fun i => address (.data name i) := by
    refine ⟨fun i below => by rw [granted.answer name i below], fun i below => by rw [granted.answer name i below],
      layout.fresh apart (unused _ rfl), fun i below => ⟨layout.fresh apart (unused _ ⟨rfl, below⟩),
        layout.fresh apart (unused _ ⟨rfl, below⟩)⟩, fun i _ => ⟨?_, ?_, ?_⟩, fun i _ j _ other => ⟨?_, ?_, ?_⟩⟩
    all_goals intro same
    all_goals have slots := apart same
    all_goals cases slots
    all_goals exact other rfl
  obtain ⟨heap', run, building⟩ := createMatrixArray_granted ⟨positive, positive⟩ fits short answers
  rw [← granted.array name] at run
  refine ⟨heap', run, layout.extend apart (fun slot here => ?_) fun a outside => ?_⟩
  · cases slot with
    | array other =>
      cases here
      have entries : (List.range n).map (fun i => some (creations name i).returned) =
          (List.range n).map fun i => some (some (address (.matrix name i))) :=
        List.map_congr_left fun i member => by rw [granted.answer name i (List.mem_range.mp member)]
      rw [building.array, Nat.sub_self, List.replicate_zero, List.append_nil, entries]
      rfl
    | matrix other i =>
      obtain ⟨rfl, below⟩ := here
      exact (building.built i below).1
    | data other i =>
      obtain ⟨rfl, below⟩ := here
      exact (building.built i below).2
  · rw [granted.array name] at run
    refine createMatrixArray_frame run (outside (.array name) rfl) fun i below => ?_
    rw [granted.answer name i (by omega)]
    exact ⟨fun same => outside (.matrix name i) ⟨rfl, by omega⟩ (Option.some.inj same).symm,
      fun same => outside (.data name i) ⟨rfl, by omega⟩ (Option.some.inj same).symm⟩

/-- The blocks of an array that its loop has freed. -/
def MatrixSlot.freedBy (k : Nat) (name : MatrixArrayName) : MatrixSlot → Prop
  | .array _ => False
  | .matrix other i | .data other i => other = name ∧ i < k

theorem MatrixSlot.freedBy_succ {k : Nat} {slot : MatrixSlot} : slot.freedBy (k + 1) name ↔
    slot.freedBy k name ∨ slot = .data name k ∨ slot = .matrix name k := by
  cases slot with
  | array other => simp [MatrixSlot.freedBy]
  | matrix other i =>
    simp only [MatrixSlot.freedBy, Nat.lt_succ_iff_lt_or_eq, and_or_left, reduceCtorEq, false_or,
      MatrixSlot.matrix.injEq]
  | data other i =>
    simp only [MatrixSlot.freedBy, Nat.lt_succ_iff_lt_or_eq, and_or_left, reduceCtorEq, or_false,
      MatrixSlot.data.injEq]

theorem freeEntry_layout (apart : Function.Injective address) {k : Nat} (below : k < n)
    (layout : MainLayout n order address cells (fun slot => used slot ∧ ¬slot.freedBy k name) heap)
    (owns : ∀ slot, MatrixSlot.ofArray n name slot → used slot) :
    ∃ heap', freeEntry (address (.array name)) k heap = .ok heap' ∧
      MainLayout n order address cells (fun slot => used slot ∧ ¬slot.freedBy (k + 1) name) heap' := by
  have array := layout.stored (.array name) ⟨owns _ rfl, id⟩
  have matrix := layout.stored (.matrix name k) ⟨owns _ ⟨rfl, below⟩, fun gone => Nat.lt_irrefl k gone.2⟩
  have data := layout.stored (.data name k) ⟨owns _ ⟨rfl, below⟩, fun gone => Nat.lt_irrefl k gone.2⟩
  simp only [MatrixSlot.block] at array matrix data
  refine ⟨(heap.free (address (.data name k))).free (address (.matrix name k)), ?_, ?_⟩
  · simp [freeEntry, loadEntry, array, below, bind, Except.bind, matrixFree, matrix, data]
  · refine ((layout.free apart (.data name k)).free apart (.matrix name k)).congr fun slot => ?_
    rw [MatrixSlot.freedBy_succ]
    simp only [not_or, and_assoc, ne_eq]

/-- `free_matrix_array` gives back the blocks of its array, and no others. -/
theorem freeMatrixArray_layout (name : MatrixArrayName) (apart : Function.Injective address)
    (layout : MainLayout n order address cells used heap)
    (owns : ∀ slot, MatrixSlot.ofArray n name slot → used slot) :
    ∃ heap', freeMatrixArray (address (.array name)) n heap = .ok heap' ∧
      MainLayout n order address cells (fun slot => used slot ∧ ¬slot.ofArray n name) heap' := by
  have enter : MainLayout n order address cells (fun slot => used slot ∧ ¬slot.freedBy 0 name) heap :=
    layout.congr fun slot => by cases slot <;> simp [MatrixSlot.freedBy]
  obtain ⟨heap', run, done⟩ := forRange_count enter fun k h below inv => freeEntry_layout apart below inv owns
  have array := done.stored (.array name) ⟨owns _ rfl, id⟩
  refine ⟨heap'.free (address (.array name)), ?_, (done.free apart (.array name)).congr fun slot => ?_⟩
  · simp only [freeMatrixArray, run, bind, Except.bind, array, Option.isSome_some, if_true]
  · cases slot with
    | array other => simp [MatrixSlot.freedBy, MatrixSlot.ofArray]
    | matrix other i => simp [MatrixSlot.freedBy, MatrixSlot.ofArray]
    | data other i => simp [MatrixSlot.freedBy, MatrixSlot.ofArray]

theorem MatrixSlot.ofArray_unique {slot : MatrixSlot} {other : MatrixArrayName} (here : slot.ofArray n name)
    (there : slot.ofArray n other) : other = name := by
  cases slot with
  | array found => exact there.symm.trans here
  | matrix found i => exact there.1.symm.trans here.1
  | data found i => exact there.1.symm.trans here.1

/-- The blocks of main. -/
def MatrixSlot.ofMain (n : Nat) (slot : MatrixSlot) : Prop := ∃ name, slot.ofArray n name

/-- The pointers that main gets. -/
def mainArrays (address : MatrixSlot → Nat) : MatrixArrays :=
  ⟨address (.array .operandAs), address (.array .operandBs), address (.array .products)⟩

/-- The matrices of one operation of main. -/
def mainOperation (order : Int) (address : MatrixSlot → Nat) (i : Nat) : Operation :=
  ⟨⟨order, order, address (.data .operandAs i)⟩, ⟨order, order, address (.data .operandBs i)⟩,
    ⟨order, order, address (.data .products i)⟩⟩

theorem setUpMatrices_layout (log : Bool) (granted : MatricesGranted n address arrays creations) (positive : 0 < order)
    (fits : order * order < 2 ^ 63) (short : (n : Int) * 8 < 2 ^ 64) :
    ∃ heap, setUpMatrices ⟨order, n, log⟩ arrays creations .empty = .ok (mainArrays address, heap) ∧
      MainLayout n order address (newCells order) (MatrixSlot.ofMain n) heap := by
  have others {slot : MatrixSlot} {one two : MatrixArrayName} (different : two ≠ one) (here : slot.ofArray n one) :
      ¬slot.ofArray n two := fun there => different (MatrixSlot.ofArray_unique here there)
  have start : MainLayout n order address (newCells order) (fun _ => False) MatrixHeap.empty :=
    .empty fun _ => id
  obtain ⟨heap₁, run₁, layout₁⟩ := createMatrixArray_layout .operandAs granted positive fits short start
    fun _ _ => id
  obtain ⟨heap₂, run₂, layout₂⟩ := createMatrixArray_layout .operandBs granted positive fits short layout₁
    fun slot here =>
    not_or.mpr ⟨id, others (by decide) here⟩
  obtain ⟨heap₃, run₃, layout₃⟩ := createMatrixArray_layout .products granted positive fits short layout₂
    fun slot here =>
    not_or.mpr ⟨not_or.mpr ⟨id, others (by decide) here⟩, others (by decide) here⟩
  refine ⟨heap₃, ?_, layout₃.congr fun slot => ?_⟩
  · simp only [setUpMatrices, run₁, run₂, run₃, bind, Except.bind, mainArrays]
  · constructor
    · rintro (((impossible | here) | here) | here)
      · exact impossible.elim
      · exact ⟨_, here⟩
      · exact ⟨_, here⟩
      · exact ⟨_, here⟩
    · rintro ⟨name, here⟩
      cases name with
      | operandAs => exact Or.inl (Or.inl (Or.inr here))
      | operandBs => exact Or.inl (Or.inr here)
      | products => exact Or.inr here

theorem freeMatrices_layout {log : Bool} (apart : Function.Injective address)
    (layout : MainLayout n order address cells (MatrixSlot.ofMain n) heap) :
    freeMatrices ⟨order, n, log⟩ (mainArrays address) heap = .ok .empty := by
  have others {slot : MatrixSlot} {one two : MatrixArrayName} (different : two ≠ one) (here : slot.ofArray n one) :
      ¬slot.ofArray n two := fun there => different (MatrixSlot.ofArray_unique here there)
  obtain ⟨heap₁, run₁, layout₁⟩ := freeMatrixArray_layout .operandAs apart layout fun slot here => ⟨_, here⟩
  obtain ⟨heap₂, run₂, layout₂⟩ := freeMatrixArray_layout .operandBs apart layout₁ fun slot here =>
    ⟨⟨_, here⟩, others (by decide) here⟩
  obtain ⟨heap₃, run₃, layout₃⟩ := freeMatrixArray_layout .products apart layout₂ fun slot here =>
    ⟨⟨⟨_, here⟩, others (by decide) here⟩, others (by decide) here⟩
  have nothing : heap₃ = .empty := layout₃.eq_empty fun slot => by
    rintro ⟨⟨⟨⟨name, here⟩, notA⟩, notB⟩, notProduct⟩
    cases name with
    | operandAs => exact notA here
    | operandBs => exact notB here
    | products => exact notProduct here
  simp only [freeMatrices, mainArrays, run₁, run₂, run₃, bind, Except.bind, nothing]

theorem filled_layout (layout : MainLayout n order address cells used heap)
    (memory : MatrixMemory) :
    MainLayout n order address (fun q => (memory q).map some) used (heap.filled memory) where
  stored slot here := by
    have block := layout.stored slot here
    cases slot <;> simp only [MatrixHeap.filled, MatrixSlot.block] at block ⊢ <;> rw [block]
  others a outside := by rw [MatrixHeap.filled, layout.others a outside]

theorem loadMatrix_layout {i : Nat} (below : i < n)
    (layout : MainLayout n order address cells (MatrixSlot.ofMain n) heap) :
    loadMatrix heap (address (.array name)) i = .ok ⟨order, order, address (.data name i)⟩ := by
  have array := layout.stored (.array name) ⟨name, rfl⟩
  have matrix := layout.stored (.matrix name i) ⟨name, rfl, below⟩
  simp only [MatrixSlot.block] at array matrix
  simp [loadMatrix, loadEntry, array, below, bind, Except.bind, matrix]

theorem loadOperations_layout {log : Bool}
    (layout : MainLayout n order address cells (MatrixSlot.ofMain n) heap) :
    loadOperations heap (mainArrays address) ⟨order, n, log⟩ =
      .ok ((List.range n).map (mainOperation order address)) := by
  obtain ⟨ops, run, done⟩ : ∃ ops, forRange 0 n (appendOperation heap (mainArrays address)) [] = .ok ops ∧ _ :=
    forRange_count (I := fun k ops => ops = (List.range k).map (mainOperation order address)) rfl
      fun k ops below inv => by
        refine ⟨ops ++ [mainOperation order address k], ?_, by rw [inv, List.range_succ, List.map_append]; rfl⟩
        simp only [appendOperation, loadOperation, mainArrays, loadMatrix_layout below layout, bind, Except.bind,
          mainOperation]
  exact run.trans (congrArg _ done)

end Blocks

section Operations
variable {n : Nat} {order : Int} {address : MatrixSlot → Nat} {heap : MatrixHeap} {memory : MatrixMemory}

theorem mainOperation_shaped (bounds : PositiveInt order) :
    ∀ op ∈ (List.range n).map (mainOperation order address), op.Shaped := by
  intro op member
  obtain ⟨i, -, rfl⟩ := List.mem_map.mp member
  exact ⟨rfl, rfl, rfl, bounds, bounds, bounds⟩

theorem mainOperation_apart (apart : Function.Injective address) :
    (((List.range n).map (mainOperation order address)).flatMap Operation.arrays).Nodup := by
  have slots : ((List.range n).map (mainOperation order address)).flatMap Operation.arrays =
      ((List.range n).flatMap fun i => [MatrixSlot.data .operandAs i, .data .operandBs i, .data .products i]).map
        address := by
    rw [List.flatMap_map, List.map_flatMap]
    rfl
  rw [slots]
  refine List.Nodup.map apart (List.nodup_flatMap.mpr ⟨fun i _ => by simp, ?_⟩)
  refine List.Nodup.pairwise_of_forall_ne List.nodup_range fun i _ j _ other => ?_
  simp [Function.onFun, List.Disjoint, other]

/-- Any cells of the right number may be what the new blocks hold. -/
theorem new_shows (layout : MainLayout n order address (newCells order) (MatrixSlot.ofMain n) heap)
    (lengths : ∀ q, (memory q).length = matrixRoom order order) : heap.Shows memory := by
  intro q cells here
  by_cases used : ∃ slot, MatrixSlot.ofMain n slot ∧ q = address slot
  · obtain ⟨slot, inside, rfl⟩ := used
    have stored := here.symm.trans (layout.stored slot inside)
    cases slot <;> cases stored
    exact ⟨by rw [lengths, newCells, List.length_replicate], fun i value assigned => by
      simp [newCells, List.getElem?_replicate] at assigned⟩
  · rw [layout.others q fun slot inside same => used ⟨slot, inside, same⟩] at here
    cases here

theorem mainOperation_cells {op : Operation} {block : Nat} (shows : heap.Shows memory)
    (layout : MainLayout n order address (newCells order) (MatrixSlot.ofMain n) heap)
    (member : op ∈ (List.range n).map (mainOperation order address)) (inside : block ∈ op.arrays) :
    (memory block).length = matrixRoom order order := by
  obtain ⟨i, below, rfl⟩ := List.mem_map.mp member
  have cells (name : MatrixArrayName) : (memory (address (.data name i))).length = matrixRoom order order := by
    rw [(shows _ _ (layout.stored (.data name i) ⟨name, rfl, List.mem_range.mp below⟩)).1, newCells,
      List.length_replicate]
  simp only [Operation.arrays, mainOperation, List.mem_cons, List.not_mem_nil, or_false] at inside
  rcases inside with rfl | rfl | rfl
  · exact cells .operandAs
  · exact cells .operandBs
  · exact cells .products

theorem mainOperation_allocated (bounds : PositiveInt order) (fits : order * order * 8 < 2 ^ 64)
    (shows : heap.Shows memory)
    (layout : MainLayout n order address (newCells order) (MatrixSlot.ofMain n) heap) :
    ∀ op ∈ (List.range n).map (mainOperation order address), op.Allocated memory := by
  have room : (matrixRoom order order : Int) = order * order := by
    have cells := Int.mul_pos bounds.1 bounds.1
    unfold matrixRoom
    omega
  intro op member
  have cells {block : Nat} (inside : block ∈ op.arrays) : ((memory block).length : Int) = order * order := by
    rw [mainOperation_cells shows layout member inside, room]
  obtain ⟨i, -, rfl⟩ := List.mem_map.mp member
  exact ⟨cells (by simp [Operation.arrays]), cells (by simp [Operation.arrays]), cells (by simp [Operation.arrays])⟩

/-- The queue that main finds when WP_join has returned. -/
theorem parallel_queue {limits : QueueLimits} {single : Bool} {workers : Nat} {τ Λ μ : Type} {func : TaskFunc τ Λ μ}
    {tasks : List τ} {contents : μ} {s : PoolState workers Unit τ Λ μ} (positive : 0 < workers)
    (reach : (poolSystem (singleProducer limits single func tasks contents) workers).Reach s)
    (joined : s.joined = workers) :
    sanityChecks s.monitor.queue = some (.ok ()) ∧ queueFree 1 s.monitor.queue = some fun _ => none := by
  obtain ⟨cs, exited, -, -, -, rep⟩ := pool_drained positive reach joined
  have dispatched : s.monitor.queue.dispatched = 0 := by
    rw [pool_dispatched reach]
    simp [exited, WorkerState.counted]
  refine ⟨sanityChecks_drained rep dispatched, ?_⟩
  rw [rep.freed, rep.drained.1]
  rfl

end Operations

/-- The log file at the end of main, where `old` is what it holds before. The call of fopen is taken to open it. -/
def Options.storeLog (options : Options) (ops : List Operation) (memory : MatrixMemory) (old : Option (List Char)) :
    Except MatrixFault (Option (List Char)) :=
  if options.logProducts then (writeLog ops memory).map some else .ok old

/-- Both programs from their arguments to the end, and the script on their log. With a byte count that does not wrap,
with memory granted, and with the right pointers as the results of MATRIX_create: whatever the new blocks hold, `rand`
answers and the scheduler does, both programs multiply without a fault and come to their logs. If they are asked for
them, these are the same and the script passes them, otherwise no log is touched. The arrays of pointers, the matrices
and the chunks of the queue are all freed. -/
theorem matrix_programs_verified {argv : List Bytes} {options : Options} {address : MatrixSlot → Nat}
    {arrays : MatrixArrayName → Option Nat} {creations : MatrixArrayName → Nat → MatrixCreation}
    (accepted : optionsSet argv = .ok options) (fits : options.matrixOrder * options.matrixOrder * 8 < 2 ^ 64)
    (granted : MatricesGranted options.operations.toNat address arrays creations) (rand : Nat → Nat) (single : Bool) :
    ∃ heap ops, setUpMatrices options arrays creations .empty = .ok (mainArrays address, heap) ∧
      loadOperations heap (mainArrays address) options = .ok ops ∧ ops.length = options.operations.toNat ∧
      ∀ before old, heap.Shows before →
        ∃ memory calls tasks final file, initOperands rand ops before = .ok (memory, calls) ∧
          requestAll 1000 ops = .ok tasks ∧ multiplyAll ops memory = .ok final ∧
          options.storeLog ops final old = .ok file ∧
          (∀ s : PoolState 16 Unit MultiplicationTask SubMultiplication MatrixMemory,
            (poolSystem (singleProducer .source single subMultiplicationHandler tasks memory) 16).Reach s →
            (∃ rest t, (poolSystem (singleProducer .source single subMultiplicationHandler tasks memory) 16).exec s
              rest = some t ∧ t.joined = 16) ∧
            (s.joined = 16 →
              s.memory = final ∧ sanityChecks s.monitor.queue = some (.ok ()) ∧
                queueFree 1 s.monitor.queue = some fun _ => none)) ∧
          freeMatrices options (mainArrays address) (heap.filled final) = .ok .empty ∧
          (options.logProducts = false → file = old) ∧
          (options.logProducts = true → ∀ fuel, ops.length < fuel → ∀ equal, NumpyProduct equal →
            ∃ result, checkAnswers equal fuel file = .ok result ∧ result.code = 0) := by
  have ⟨orderBounds, countBounds⟩ := optionsSet_bounds accepted
  obtain ⟨order, operations, logProducts⟩ := options
  obtain ⟨n, rfl⟩ : ∃ n : Nat, operations = n := Int.eq_ofNat_of_zero_le (Int.le_of_lt countBounds.1)
  simp only [Int.toNat_natCast] at granted fits orderBounds countBounds ⊢
  have short := countBounds.2
  obtain ⟨heap, setUp, layout⟩ := setUpMatrices_layout logProducts granted orderBounds.1 (by omega) (by omega)
  refine ⟨heap, _, setUp, loadOperations_layout layout, by simp, fun before old shows => ?_⟩
  have room : matrixRoom order order * 8 < 2 ^ 64 := by
    unfold matrixRoom
    omega
  have allocated := mainOperation_allocated orderBounds fits shows layout
  obtain ⟨work, calls, ops, init⟩ :=
    exists_workload rand (mainOperation_shaped orderBounds) (mainOperation_apart granted.apart) allocated
  rw [← ops] at allocated init ⊢
  have sizes := work.sizes allocated fun op member block inside => by
    rw [mainOperation_cells shows layout (ops ▸ member) inside]
    omega
  have chunk : (1 : Int) ≤ 1000 ∧ (1000 : Int) < 2 ^ 31 := by decide
  obtain ⟨tasks, final, text, requested, sequential, written, parallel, passes⟩ :=
    work.log_verified .source single (by decide : 0 < 16) chunk sizes
  refine ⟨work.memory, calls, tasks, final, if logProducts then some text else old, init, requested, sequential, ?_,
    fun s reach => ⟨(parallel s reach).1, fun joined => ?_⟩,
    freeMatrices_layout granted.apart (filled_layout layout final), fun off => if_neg (Bool.eq_false_iff.mp off),
    fun on => ?_⟩
  · cases logProducts with
    | false => rfl
    | true => simp only [Options.storeLog, if_true, written, Except.map]
  · exact ⟨(parallel s reach).2 joined, parallel_queue (by decide) reach joined⟩
  · rw [if_pos on]
    exact passes

def MatrixArrayName.number : MatrixArrayName → Nat
  | .operandAs => 0
  | .operandBs => 1
  | .products => 2

/-- Some addresses for the blocks of main. -/
def MatrixSlot.place : MatrixSlot → Nat
  | .array name => name.number
  | .matrix name i => 6 * i + 2 * name.number + 3
  | .data name i => 6 * i + 2 * name.number + 4

theorem MatrixSlot.place_injective : Function.Injective MatrixSlot.place := by
  have number {one two : MatrixArrayName} (same : one.number = two.number) : one = two := by
    cases one <;> cases two <;> first | rfl | cases same
  have few (name : MatrixArrayName) : name.number < 3 := by cases name <;> decide
  intro left right same
  rcases left with one | ⟨one, i⟩ | ⟨one, i⟩ <;> rcases right with two | ⟨two, j⟩ | ⟨two, j⟩ <;>
    simp only [MatrixSlot.place] at same <;> have := few one <;> have := few two
  all_goals first | omega | skip
  · rw [number same]
  · rw [number (show one.number = two.number by omega), show i = j by omega]
  · rw [number (show one.number = two.number by omega), show i = j by omega]

/-- Both programs for two operations on matrices of order 32, so with two chunks each, where the blocks hold 7 at
first. The 16 workers are joined in the end, and the script passes the log. -/
theorem matrix_programs_verified_order_32 : ∃ options heap ops memory calls tasks final file s result,
    optionsSet [ascii "par", ascii "32", ascii "2", ascii "1"] = .ok options ∧
      setUpMatrices options (fun name => some (MatrixSlot.array name).place) (fun name i =>
        ⟨some (MatrixSlot.matrix name i).place, some (MatrixSlot.data name i).place,
          some (MatrixSlot.matrix name i).place⟩) .empty = .ok (mainArrays MatrixSlot.place, heap) ∧
      loadOperations heap (mainArrays MatrixSlot.place) options = .ok ops ∧ ops.length = 2 ∧
      initOperands (fun call => 7 + 5 * call) ops (fun _ => List.replicate 1024 7) = .ok (memory, calls) ∧
      requestAll 1000 ops = .ok tasks ∧ multiplyAll ops memory = .ok final ∧
      options.storeLog ops final none = .ok file ∧
      (poolSystem (singleProducer .source true subMultiplicationHandler tasks memory) 16).Reach s ∧ s.joined = 16 ∧
      s.memory = final ∧ sanityChecks s.monitor.queue = some (.ok ()) ∧
      freeMatrices options (mainArrays MatrixSlot.place) (heap.filled final) = .ok .empty ∧
      checkAnswers exactEqual 3 file = .ok result ∧ result.code = 0 := by
  have accepted : optionsSet [ascii "par", ascii "32", ascii "2", ascii "1"] = .ok ⟨32, 2, true⟩ := by decide +kernel
  have granted : MatricesGranted 2 MatrixSlot.place (fun name => some (MatrixSlot.array name).place) fun name i =>
      ⟨some (MatrixSlot.matrix name i).place, some (MatrixSlot.data name i).place,
        some (MatrixSlot.matrix name i).place⟩ :=
    ⟨MatrixSlot.place_injective, fun _ => rfl, fun _ _ _ => rfl⟩
  obtain ⟨heap, ops, setUp, load, count, rest⟩ :=
    matrix_programs_verified accepted (by decide) granted (fun call => 7 + 5 * call) true
  have shows : heap.Shows fun _ => List.replicate 1024 7 := by
    obtain ⟨same, run, layout⟩ := setUpMatrices_layout true granted (by decide : (0 : Int) < 32) (by decide) (by decide)
    cases run.symm.trans setUp
    exact new_shows layout fun _ => List.length_replicate
  obtain ⟨memory, calls, tasks, final, file, init, requested, sequential, stored, parallel, freed, -, passes⟩ :=
    rest _ none shows
  have start : (poolSystem (singleProducer .source true subMultiplicationHandler tasks memory) 16).Reach
      (.start _ 16 0) := .start ⟨0, rfl⟩
  obtain ⟨⟨schedule, s, run, joined⟩, -⟩ := parallel _ start
  obtain ⟨same, sane, -⟩ := (parallel s (start.exec run)).2 joined
  obtain ⟨result, checked, code⟩ := passes rfl 3 (by rw [count]; decide) exactEqual exactEqual_numpy
  exact ⟨_, heap, ops, memory, calls, tasks, final, file, s, result, accepted, setUp, load, count, init, requested,
    sequential, stored, start.exec run, joined, same, sane, freed, checked, code⟩

end PCProject
