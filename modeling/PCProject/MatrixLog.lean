import PCProject.ProductCells
import PCProject.Lib.PyText

namespace PCProject

/-- `fprintf(fd, "%ld ", ...)` for one cell. The state is the text written so far. -/
def printCell (m : Matrix) (memory : MatrixMemory) (row col : Int) (out : List Char) :
    Except MatrixFault (List Char) := do
  let idx ← matrixIdx row col m
  let value ← load memory m.data idx
  .ok (out ++ Py.decimal value ++ [' '])

def printRow (m : Matrix) (memory : MatrixMemory) (row : Int) (out : List Char) : Except MatrixFault (List Char) := do
  let out ← forRange 0 m.cols (printCell m memory row) out
  .ok (out ++ ['\n'])

/-- `MATRIX_print`. -/
def matrixPrint (m : Matrix) (memory : MatrixMemory) (out : List Char) : Except MatrixFault (List Char) :=
  forRange 0 m.rows (printRow m memory)
    (out ++ "Matrix<".toList ++ Py.decimal m.rows ++ ", ".toList ++ Py.decimal m.cols ++ ">\n".toList)

/-- The body of the loop of main over the operations, when it stores them in the log. -/
def logOperation (memory : MatrixMemory) (i : Int) (op : Operation) (out : List Char) :
    Except MatrixFault (List Char) := do
  let out ← matrixPrint op.operandA memory (out ++ "Operation ".toList ++ Py.decimal i ++ ":\n".toList)
  let out ← matrixPrint op.operandB memory out
  matrixPrint op.product memory out

def logOperations (memory : MatrixMemory) (i : Int) : List Operation → List Char → Except MatrixFault (List Char)
  | [], out => .ok out
  | op :: rest, out => do
    let out ← logOperation memory i op out
    logOperations memory (i + 1) rest out

/-- The text of `PRODUCTS_LOG_FILE`. -/
def writeLog (ops : List Operation) (memory : MatrixMemory) : Except MatrixFault (List Char) :=
  logOperations memory 0 ops []

/-- A matrix of 64-bit integers whose array is an object in memory. -/
structure Matrix.Stored (m : Matrix) (memory : MatrixMemory) : Prop where
  rows_pos : 1 ≤ m.rows
  cols_pos : 1 ≤ m.cols
  length : (memory m.data).length = m.rows * m.cols
  size : 8 * (memory m.data).length < 2 ^ 64
  cells : ∀ value ∈ memory m.data, -2 ^ 63 ≤ value ∧ value < 2 ^ 63

/-- The rows of a matrix. -/
def Matrix.table (m : Matrix) (memory : MatrixMemory) : List (List Int) :=
  (List.range m.rows.toNat).map fun row : Nat => (List.range m.cols.toNat).map fun col : Nat =>
    memory.cell m.data (row * m.cols + col)

/-- The lines of the log, without their ends. -/
def rowLine (row : List Int) : List Char := row.flatMap fun value => Py.decimal value ++ [' ']

def headerLine (rows cols : Int) : List Char :=
  "Matrix<".toList ++ Py.decimal rows ++ ", ".toList ++ Py.decimal cols ++ ">".toList

def Matrix.lines (m : Matrix) (memory : MatrixMemory) : List (List Char) :=
  headerLine m.rows m.cols :: (m.table memory).map rowLine

def operationLine (i : Int) : List Char := "Operation ".toList ++ Py.decimal i ++ ":".toList

def Operation.lines (memory : MatrixMemory) (i : Int) (op : Operation) : List (List Char) :=
  operationLine i :: op.operandA.lines memory ++ op.operandB.lines memory ++ op.product.lines memory

def logLines (memory : MatrixMemory) (i : Int) : List Operation → List (List Char)
  | [] => []
  | op :: rest => op.lines memory i ++ logLines memory (i + 1) rest

/-- Lines with their ends. -/
def unlines (lines : List (List Char)) : List Char := lines.flatMap (· ++ ['\n'])

variable {m : Matrix} {memory : MatrixMemory} {row col : Int}

@[simp] theorem unlines_append (lines more : List (List Char)) :
    unlines (lines ++ more) = unlines lines ++ unlines more :=
  List.flatMap_append

@[simp] theorem unlines_cons (line : List Char) (lines : List (List Char)) :
    unlines (line :: lines) = line ++ '\n' :: unlines lines := by
  simp [unlines]

theorem Matrix.Stored.cell_printed (stored : m.Stored memory) (out : List Char) (above : 0 ≤ row)
    (below : row < m.rows) (left : 0 ≤ col)
    (right : col < m.cols) : printCell m memory row col out =
      .ok (out ++ (Py.decimal (memory.cell m.data (row * m.cols + col)) ++ [' '])) := by
  have inside := flat_lt above below left right
  have start : 0 ≤ row * m.cols := Int.mul_nonneg above (by omega)
  have length := stored.length
  have size := stored.size
  have idx : matrixIdx row col m = .ok (row * m.cols + col) := by
    unfold matrixIdx
    rw [checked_ok (by omega) (by omega)]
    exact checked_ok (by omega) (by omega)
  have loaded : load memory m.data (row * m.cols + col) = .ok (memory.cell m.data (row * m.cols + col)) :=
    load_ok inside.1 (by omega)
  unfold printCell
  rw [idx, ← List.append_assoc]
  simp only [loaded, bind, Except.bind]

/-- A loop that appends a text in every round. -/
theorem forRange_append (out : List Char) {hi : Int} {body : Int → List Char → Except MatrixFault (List Char)}
    {text : Nat → List Char}
    (above : 0 ≤ hi) (round : ∀ i : Nat, i < hi → ∀ out, body i out = .ok (out ++ text i)) :
    forRange 0 hi body out = .ok (out ++ (List.range hi.toNat).flatMap text) := by
  obtain ⟨n, rfl⟩ := Int.eq_ofNat_of_zero_le above
  have enter : out = out ++ (List.range 0).flatMap text := by simp
  obtain ⟨written, run, same⟩ := forRange_count (I := fun k s => s = out ++ (List.range k).flatMap text) enter
    fun k s below same => by
      refine ⟨_, round k (Int.ofNat_lt.mpr below) s, ?_⟩
      rw [same, List.range_succ, List.flatMap_append]
      simp
  rw [run, same, Int.toNat_natCast]

theorem Matrix.Stored.row_printed (stored : m.Stored memory) (out : List Char) (above : 0 ≤ row)
    (below : row < m.rows) :
    printRow m memory row out = .ok (out ++ (rowLine ((List.range m.cols.toNat).map fun col : Nat =>
      memory.cell m.data (row * m.cols + col)) ++ ['\n'])) := by
  have cols_pos := stored.cols_pos
  have cells := forRange_append out (by omega : 0 ≤ m.cols) fun col right out =>
    stored.cell_printed out above below (Int.natCast_nonneg col) right
  unfold printRow
  simp only [cells, rowLine, List.flatMap_map, List.append_assoc, bind, Except.bind]

/-- `MATRIX_print` writes the lines of the matrix. -/
theorem Matrix.Stored.printed (stored : m.Stored memory) (out : List Char) :
    matrixPrint m memory out = .ok (out ++ unlines (m.lines memory)) := by
  have rows_pos := stored.rows_pos
  have rows : ∀ start, forRange 0 m.rows (printRow m memory) start =
      .ok (start ++ unlines ((m.table memory).map rowLine)) := by
    intro start
    have written := forRange_append start (by omega : 0 ≤ m.rows) fun row below out =>
      stored.row_printed out (Int.natCast_nonneg row) below
    rw [written]
    simp only [unlines, Matrix.table, List.flatMap_map]
  have ending : ">\n".toList = ">".toList ++ ['\n'] := rfl
  unfold matrixPrint Matrix.lines headerLine
  rw [rows, unlines_cons, ending]
  simp only [List.append_assoc, List.singleton_append]

/-- The matrices of an operation fit together. -/
structure Operation.Stored (op : Operation) (memory : MatrixMemory) : Prop where
  operandA : op.operandA.Stored memory
  operandB : op.operandB.Stored memory
  product : op.product.Stored memory
  inner : op.operandA.cols = op.operandB.rows
  rows : op.operandA.rows = op.product.rows
  cols : op.operandB.cols = op.product.cols

theorem Operation.Stored.printed {op : Operation} {i : Int} (stored : op.Stored memory) (out : List Char) :
    logOperation memory i op out = .ok (out ++ unlines (op.lines memory i)) := by
  have ending : ":\n".toList = ":".toList ++ ['\n'] := rfl
  unfold logOperation Operation.lines operationLine
  rw [stored.operandA.printed]
  dsimp only [bind, Except.bind]
  rw [stored.operandB.printed]
  dsimp only
  rw [stored.product.printed, ending, unlines_append, unlines_append, unlines_cons]
  simp only [List.append_assoc, List.cons_append, List.nil_append]

/-- main writes the lines of all operations. -/
theorem logOperations_printed {ops : List Operation} {i : Int} (out : List Char)
    (stored : ∀ op ∈ ops, op.Stored memory) :
    logOperations memory i ops out = .ok (out ++ unlines (logLines memory i ops)) := by
  induction ops generalizing i out with
  | nil => simp [logOperations, logLines, unlines]
  | cons op rest ih =>
    unfold logOperations logLines
    simp only [(stored op List.mem_cons_self).printed, bind, Except.bind]
    rw [ih _ fun other member => stored other (List.mem_cons_of_mem _ member), unlines_append, List.append_assoc]

end PCProject
