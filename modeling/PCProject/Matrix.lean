import PCProject.Lib.CountedLoop
import PCProject.Lib.FlatMatrix

namespace PCProject

/-- How the matrix code stops early: it exits with a message, or its behaviour is undefined. -/
inductive MatrixFault
  | invalidDimension
  | overflow
  | outOfBounds
  | divisionByZero
  | endless

def MatrixFault.message : MatrixFault → Option String
  | .invalidDimension => some "ERROR! Invalid matrix dimension for multiplication\n"
  | _ => none

/-- The result of an operation on `long long int`. -/
def checked (value : Int) : Except MatrixFault Int :=
  if -2 ^ 63 ≤ value ∧ value < 2 ^ 63 then .ok value else .error .overflow

/-- The data arrays, by the address that `malloc` returned for them. -/
abbrev MatrixMemory := Nat → List Int

/-- A matrix; `data` is the address of its flattened cells. -/
structure Matrix where
  rows : Int
  cols : Int
  data : Nat

def matrixIdx (row col : Int) (m : Matrix) : Except MatrixFault Int := do
  let start ← checked (row * m.cols)
  checked (start + col)

def MatrixMemory.cell (memory : MatrixMemory) (block : Nat) (idx : Int) : Int := (memory block).getD idx.toNat 0

def load (memory : MatrixMemory) (block : Nat) (idx : Int) : Except MatrixFault Int :=
  if 0 ≤ idx ∧ idx < (memory block).length then .ok (memory.cell block idx) else .error .outOfBounds

/-- Memory after an assignment to a cell. -/
def MatrixMemory.set (memory : MatrixMemory) (block : Nat) (idx value : Int) : MatrixMemory :=
  Function.update memory block ((memory block).set idx.toNat value)

def store (memory : MatrixMemory) (block : Nat) (idx value : Int) : Except MatrixFault MatrixMemory :=
  if 0 ≤ idx ∧ idx < (memory block).length then .ok (memory.set block idx value) else .error .outOfBounds

/-- The assignment `res->data[idx] += a->data[MATRIX_idx(row, k, a)] * b->data[MATRIX_idx(k, col, b)]`. -/
def addProduct (a b res : Matrix) (row col k idx : Int) (memory : MatrixMemory) : Except MatrixFault MatrixMemory := do
  let left ← load memory a.data (← matrixIdx row k a)
  let right ← load memory b.data (← matrixIdx k col b)
  let product ← checked (left * right)
  let old ← load memory res.data idx
  let sum ← checked (old + product)
  store memory res.data idx sum

/-- One multiplication: both operands and the matrix for the product. -/
structure Operation where
  operandA : Matrix
  operandB : Matrix
  product : Matrix

/-- The check that both programs make before they multiply. -/
def Operation.invalid (op : Operation) : Bool :=
  op.operandA.cols ≠ op.operandB.rows || op.operandA.rows ≠ op.product.rows || op.operandB.cols ≠ op.product.cols

/-- The body of the innermost loop of `multiply`. -/
def multiplyTerm (op : Operation) (row col k : Int) (memory : MatrixMemory) : Except MatrixFault MatrixMemory := do
  let idx ← matrixIdx row col op.product
  addProduct op.operandA op.operandB op.product row col k idx memory

def multiplyCell (op : Operation) (row col : Int) (memory : MatrixMemory) : Except MatrixFault MatrixMemory := do
  let idx ← matrixIdx row col op.product
  let memory ← store memory op.product.data idx 0
  forRange 0 op.operandA.cols (multiplyTerm op row col) memory

def multiplyRow (op : Operation) (row : Int) (memory : MatrixMemory) : Except MatrixFault MatrixMemory :=
  forRange 0 op.product.cols (multiplyCell op row) memory

/-- `multiply` of the sequential program. -/
def multiply (op : Operation) (memory : MatrixMemory) : Except MatrixFault MatrixMemory :=
  if op.invalid then .error .invalidDimension else forRange 0 op.product.rows (multiplyRow op) memory

/-- The loop of the sequential program over its operations. -/
def multiplyAll (ops : List Operation) (memory : MatrixMemory) : Except MatrixFault MatrixMemory :=
  ops.foldlM (fun memory op => multiply op memory) memory

end PCProject
