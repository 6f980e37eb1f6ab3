import PCProject.Matrix
import PCProject.Lib.CString
import PCProject.Lib.LinkedCells

namespace PCProject

structure Options where
  matrixOrder : Int
  operations : Int
  logProducts : Bool
  deriving DecidableEq

/-- How OPTIONS_set can end without options. -/
inductive OptionsStop
  | invalidArguments (program : Bytes)
  | undefined
  deriving DecidableEq

def OptionsStop.message : OptionsStop → Option Bytes
  | .invalidArguments program => some (ascii "ERROR! Invalid arguments to `" ++ program ++
    ascii "`. Expected usage: `" ++
      program ++ ascii " matrix_order\x7bnumber > 0\x7d operations\x7bnumber > 0\x7d log_products\x7bnumber != 0?\x7d`\n")
  | .undefined => none

/-- `(argc > i)? atoi(argv[i]) : otherwise`. The arguments are listed without their NUL. -/
def optionAt (argv : List Bytes) (i : Nat) (otherwise : Int) : Except OptionsStop Int :=
  match argv[i]? with
  | none => .ok otherwise
  | some argument => (atoi (argument ++ [0])).elim (.error .undefined) .ok

def optionsSet (argv : List Bytes) : Except OptionsStop Options := do
  let matrixOrder ← optionAt argv 1 0
  let operations ← optionAt argv 2 1
  let logProducts ← optionAt argv 3 0
  if matrixOrder ≤ 0 ∨ operations ≤ 0 then .error (.invalidArguments (argv.headD []))
  else .ok ⟨matrixOrder, operations, logProducts ≠ 0⟩

/-- A block from `malloc`, with `none` for what has not been assigned. An entry of an array of
pointers is `some none` where it is NULL. -/
inductive MatrixBlock
  | matrix (fields : Option Matrix)
  | cells (data : List (Option Int))
  | array (entries : List (Option (Option Nat)))

abbrev MatrixHeap := Cells Nat MatrixBlock

def MatrixHeap.empty : MatrixHeap := fun _ => none

/-- What a call of MATRIX_create meets: the answers of its two calls of `malloc`, and the value that
its caller finds as the result. The function ends without a `return`, so this may be any value. -/
structure MatrixCreation where
  matrix : Option Nat
  data : Option Nat
  returned : Option Nat

/-- How the functions can end early: they exit with a message, or their behaviour is undefined, or
`malloc` does not give such an answer. -/
inductive MatrixStop
  | invalidDimensions (rows cols : Int)
  | noMatrix
  | noArray
  | undefined
  | unanswered

/-- The two numbers are printed as values of type `int`. -/
def MatrixStop.message : MatrixStop → Option String
  | .invalidDimensions rows cols =>
    some ("ERROR! Invalid dimensions for matrix (" ++ toString (rows.bmod (2 ^ 32)) ++ ", " ++
      toString (cols.bmod (2 ^ 32)) ++ ")\n")
  | .noMatrix => some "ERROR! Could not allocated memory for matrix :(\n"
  | .noArray => some "ERROR! Could not allocated memory for the matrices :(\n"
  | .undefined | .unanswered => none

/-- `malloc` has returned `p`. -/
def matrixMalloc (heap : MatrixHeap) (p : Nat) (block : MatrixBlock) : Except MatrixStop MatrixHeap :=
  if (heap p).isNone then .ok (heap.store p block) else .error .unanswered

/-- `rows * cols * sizeof(long long int)`: a product of type `long long int`, then one of type `size_t`. -/
def matrixBytes (rows cols : Int) : Except MatrixStop Nat :=
  if rows * cols < 2 ^ 63 then .ok (rows * cols * 8 % 2 ^ 64).toNat else .error .undefined

def matrixCreate (rows cols : Int) (creation : MatrixCreation) (heap : MatrixHeap) :
    Except MatrixStop (Option Nat × MatrixHeap) :=
  if rows ≤ 0 ∨ cols ≤ 0 then .error (.invalidDimensions rows cols)
  else match creation.matrix with
  | none => .error .noMatrix
  | some p => do
    let heap ← matrixMalloc heap p (.matrix none)
    let bytes ← matrixBytes rows cols
    match creation.data with
    | none => .error .noMatrix
    | some q => do
      let heap ← matrixMalloc heap q (.cells (List.replicate (bytes / 8) none))
      .ok (creation.returned, heap.store p (.matrix (some ⟨rows, cols, q⟩)))

/-- `array[i]` as a value. -/
def loadEntry (heap : MatrixHeap) (array : Nat) (i : Int) : Except MatrixStop (Option Nat) :=
  match heap array with
  | some (.array entries) => if 0 ≤ i then (entries[i.toNat]?).join.elim (.error .undefined) .ok else .error .undefined
  | _ => .error .undefined

/-- The assignment `array[i] = matrix`. -/
def storeEntry (heap : MatrixHeap) (array : Nat) (i : Int) (matrix : Option Nat) : Except MatrixStop MatrixHeap :=
  match heap array with
  | some (.array entries) =>
    if 0 ≤ i ∧ i < entries.length then .ok (heap.store array (.array (entries.set i.toNat (some matrix))))
    else .error .undefined
  | _ => .error .undefined

/-- The body of the loop of `create_matrix_array`. -/
def createEntry (rows cols : Int) (array : Nat) (creations : Nat → MatrixCreation) (i : Int) (heap : MatrixHeap) :
    Except MatrixStop MatrixHeap := do
  let (matrix, heap) ← matrixCreate rows cols (creations i.toNat) heap
  storeEntry heap array i matrix

/-- `malloc` answers `array` to the request for the pointers, and `creations` lists the calls of
MATRIX_create. -/
def createMatrixArray (size rows cols : Int) (array : Option Nat) (creations : Nat → MatrixCreation)
    (heap : MatrixHeap) : Except MatrixStop (Nat × MatrixHeap) :=
  match array with
  | none => .error .noArray
  | some p => do
    let heap ← matrixMalloc heap p (.array (List.replicate ((size * 8 % 2 ^ 64).toNat / 8) none))
    let heap ← forRange 0 size (createEntry rows cols p creations) heap
    .ok (p, heap)

def matrixFree (matrix : Option Nat) (heap : MatrixHeap) : Except MatrixStop MatrixHeap :=
  match matrix with
  | none => .error .undefined
  | some p =>
    match heap p with
    | some (.matrix (some m)) =>
      if (heap m.data).isSome then .ok ((heap.free m.data).free p) else .error .undefined
    | _ => .error .undefined

/-- The body of the loop of `free_matrix_array`. -/
def freeEntry (array : Nat) (i : Int) (heap : MatrixHeap) : Except MatrixStop MatrixHeap := do
  let matrix ← loadEntry heap array i
  matrixFree matrix heap

def freeMatrixArray (array : Nat) (size : Int) (heap : MatrixHeap) : Except MatrixStop MatrixHeap := do
  let heap ← forRange 0 size (freeEntry array) heap
  if (heap array).isSome then .ok (heap.free array) else .error .undefined

end PCProject
