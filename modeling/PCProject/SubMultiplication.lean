import PCProject.Matrix
import PCProject.WorkerPool

namespace PCProject

/-- The cells of `res` from `startIdx` to `endIdx`, the latter excluded. -/
structure MultiplicationTask where
  op1 : Matrix
  op2 : Matrix
  res : Matrix
  startIdx : Int
  endIdx : Int

/-- Where `sub_multiplication_handler` is: before the test of its outer or its inner loop, or
stopped by a fault. -/
inductive HandlerPoint
  | outer (row col idx : Int)
  | inner (row col idx k : Int)
  | faulted (fault : MatrixFault)

structure SubMultiplication where
  task : MultiplicationTask
  point : HandlerPoint

def SubMultiplication.enter (task : MultiplicationTask) : SubMultiplication where
  task := task
  point :=
    if task.res.cols = 0 then .faulted .divisionByZero
    else .outer (task.startIdx.tdiv task.res.cols) (task.startIdx.tmod task.res.cols) task.startIdx

/-- The handler goes on at some point if an assignment to `res` succeeds. -/
def SubMultiplication.write (h : SubMultiplication) (memory : MatrixMemory) (point : HandlerPoint) :
    Except MatrixFault MatrixMemory → SubMultiplication × MatrixMemory
  | .ok written => ({ h with point := point }, written)
  | .error fault => ({ h with point := .faulted fault }, memory)

/-- The row and the column of the next cell. The other counters stay below a bound that the
loops test, `row` and `col` are only compared with the last column. -/
def nextCell (res : Matrix) (row col : Int) : Except MatrixFault (Int × Int) := do
  let col ← checked (col + 1)
  if col = res.cols then
    let row ← checked (row + 1)
    .ok (row, 0)
  else .ok (row, col)

/-- One test of a loop with what follows it, up to and including the next assignment to `res`.
It is `none` where the handler returns; a faulted handler never does. -/
def SubMultiplication.step (h : SubMultiplication) (memory : MatrixMemory) :
    Option (SubMultiplication × MatrixMemory) :=
  match h.point with
  | .outer row col idx =>
    if idx < h.task.endIdx then some (h.write memory (.inner row col idx 0) (store memory h.task.res.data idx 0))
    else none
  | .inner row col idx k =>
    if k < h.task.op1.cols then
      some (h.write memory (.inner row col idx (k + 1))
        (addProduct h.task.op1 h.task.op2 h.task.res row col k idx memory))
    else match nextCell h.task.res row col with
      | .ok (row, col) => some ({ h with point := .outer row col (idx + 1) }, memory)
      | .error fault => some ({ h with point := .faulted fault }, memory)
  | .faulted _ => some (h, memory)

/-- The function that `main` hands to WP_create. -/
def subMultiplicationHandler : TaskFunc MultiplicationTask SubMultiplication MatrixMemory where
  enter := SubMultiplication.enter
  step := SubMultiplication.step

/-- The loop of `request_multiplication` from some index on. No more than `maxIdx` rounds are
needed, unless the chunk size is not positive. -/
def requestChunks (taskChunkSize maxIdx : Int) (op : Operation) :
    Nat → Int → Except MatrixFault (List MultiplicationTask)
  | rounds, idx =>
    if idx < maxIdx then
      match rounds with
      | 0 => .error .endless
      | rounds + 1 => do
        let left ← checked (maxIdx - idx)
        let next ← checked (idx + taskChunkSize)
        let rest ← requestChunks taskChunkSize maxIdx op rounds next
        .ok ({ op1 := op.operandA, op2 := op.operandB, res := op.product, startIdx := idx
               endIdx := if taskChunkSize ≤ left then next else maxIdx } :: rest)
    else .ok []

/-- The tasks that `request_multiplication` enqueues, in order. -/
def requestMultiplication (taskChunkSize : Int) (op : Operation) : Except MatrixFault (List MultiplicationTask) :=
  if op.invalid then .error .invalidDimension
  else do
    let maxIdx ← checked (op.product.cols * op.product.rows)
    requestChunks taskChunkSize maxIdx op maxIdx.toNat 0

/-- The loop of the parallel program over its operations. -/
def requestAll (taskChunkSize : Int) : List Operation → Except MatrixFault (List MultiplicationTask)
  | [] => .ok []
  | op :: ops => do
    let tasks ← requestMultiplication taskChunkSize op
    let rest ← requestAll taskChunkSize ops
    .ok (tasks ++ rest)

end PCProject
