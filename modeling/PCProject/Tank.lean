import PCProject.Lib.LinkedCells
import PCProject.Lib.CountedLoop
import PCProject.Lib.Transition
import Mathlib.Algebra.Group.Int.Defs
import Mathlib.Algebra.Group.Nat.Defs

namespace PCProject

/-- The allocated blocks with their elements. An element is `none` until it is written. -/
abbrev TankHeap (α : Type) := Cells Nat (List (Option α))

/-- A tank as the compiler copies it: `data` is `none` where the pointer is null. -/
structure Tank where
  data : Option Nat
  filled : Nat
  maxCapacity : Nat
  deriving DecidableEq

/-- The assertions of `Tank.cpp`, in the order of the file. -/
inductive TankAssertion
  | allocated
  | capacity
  | reallocated
  | nonempty
  | index
  deriving DecidableEq

/-- How an operation can end without a result: a failed assertion, a use of memory that is not
there, or an answer that the allocator does not give. -/
inductive TankStop
  | assertion (failed : TankAssertion)
  | undefined
  | unanswered
  deriving DecidableEq

/-- What the arithmetic of `std::size_t` stores. -/
def sizeT (n : Nat) : Nat := n % 2 ^ 64

variable {α : Type}

def tankAssert (condition : Prop) [Decidable condition] (failed : TankAssertion) : Except TankStop Unit :=
  if condition then .ok () else .error (.assertion failed)

/-- `malloc`, which returns `answer`. A block has room for the elements that fit in its bytes. -/
def tankMalloc (size bytes : Nat) (heap : TankHeap α) (answer : Option Nat) : Except TankStop (TankHeap α) :=
  match answer with
  | none => .ok heap
  | some q => if (heap q).isNone then .ok (heap.store q (List.replicate (bytes / size) none)) else .error .unanswered

/-- The first elements of a block in a block of another length. -/
def movedBlock (block : List (Option α)) (length : Nat) : List (Option α) :=
  (block ++ List.replicate length none).take length

/-- `realloc`, which returns `answer`. A null answer leaves the old block where it is, unless no
bytes are asked for: then the block is freed. -/
def tankRealloc (size bytes : Nat) (heap : TankHeap α) (data answer : Option Nat) : Except TankStop (TankHeap α) :=
  match data with
  | none => tankMalloc size bytes heap answer
  | some p =>
    match heap p with
    | none => .error .undefined
    | some block =>
      match answer with
      | none => .ok (if bytes = 0 then heap.free p else heap)
      | some q =>
        if q = p ∨ (heap q).isNone then .ok ((heap.free p).store q (movedBlock block (bytes / size)))
        else .error .unanswered

/-- `free`, which accepts a null pointer. -/
def tankFree (heap : TankHeap α) (data : Option Nat) : Except TankStop (TankHeap α) :=
  match data with
  | none => .ok heap
  | some p => if (heap p).isSome then .ok (heap.free p) else .error .undefined

/-- `data[index]` as a value. -/
def tankRead (heap : TankHeap α) (data : Option Nat) (index : Int) : Except TankStop α :=
  if index < 0 then .error .undefined
  else match data.bind fun p => (heap p).bind fun block => (block[index.toNat]?).join with
  | none => .error .undefined
  | some item => .ok item

/-- The assignment `data[index] = item`. -/
def tankWrite (heap : TankHeap α) (data : Option Nat) (index : Nat) (item : α) : Except TankStop (TankHeap α) :=
  match data with
  | none => .error .undefined
  | some p =>
    match heap p with
    | none => .error .undefined
    | some block =>
      if index < block.length then .ok (heap.store p (block.set index (some item))) else .error .undefined

/-- The constructor, for elements of `size` bytes. -/
def Tank.create (size initialCapacity : Nat) (heap : TankHeap α) (answer : Option Nat) :
    Except TankStop (Tank × TankHeap α) := do
  let heap ← tankMalloc size (sizeT (initialCapacity * size)) heap answer
  tankAssert (¬(answer = none ∧ 0 < initialCapacity)) .allocated
  return ({ data := answer, filled := 0, maxCapacity := initialCapacity }, heap)

def Tank.resize (size newCapacity : Nat) (tank : Tank) (heap : TankHeap α) (answer : Option Nat) :
    Except TankStop (Tank × TankHeap α) := do
  tankAssert (tank.filled ≤ newCapacity) .capacity
  let heap ← tankRealloc size (sizeT (newCapacity * size)) heap tank.data answer
  tankAssert (¬(answer = none ∧ 0 < newCapacity)) .reallocated
  return ({ tank with data := answer, maxCapacity := newCapacity }, heap)

/-- `if (condition) resize(newCapacity);` -/
def Tank.resizeIf (condition : Prop) [Decidable condition] (size newCapacity : Nat) (tank : Tank) (heap : TankHeap α)
    (answer : Option Nat) : Except TankStop (Tank × TankHeap α) :=
  if condition then tank.resize size newCapacity heap answer else .ok (tank, heap)

def Tank.size (tank : Tank) : Nat := tank.filled

/-- The capacity that push_back resizes a full tank to. -/
def Tank.grown (tank : Tank) : Nat := if 0 < tank.maxCapacity then sizeT (2 * tank.maxCapacity) else 1

def Tank.pushBack (size : Nat) (item : α) (tank : Tank) (heap : TankHeap α) (answer : Option Nat) :
    Except TankStop (Tank × TankHeap α) := do
  let (tank, heap) ← tank.resizeIf (tank.maxCapacity ≤ tank.filled) size tank.grown heap answer
  let heap ← tankWrite heap tank.data tank.filled item
  return ({ tank with filled := sizeT (tank.filled + 1) }, heap)

def Tank.popBack (size : Nat) (tank : Tank) (heap : TankHeap α) (answer : Option Nat) :
    Except TankStop (α × Tank × TankHeap α) := do
  tankAssert (0 < tank.filled) .nonempty
  let tank := { tank with filled := tank.filled - 1 }
  let removed ← tankRead heap tank.data tank.filled
  let (tank, heap) ← tank.resizeIf (tank.filled < tank.maxCapacity / 2) size (tank.maxCapacity / 2) heap answer
  return (removed, tank, heap)

/-- The comparison with `filled` turns the index into a `std::size_t`; the access does not. -/
def Tank.at (tank : Tank) (heap : TankHeap α) (index : Int) : Except TankStop α := do
  tankAssert (index % 2 ^ 64 < tank.filled) .index
  tankRead heap tank.data index

/-- `operator[]`. -/
def Tank.subscript (tank : Tank) (heap : TankHeap α) (index : Int) : Except TankStop α :=
  tank.at heap index

def Tank.freeArray (tank : Tank) (heap : TankHeap α) : Except TankStop (Tank × TankHeap α) := do
  let heap ← tankFree heap tank.data
  return ({ data := none, filled := 0, maxCapacity := 0 }, heap)

/-- The parameter is a copy of the tank, whose destructor runs when the function returns. -/
def accumulate [Zero α] [Add α] (tank : Tank) (heap : TankHeap α) : Except TankStop (α × TankHeap α) := do
  let sum ← forRange 0 tank.size (fun i sum => do return sum + (← tank.subscript heap i)) 0
  let (_, heap) ← tank.freeArray heap
  return (sum, heap)

/-- The calls of the public interface on a tank that lives. -/
inductive TankOp (α : Type)
  | pushBack (item : α)
  | popBack
  | at (index : Int)
  | subscript (index : Int)
  | size
  | resize (newCapacity : Nat)
  | freeArray

inductive TankReply (α : Type)
  | nothing
  | element (item : α)
  | count (n : Nat)

/-- A call, with what the allocator answers if it is asked. -/
def TankOp.run (size : Nat) (op : TankOp α) (answer : Option Nat) (tank : Tank) (heap : TankHeap α) :
    Except TankStop (TankReply α × Tank × TankHeap α) :=
  match op with
  | .pushBack item => do
    let after ← tank.pushBack size item heap answer
    return (.nothing, after)
  | .popBack => do
    let (removed, after) ← tank.popBack size heap answer
    return (.element removed, after)
  | .at index => do
    let item ← tank.at heap index
    return (.element item, tank, heap)
  | .subscript index => do
    let item ← tank.subscript heap index
    return (.element item, tank, heap)
  | .size => return (.count tank.size, tank, heap)
  | .resize newCapacity => do
    let after ← tank.resize size newCapacity heap answer
    return (.nothing, after)
  | .freeArray => do
    let after ← tank.freeArray heap
    return (.nothing, after)

/-- What an operation does to a list: the reply and the list afterwards, or the assertion that
fails. -/
def TankOp.onList (op : TankOp α) (xs : List α) : Except TankAssertion (TankReply α × List α) :=
  match op with
  | .pushBack item => .ok (.nothing, xs ++ [item])
  | .popBack =>
    match xs.getLast? with
    | none => .error .nonempty
    | some last => .ok (.element last, xs.dropLast)
  | .at index | .subscript index =>
    if inside : 0 ≤ index ∧ index < xs.length then .ok (.element xs[index.toNat], xs) else .error .index
  | .size => .ok (.count xs.length, xs)
  | .resize capacity => if capacity < xs.length then .error .capacity else .ok (.nothing, xs)
  | .freeArray => .ok (.nothing, [])

end PCProject
