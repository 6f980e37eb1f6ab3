import PCProject.Lib.LinkedCells
import Mathlib.Data.Int.Notation

namespace PCProject

/-- The two limits of a queue, in the source the constants `_QUEUE_CHUNK_SIZE` and
`_QUEUE_MAX_LIVE_CHUNKS`. -/
structure QueueLimits where
  chunkSize : Nat
  maxLiveChunks : Nat
  chunkSize_pos : 0 < chunkSize
  maxLiveChunks_pos : 0 < maxLiveChunks

/-- The limits that the repository is compiled with. -/
def QueueLimits.source : QueueLimits := ⟨1000, 1000, by decide, by decide⟩

/-- One chunk of one slot. -/
def QueueLimits.smallest : QueueLimits := ⟨1, 1, by decide, by decide⟩

/-- One chunk of two slots. -/
def QueueLimits.twoSlots : QueueLimits := ⟨2, 1, by decide, by decide⟩

/-- Two chunks of one slot. -/
def QueueLimits.twoChunks : QueueLimits := ⟨1, 2, by decide, by decide⟩

/-- A slot of `tasks` is `none` until a task is stored in it: what `malloc` returns is
not initialised. -/
structure QueueChunk (α : Type) where
  tasks : List (Option α)
  nextChunk : Option Nat
  filled : Nat
  next : Nat

/-- The queue with the chunks it lives in. A pointer is `none` where it is NULL, and
`chunks` is the part of the heap that holds chunks. -/
structure Queue (α : Type) where
  chunks : Cells Nat (QueueChunk α)
  front : Option Nat
  back : Option Nat
  liveChunkCount : Int
  dispatched : Int

variable {α : Type}

/-- The contents of a chunk that QUEUE_create_chunk has just set up. -/
def QueueChunk.empty (size : Nat) : QueueChunk α :=
  { tasks := List.replicate size none, nextChunk := none, filled := 0, next := 0 }

/-- `malloc` may return any address that holds no chunk; the choice is `fresh`. -/
def queueCreateChunk (size : Nat) (chunks : Cells Nat (QueueChunk α)) (fresh : Nat) :
    Option (Cells Nat (QueueChunk α)) :=
  if (chunks fresh).isNone then some (chunks.store fresh (.empty size)) else none

def queueCreate (size fresh : Nat) : Queue α where
  chunks := Cells.store (fun _ => none) fresh (.empty size)
  front := some fresh
  back := some fresh
  liveChunkCount := 1
  dispatched := 0

/-- The chunk and its successors are freed, successors first. The recursion of the source
has no bound of its own; `depth` is the number of chunks it may visit. -/
def queueFreeChunk : Nat → Cells Nat (QueueChunk α) → Option Nat → Option (Cells Nat (QueueChunk α))
  | _, chunks, none => some chunks
  | 0, _, some _ => none
  | depth + 1, chunks, some p => do
    let queueChunk ← chunks p
    let chunks ← queueFreeChunk depth chunks queueChunk.nextChunk
    some (chunks.free p)

/-- The condition of the wait loop of QUEUE_get. It is `none` where the source would
follow an invalid pointer. -/
def queueGetWaits (queue : Queue α) : Option Bool := do
  let p ← queue.front
  let front ← queue.chunks p
  some (decide (front.filled ≤ front.next))

/-- QUEUE_get between the wait loop and the unlock of `rw_mutex`. Besides an impossible
choice of `fresh`, it is `none` where the source would follow an invalid pointer or read
a slot that is out of bounds or not initialised. -/
def queueGetSection (size : Nat) (queue : Queue α) (fresh : Nat) : Option (α × Queue α) := do
  let p ← queue.front
  let front ← queue.chunks p
  let task ← front.tasks[front.next]?.join
  let front := { front with next := front.next + 1 }
  if size ≤ front.next then
    let chunks ← queueFreeChunk 1 (queue.chunks.store p { front with nextChunk := none }) (some p)
    match front.nextChunk with
    | none =>
      let chunks ← queueCreateChunk size chunks fresh
      some (task, { queue with chunks := chunks, front := some fresh, back := some fresh })
    | some successor =>
      some (task, { queue with
        chunks := chunks, front := some successor, liveChunkCount := queue.liveChunkCount - 1 })
  else
    some (task, { queue with chunks := queue.chunks.store p front })

/-- The condition of the wait loop of QUEUE_add. -/
def queueAddWaits (size maxLive : Nat) (queue : Queue α) : Option Bool := do
  let p ← queue.back
  let back ← queue.chunks p
  some (decide (size ≤ back.filled ∧ (maxLive : Int) ≤ queue.liveChunkCount))

/-- The chunk after `tasks[filled++] = task`. -/
def QueueChunk.push (queueChunk : QueueChunk α) (task : α) : QueueChunk α :=
  { queueChunk with
    tasks := queueChunk.tasks.set queueChunk.filled (some task), filled := queueChunk.filled + 1 }

/-- The assignment `back->tasks[back->filled++] = task`, `none` out of bounds. -/
def queueStoreTask (chunks : Cells Nat (QueueChunk α)) (p : Nat) (task : α) :
    Option (Cells Nat (QueueChunk α)) := do
  let back ← chunks p
  if back.filled < back.tasks.length then some (chunks.store p (back.push task)) else none

/-- QUEUE_add between the wait loop and the unlock of `rw_mutex`. -/
def queueAddSection (size : Nat) (queue : Queue α) (task : α) (fresh : Nat) : Option (Queue α) := do
  let p ← queue.back
  let back ← queue.chunks p
  if size ≤ back.filled then
    let chunks ← queueCreateChunk size queue.chunks fresh
    let chunks := chunks.store p { back with nextChunk := some fresh }
    let chunks ← queueStoreTask chunks fresh task
    some { queue with chunks := chunks, back := some fresh, liveChunkCount := queue.liveChunkCount + 1 }
  else
    let chunks ← queueStoreTask queue.chunks p task
    some { queue with chunks := chunks }

/-- The section of QUEUE_get under `dispatch_counter_mutex`. -/
def queueCountDispatched (queue : Queue α) : Queue α := { queue with dispatched := queue.dispatched + 1 }

def queueRegisterCompletion (queue : Queue α) : Queue α := { queue with dispatched := queue.dispatched - 1 }

/-- QUEUE_free without the release of the queue structure itself. -/
def queueFree (depth : Nat) (queue : Queue α) : Option (Cells Nat (QueueChunk α)) :=
  queueFreeChunk depth queue.chunks queue.front

end PCProject
